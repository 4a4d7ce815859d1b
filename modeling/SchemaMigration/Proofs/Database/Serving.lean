import SchemaMigration.Proofs.Database.LogTable
import SchemaMigration.Proofs.Session.Run

/-!
# SchemaMigration.Proofs.Database.Serving

A session on a database, with a record of the statements of migrations that it sends.

* `Watched` : a database that serves a session, and the statements sent so far with their replies.
* `Guard` : what is asked of the log's rows at every call, and from before a call to after it.
* `watching` : the calls, of which some may fail; `serving` adds that they are guarded and answered.
* `Service.Throughout` : what the requests keep of contents, the answers keep of a database.
* `meets_query_control`, `meets_execute_control`, `meets_batch_create` : one request on the control
  tables, in terms of what it does to the contents.
* `meets_batch_statement` : a statement of a migration, which leaves the control tables alone.
* `meets_transaction` : a transaction, in terms of what its work leaves in the draft.
-/

namespace SchemaMigration

open Sql Database Attempt

/-- A statement of a migration that was sent, and how it went. -/
structure Sent where
  statement : String
  reply : Except DatabaseError Unit

/-- The statements of migrations that go to the database with a call. -/
def Call.sent : (c : Call) → c.Reply → List Sent
  | .execute _ (.migration text), reply => [⟨text, reply.map fun _ => ()⟩]
  | .batch _ (.migration text), reply => [⟨text, reply⟩]
  | .query _ (.migration text), reply => [⟨text, reply.map fun _ => ()⟩]
  | _, _ => []

/-- A database that serves a session, and the statements of migrations that were sent to it. -/
structure Watched where
  service : Service
  sent : List Sent := []

/-- The request that goes to the database with a call. -/
def Call.request? : Call → Option Request
  | .execute _ request | .batch _ request | .query _ request => some request
  | _ => none

def watching (schema : String) (mayFail : Call → Prop) (w : Watched) (c : Call) (reply : c.Reply)
    (w' : Watched) : Prop :=
  Answers schema mayFail w.service c reply w'.service ∧ w'.sent = w.sent ++ c.sent reply

/-- What is asked of the log's rows: that a condition holds of them at every call, and that no
call changes them but along a relation. -/
structure Guard where
  holds : List (List Cell) → Prop
  moves : List (List Cell) → List (List Cell) → Prop
  refl : ∀ rows, moves rows rows

/-- At every call the log's rows are guarded, and the call is answered. -/
def serving (schema : String) (mayFail : Call → Prop) (guard : Guard) : Protocol Watched where
  allows w c := guard.holds (logRows schema w.service.data) ∧
    (∃ reply service, Answers schema mayFail w.service c reply service) ∧
    ∀ reply w', watching schema mayFail w c reply w' →
      guard.moves (logRows schema w.service.data) (logRows schema w'.service.data)
  answers := watching schema mayFail

/-- No call fails, unless the contents refuse it. -/
def never (_ : Call) : Prop := False

def anyCall (_ : Call) : Prop := True

namespace Database

/-- What a request on the control tables does to contents. -/
def Data.control (schema : String) (data : Data) (purpose : ControlStatement)
    (cells : List Value) : Except String (Data × Outcome) :=
  data.perform ((Request.control purpose cells).statement schema) (cells.map Cell.ofValue) true

def SameTables (schema : String) (data data' : Data) : Prop :=
  ∀ table : ControlTable, data'.rows? (table.inSchema schema) = data.rows? (table.inSchema schema)

theorem SameTables.refl {schema : String} (data : Data) : SameTables schema data data :=
  fun _ => rfl

theorem SameTables.trans {schema : String} {d d' d'' : Data} (h : SameTables schema d d')
    (h' : SameTables schema d' d'') : SameTables schema d d'' :=
  fun table => (h' table).trans (h table)

theorem SameTables.logRows {schema : String} {d d' : Data} (h : SameTables schema d d') :
    logRows schema d' = logRows schema d := by
  rw [Database.logRows, h .log, Database.logRows]

namespace Service

variable {service : Service} {scope : Scope} {data data' : Data}

theorem store_view (h : service.view scope = some data) : service.store scope data = service := by
  cases scope with
  | direct => cases h; rfl
  | transaction =>
    have hdraft : service.draft = some data := h
    rw [store, ← hdraft]

theorem view_store : (service.store scope data).view scope = some data := by
  cases scope <;> rfl

theorem store_store : (service.store scope data).store scope data' = service.store scope data' := by
  cases scope <;> rfl

theorem logRows_store {schema : String} (h : service.view scope = some data)
    (hrows : logRows schema data' = logRows schema data) :
    logRows schema (service.store scope data').data = logRows schema service.data := by
  cases scope with
  | direct => cases h; exact hrows
  | transaction => rfl

end Service
end Database

variable {schema : String} {mayFail : Call → Prop} {guard : Guard}

theorem Database.Answers.mono {mayFail' : Call → Prop} (hsub : ∀ c, mayFail c → mayFail' c)
    {s t : Service} {c : Call} {reply : c.Reply} (h : Answers schema mayFail s c reply t) :
    Answers schema mayFail' s c reply t := by
  cases h with
  | begin => exact .begin
  | beginFails hf e => exact .beginFails (hsub _ hf) e
  | commit hd => exact .commit hd
  | commitUnknown hd hf e => exact .commitUnknown hd (hsub _ hf) e
  | commitFails hf e => exact .commitFails (hsub _ hf) e
  | rollback => exact .rollback
  | rollbackFails hf e => exact .rollbackFails (hsub _ hf) e
  | abandon => exact .abandon
  | sleep n => exact .sleep n
  | execute hv he => exact .execute hv he
  | executeUnknown hv he hf e => exact .executeUnknown hv he (hsub _ hf) e
  | executeFails hf e => exact .executeFails (hsub _ hf) e
  | executeRefused hv hr e => exact .executeRefused hv hr e
  | batch hv he => exact .batch hv he
  | batchTorn hv ht hf e => exact .batchTorn hv ht (hsub _ hf) e
  | query hv he => exact .query hv he
  | queryRefused hv hr e => exact .queryRefused hv hr e
  | queryFails hf e => exact .queryFails (hsub _ hf) e

theorem watching_mono {mayFail' : Call → Prop} (hsub : ∀ c, mayFail c → mayFail' c) (w : Watched)
    (c : Call) (reply : c.Reply) (w' : Watched) (h : watching schema mayFail w c reply w') :
    watching schema mayFail' w c reply w' :=
  ⟨h.1.mono hsub, h.2⟩

/-- A run on a database is also one with a record of the statements that it sends. -/
theorem Session.Runs.exists_watched {α : Type} {session : Session α} {s t : Service} {r : Option α}
    (h : Session.Runs (Answers schema mayFail) session s r t) (sent : List Sent) :
    ∃ sent', Session.Runs (watching schema mayFail) session ⟨s, sent⟩ r ⟨t, sent'⟩ := by
  induction h generalizing sent with
  | done a s => exact ⟨sent, .done a (Watched.mk s sent)⟩
  | cut session s => exact ⟨sent, .cut session (Watched.mk s sent)⟩
  | @call c next reply s t u r hs _ ih =>
    obtain ⟨sent', hr⟩ := ih (sent ++ c.sent reply)
    have hstep : watching schema mayFail ⟨s, sent⟩ c reply ⟨t, sent ++ c.sent reply⟩ := ⟨hs, rfl⟩
    exact ⟨sent', .call hstep hr⟩

theorem Session.Runs.service {α : Type} {session : Session α} {w w' : Watched} {r : Option α}
    (h : Session.Runs (watching schema mayFail) session w r w') :
    Session.Runs (Answers schema mayFail) session w.service r w'.service := by
  induction h with
  | done a w => exact .done a w.service
  | cut session w => exact .cut session w.service
  | call hs _ ih => exact .call hs.1 ih

theorem Session.Runs.anyCall {α : Type} {session : Session α} {w w' : Watched} {r : Option α}
    (h : Session.Runs (watching schema mayFail) session w r w') :
    Session.Runs (watching schema anyCall) session w r w' :=
  h.mono (watching_mono fun _ _ => trivial)

/-! ## What every request keeps -/

/-- A condition on the contents, which also holds of them as the open transaction sees them. -/
structure Database.Service.Throughout (p : Data → Prop) (s : Service) : Prop where
  data : p s.data
  draft : ∀ data, s.draft = some data → p data

namespace Database.Service.Throughout

variable {p : Data → Prop} {s t : Service} {scope : Scope} {data : Data}

theorem view (h : s.Throughout p) (hv : s.view scope = some data) : p data := by
  cases scope with
  | direct => cases hv; exact h.data
  | transaction => exact h.draft data hv

theorem store (h : s.Throughout p) (scope : Scope) (hdata : p data) :
    (s.store scope data).Throughout p := by
  cases scope with
  | direct => exact ⟨hdata, h.draft⟩
  | transaction => exact ⟨h.data, fun _ hdraft => by cases hdraft; exact hdata⟩

theorem closed (hdata : p data) : Throughout p { data } :=
  ⟨hdata, fun _ h => by cases h⟩

/-- What the request of a call keeps of contents, an answer keeps of a database. -/
theorem answered_of {c : Call} {reply : c.Reply} (h : s.Throughout p)
    (heffect : ∀ {request data data' outcome}, c.request? = some request →
      Effect schema data request data' outcome → p data → p data')
    (htorn : ∀ {request data data'}, c.request? = some request →
      Torn schema data request data' → p data → p data')
    (ha : Answers schema mayFail s c reply t) : t.Throughout p := by
  cases ha with
  | begin => exact ⟨h.data, fun _ hdraft => by cases hdraft; exact h.data⟩
  | commit hd => exact .closed (h.draft _ hd)
  | commitUnknown hd => exact .closed (h.draft _ hd)
  | commitFails => exact .closed h.data
  | rollback => exact .closed h.data
  | rollbackFails => exact .closed h.data
  | abandon => exact .closed h.data
  | execute hv he => exact h.store _ (heffect rfl he (h.view hv))
  | executeUnknown hv he => exact h.store _ (heffect rfl he (h.view hv))
  | batch hv he => exact h.store _ (heffect rfl he (h.view hv))
  | batchTorn hv ht => exact h.store _ (htorn rfl ht (h.view hv))
  | query hv he => exact h.store _ (heffect rfl he (h.view hv))
  | _ => exact h

/-- What every request keeps of contents, every answer keeps of a database. -/
theorem answered
    (heffect : ∀ {request data data' outcome}, Effect schema data request data' outcome →
      p data → p data')
    (htorn : ∀ {request data data'}, Torn schema data request data' → p data → p data')
    {c : Call} {reply : c.Reply} (ha : Answers schema mayFail s c reply t)
    (h : s.Throughout p) : t.Throughout p :=
  h.answered_of (fun _ => heffect) (fun _ => htorn) ha

end Database.Service.Throughout

theorem hasLog_of_runs {α : Type} {session : Session α} {data : Data} {sent : List Sent}
    {r : Option α} {stopped : Watched}
    (hr : Session.Runs (watching schema mayFail) session ⟨{ data }, sent⟩ r stopped)
    (hlog : hasLog schema data = true) : hasLog schema stopped.service.data = true := by
  have hstep : ∀ w c reply w', watching schema mayFail w c reply w' →
      w.service.Throughout (hasLog schema · = true) →
      w'.service.Throughout (hasLog schema · = true) := fun _ _ _ _ ha h =>
    h.answered Effect.hasLog Torn.hasLog ha.1
  exact (hr.inv hstep (.closed hlog)).data

/-! ## Every call is answered -/

section Answered

variable {s : Service} {scope : Scope} {data : Data}

theorem exists_answer_execute (hv : s.view scope = some data) (request : Request) :
    ∃ reply t, Answers schema mayFail s (.execute scope request) reply t := by
  cases request with
  | migration text => exact ⟨_, _, .execute hv (.migration text {} fun _ => rfl)⟩
  | control purpose cells =>
    cases h : data.control schema purpose cells with
    | ok result => exact ⟨_, _, .execute hv (.control h)⟩
    | error message => exact ⟨_, _, .executeRefused hv h (.execution message)⟩

theorem exists_answer_query (hv : s.view scope = some data) (request : Request) :
    ∃ reply t, Answers schema mayFail s (.query scope request) reply t := by
  cases request with
  | migration text => exact ⟨_, _, .query hv (.migration text {} fun _ => rfl)⟩
  | control purpose cells =>
    cases h : data.control schema purpose cells with
    | ok result => exact ⟨_, _, .query hv (.control h)⟩
    | error message => exact ⟨_, _, .queryRefused hv h (.execution message)⟩

end Answered

/-- A call is allowed and its answers are as they should be, given what each answer does. -/
theorem served {w : Watched} {c : Call} {post : c.Reply → Watched → Prop}
    (hholds : guard.holds (logRows schema w.service.data))
    (hanswer : ∃ reply service, Answers schema mayFail w.service c reply service)
    (h : ∀ reply service, Answers schema mayFail w.service c reply service →
      guard.moves (logRows schema w.service.data) (logRows schema service.data) ∧
        post reply ⟨service, w.sent ++ c.sent reply⟩) :
    (serving schema mayFail guard).allows w c ∧
      ∀ reply t, (serving schema mayFail guard).answers w c reply t → post reply t := by
  refine ⟨⟨hholds, hanswer, fun reply t ht => (h reply t.service ht.1).1⟩, ?_⟩
  rintro reply ⟨service, sent⟩ ⟨ha, rfl⟩
  exact (h reply service ha).2

/-- The same for a call that sends no statement of a migration. -/
theorem served_control {w : Watched} {c : Call} {post : c.Reply → Watched → Prop}
    (hsent : ∀ reply, c.sent reply = []) (hholds : guard.holds (logRows schema w.service.data))
    (hanswer : ∃ reply service, Answers schema mayFail w.service c reply service)
    (h : ∀ reply service, Answers schema mayFail w.service c reply service →
      guard.moves (logRows schema w.service.data) (logRows schema service.data) ∧
        post reply ⟨service, w.sent⟩) :
    (serving schema mayFail guard).allows w c ∧
      ∀ reply t, (serving schema mayFail guard).answers w c reply t → post reply t := by
  refine served hholds hanswer fun reply service ha => ?_
  rw [hsent, List.append_nil]
  exact h reply service ha

/-! ## One request -/

section Request

variable {service : Service} {scope : Scope} {data data' : Data} {sent : List Sent}
  {purpose : ControlStatement} {cells : List Value} {outcome : Outcome}
  {fails : CycleError → Watched → Prop}

theorem Effect.control_eq {data'' : Data} {outcome' : Outcome}
    (hc : data.control schema purpose cells = .ok (data', outcome))
    (he : Effect schema data (.control purpose cells) data'' outcome') :
    data'' = data' ∧ outcome' = outcome := by
  cases he with
  | control h =>
    have hsame := Except.ok.inj (h.symm.trans hc)
    exact ⟨congrArg Prod.fst hsame, congrArg Prod.snd hsame⟩

theorem meets_query_control {post : List Row → Watched → Prop}
    (hview : service.view scope = some data)
    (hc : data.control schema purpose cells = .ok (data, outcome))
    (hholds : guard.holds (logRows schema service.data))
    (hok : post (shownRows outcome) ⟨service, sent⟩)
    (hfails : mayFail (.query scope (.control purpose cells)) →
      ∀ e, fails (.database e) ⟨service, sent⟩) :
    Meets (serving schema mayFail guard) post fails (query scope (.control purpose cells))
      ⟨service, sent⟩ := by
  refine meets_query.mpr (served_control (fun _ => rfl) hholds (exists_answer_query hview _)
    fun reply service' ha => ?_)
  cases ha with
  | query hv he =>
    cases hview.symm.trans hv
    obtain ⟨rfl, rfl⟩ := Effect.control_eq hc he
    rw [Service.store_view hview]
    exact ⟨guard.refl _, hok⟩
  | queryRefused hv hr =>
    cases hview.symm.trans hv
    cases hc.symm.trans hr
  | queryFails hf => exact ⟨guard.refl _, hfails hf _⟩

theorem meets_execute_control {post : Nat → Watched → Prop}
    (hview : service.view scope = some data)
    (hc : data.control schema purpose cells = .ok (data', outcome))
    (hholds : guard.holds (logRows schema service.data))
    (hmoves : guard.moves (logRows schema service.data)
      (logRows schema (service.store scope data').data))
    (hok : post outcome.affected ⟨service.store scope data', sent⟩)
    (hfails : mayFail (.execute scope (.control purpose cells)) → ∀ e,
      fails (.database e) ⟨service, sent⟩ ∧
        fails (.database e) ⟨service.store scope data', sent⟩) :
    Meets (serving schema mayFail guard) post fails (execute scope (.control purpose cells))
      ⟨service, sent⟩ := by
  refine meets_execute.mpr (served_control (fun _ => rfl) hholds
    (exists_answer_execute hview _) fun reply service' ha => ?_)
  cases ha with
  | execute hv he =>
    cases hview.symm.trans hv
    obtain ⟨rfl, rfl⟩ := Effect.control_eq hc he
    exact ⟨hmoves, hok⟩
  | executeUnknown hv he hf =>
    cases hview.symm.trans hv
    obtain ⟨rfl, rfl⟩ := Effect.control_eq hc he
    exact ⟨hmoves, (hfails hf _).2⟩
  | executeRefused hv hr =>
    cases hview.symm.trans hv
    cases hc.symm.trans hr
  | executeFails hf => exact ⟨guard.refl _, (hfails hf _).1⟩

/-- The creation of the control tables; when it fails it may have been done in part. -/
theorem meets_batch_create {post : Unit → Watched → Prop}
    (hholds : guard.holds (logRows schema data))
    (hok : post () ⟨{ data := data.createControlTables schema }, sent⟩)
    (hfails : mayFail (.batch .direct (.control .createControlTables [])) →
      ∀ data', SameLog schema data data' → ∀ e, fails (.database e) ⟨{ data := data' }, sent⟩) :
    Meets (serving schema mayFail guard) post fails
      (batch .direct (.control .createControlTables [])) ⟨{ data }, sent⟩ := by
  have hc : data.control schema .createControlTables [] =
      .ok (data.createControlTables schema, {}) := rfl
  have hsame : ∀ {data'}, SameLog schema data data' →
      guard.moves (logRows schema data) (logRows schema data') := by
    rintro data' ⟨hrows, -⟩
    rw [hrows]
    exact guard.refl _
  have htorn : ∀ {data'}, Torn schema data (.control .createControlTables []) data' →
      SameLog schema data data' := by
    intro data' ht
    cases ht with
    | whole he => exact (Effect.control_eq hc he).1 ▸ sameLog_createControlTables
    | nothing => exact .refl _
    | logOnly => exact sameLog_ensure_log
    | withoutRow => exact sameLog_ensure_log.trans sameLog_ensure_lock
  refine meets_batch.mpr (served_control (fun _ => rfl) hholds ⟨_, _, .batch rfl (.control hc)⟩
    fun reply service' ha => ?_)
  cases ha with
  | batch hv he =>
    cases hv
    obtain ⟨rfl, rfl⟩ := Effect.control_eq hc he
    exact ⟨hsame sameLog_createControlTables, hok⟩
  | batchTorn hv ht hf =>
    cases hv
    exact ⟨hsame (htorn ht), hfails hf _ (htorn ht) _⟩

theorem meets_batch_statement {post : Unit → Watched → Prop} {text : String}
    (hview : service.view scope = some data)
    (hholds : guard.holds (logRows schema service.data))
    (hok : ∀ data', SameTables schema data data' →
      post () ⟨service.store scope data', sent ++ [⟨text, .ok ()⟩]⟩)
    (hfails : mayFail (.batch scope (.migration text)) →
      ∀ data', SameTables schema data data' → ∀ e,
        fails (.database e) ⟨service.store scope data', sent ++ [⟨text, .error e⟩]⟩) :
    Meets (serving schema mayFail guard) post fails (batch scope (.migration text))
      ⟨service, sent⟩ := by
  have hsame : ∀ {data'}, SameTables schema data data' →
      guard.moves (logRows schema service.data)
        (logRows schema (service.store scope data').data) := by
    intro data' h
    rw [Service.logRows_store hview h.logRows]
    exact guard.refl _
  have heffect : ∀ {data' outcome}, Effect schema data (.migration text) data' outcome →
      SameTables schema data data' := by
    intro data' outcome he
    cases he with
    | migration _ _ h => exact h
  have htorn : ∀ {data'}, Torn schema data (.migration text) data' →
      SameTables schema data data' := by
    intro data' ht
    cases ht with
    | whole he => exact heffect he
    | nothing => exact .refl _
  refine meets_batch.mpr (served hholds ⟨_, _, .batch hview (.migration text {} fun _ => rfl)⟩
    fun reply service' ha => ?_)
  cases ha with
  | batch hv he =>
    cases hview.symm.trans hv
    exact ⟨hsame (heffect he), hok _ (heffect he)⟩
  | batchTorn hv ht hf =>
    cases hview.symm.trans hv
    exact ⟨hsame (htorn ht), hfails hf _ (htorn ht) _⟩

end Request

/-- A transaction. What its work leaves in the draft takes effect when it is committed. -/
theorem meets_transaction {α : Type} {data : Data} {sent : List Sent} {work : Attempt (Ending × α)}
    {post : α → Watched → Prop} {fails : CycleError → Watched → Prop}
    (good : Ending × α → Data → List Sent → Prop) (bad : CycleError → List Sent → Prop)
    (hholds : guard.holds (logRows schema data))
    (hbegin : mayFail .begin → ∀ e, fails (.database e) ⟨{ data }, sent⟩)
    (hwork : Meets (serving schema mayFail guard)
      (fun r t => ∃ draft sent', t = ⟨{ data, draft := some draft }, sent'⟩ ∧ good r draft sent')
      (fun e t => ∃ draft sent', t = ⟨{ data, draft := some draft }, sent'⟩ ∧ bad e sent')
      work ⟨{ data, draft := some data }, sent⟩)
    (hcommit : ∀ a draft sent', good (.commit, a) draft sent' →
      guard.moves (logRows schema data) (logRows schema draft) ∧
        post a ⟨{ data := draft }, sent'⟩ ∧
        (mayFail .commit → ∀ e, fails (.database e) ⟨{ data }, sent'⟩ ∧
          fails (.database e) ⟨{ data := draft }, sent'⟩))
    (hrollback : ∀ a draft sent', good (.rollback, a) draft sent' → post a ⟨{ data }, sent'⟩ ∧
      (mayFail .rollback → ∀ e, fails (.database e) ⟨{ data }, sent'⟩))
    (hbad : ∀ e sent', bad e sent' → fails e ⟨{ data }, sent'⟩) :
    Meets (serving schema mayFail guard) post fails (inTransaction work) ⟨{ data }, sent⟩ := by
  refine meets_inTransaction.mpr (served_control (fun _ => rfl) hholds ⟨_, _, .begin⟩
    fun reply service' ha => ?_)
  cases ha with
  | beginFails hf => exact ⟨guard.refl _, hbegin hf _⟩
  | begin =>
    refine ⟨guard.refl _, hwork.mono ?_ ?_⟩
    · rintro ⟨ending, a⟩ t ⟨draft, sent', rfl, hgood⟩
      cases ending with
      | commit =>
        obtain ⟨hmoves, hpost, hfails⟩ := hcommit a draft sent' hgood
        refine meets_ofReply.mpr (served_control (fun _ => rfl) hholds ⟨_, _, .commit rfl⟩
          fun reply service' ha => ?_)
        cases ha with
        | commit hd => cases hd; exact ⟨hmoves, hpost⟩
        | commitUnknown hd hf => cases hd; exact ⟨hmoves, (hfails hf _).2⟩
        | commitFails hf => exact ⟨guard.refl _, (hfails hf _).1⟩
      | rollback =>
        obtain ⟨hpost, hfails⟩ := hrollback a draft sent' hgood
        refine meets_ofReply.mpr (served_control (fun _ => rfl) hholds ⟨_, _, .rollback⟩
          fun reply service' ha => ?_)
        cases ha with
        | rollback => exact ⟨guard.refl _, hpost⟩
        | rollbackFails hf => exact ⟨guard.refl _, hfails hf _⟩
    · rintro e t ⟨draft, sent', rfl, hbad'⟩
      refine served_control (fun _ => rfl) hholds ⟨_, _, .abandon⟩ fun reply service' ha => ?_
      cases ha
      exact ⟨guard.refl _, hbad e sent' hbad'⟩

end SchemaMigration
