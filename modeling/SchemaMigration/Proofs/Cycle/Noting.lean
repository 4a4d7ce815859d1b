import SchemaMigration.Proofs.Cycle.Applying
import SchemaMigration.Proofs.History.InStep
import SchemaMigration.Proofs.Session.Transcript

/-!
# SchemaMigration.Proofs.Cycle.Noting

A cycle that notes its log in memory, again and again, beside the database of that moment.

* `Service.Loads` : what is loaded from a database says what a log in memory says.
* `Log.InStep.loads` : so it does where both are in step.
* `Observed`, `observing` : a database with the logs that were noted, and the calls, any of which
  may fail, where one that fails leaves the log as it was.
* `Observed.At` : the log in the database is in step with one in memory.
* `Engine.applyNoted` : the cycle with the log noted before each migration and where the migrations
  end, whether they were all met or one of them ended the cycle.
* `Observed.keeps_unmoved`, `Observed.keeps_inside` : the calls that leave the log alone.

`Engine.erase_applyNoted` : the notes are all that is added to the cycle.
-/

namespace SchemaMigration

open Sql Database Attempt

/-- What is loaded from a database says what a log in memory says. -/
structure Database.Service.Loads (schema : String) (log : Log) (service : Service) : Prop where
  returns : ∃ stored,
    Session.Runs (Answers schema never) Store.load.run service (some (.ok stored)) service
  agrees : ∀ result service',
    Session.Runs (Answers schema never) Store.load.run service (some result) service' →
      ∃ stored, result = .ok stored ∧ log.Like stored

/-- A database that serves a session, and the logs in memory that were noted so far, each with the
database of that moment. -/
structure Observed where
  service : Service
  moments : List (Log × Service) := []

namespace Observed

def note (log : Log) (w : Observed) : Observed :=
  { w with moments := w.moments ++ [(log, w.service)] }

/-- So many logs were noted, each of which is loaded from its database. -/
structure Sound (schema : String) (n : Nat) (w : Observed) : Prop where
  size : w.moments.length = n
  loads : ∀ moment ∈ w.moments, moment.2.Loads schema moment.1

/-- The log in the database is in step with one in memory. -/
structure At (schema : String) (n : Nat) (log : Log) (w : Observed) : Prop
    extends w.Sound schema n where
  inStep : log.InStep schema w.service.data

/-- The log in the database is as it was in some contents. -/
structure Unmoved (schema : String) (n : Nat) (base : Data) (w : Observed) : Prop
    extends w.Sound schema n where
  data : SameLog schema base w.service.data

/-- The same, also as the open transaction sees it. -/
structure Inside (schema : String) (n : Nat) (base : Data) (w : Observed) : Prop
    extends w.Sound schema n where
  throughout : w.service.Throughout (SameLog schema base)

end Observed

/-- Any call may fail, and one that fails leaves the log as it was. All that was noted before a call
is sound. -/
def observing (schema : String) : Protocol Observed where
  allows w _ := ∃ n, w.Sound schema n
  answers w c reply w' :=
    Answers schema anyCall w.service c reply w'.service ∧
      (Exchange.failed ⟨c, reply⟩ = true →
        logRows schema w'.service.data = logRows schema w.service.data) ∧
      w'.moments = w.moments

variable {schema : String} {mayFail : Call → Prop} {n : Nat} {base : Data} {log : Log}
  {w t : Observed} {c : Call}

/-! ## Loading -/

/-- A query on the log changes nothing, and what is read of its rows is what the log holds. -/
theorem of_answers_selectLog {s s' : Service} {cells : List Value}
    {reply : Except DatabaseError (List Row)}
    (ha : Answers schema mayFail s (.query .direct (.control .selectLog cells)) reply s') :
    s' = s ∧ ∀ rows, reply = .ok rows → hasLog schema s.data = true ∧
      Log.ofEntries <$> Store.readEntries rows = Store.readIn schema s.data := by
  cases ha with
  | @query _ _ _ data' outcome hv he =>
    cases hv
    obtain ⟨-, rfl, hlog⟩ := rows_load he
    refine ⟨rfl, ?_⟩
    intro rows hrows
    cases hrows
    refine ⟨hlog, ?_⟩
    have hread : s.data.control schema .selectLog cells = .ok (s.data, _) :=
      perform_on rfl (rows?_log hlog) _ _
    obtain ⟨-, rfl⟩ := Effect.control_eq hread he
    rw [Store.readIn]
    cases Store.readEntries _ with
    | error e => rfl
    | ok entries => rfl
  | queryRefused => exact ⟨rfl, fun _ h => by cases h⟩
  | queryFails => exact ⟨rfl, fun _ h => by cases h⟩

/-- What is in step can be loaded. -/
theorem Log.InStep.loads {service : Service} (h : log.InStep schema service.data) :
    service.Loads schema log := by
  obtain ⟨stored, hread, hlike⟩ := h.exists_read
  have hrows : ∀ cells, service.data.control schema .selectLog cells = .ok (service.data, _) :=
    fun _ => perform_on rfl (rows?_log h.present) _ _
  refine ⟨⟨stored, ?_⟩, fun result service' hr => ?_⟩
  · have ha : Answers schema never service (.query .direct (.control .selectLog [])) _ service :=
      .query rfl (.control (hrows []))
    obtain ⟨-, hloaded⟩ := of_answers_selectLog ha
    obtain ⟨-, hentries⟩ := hloaded _ rfl
    rw [hread] at hentries
    cases hok : Store.readEntries (shownRows _) with
    | error e => rw [hok] at hentries; cases hentries
    | ok entries =>
      rw [hok] at hentries
      cases hentries
      refine .call ha ?_
      show Session.Runs _ (ofResult (Store.readEntries _) >>= fun entries =>
        pure (Log.ofEntries entries)).run _ _ _
      rw [hok]
      exact .done _ _
  · rcases cases_of_runs_bind hr with ⟨rows, u, hquery, hrest⟩ | ⟨e, rfl, hquery⟩
    · obtain ⟨reply, hreply, hcall⟩ := of_runs_ofReply hquery
      have ha := hcall.of_send
      cases reply with
      | error e => cases hreply
      | ok rows' =>
        cases hreply
        obtain ⟨rfl, hloaded⟩ := of_answers_selectLog ha
        obtain ⟨-, hentries⟩ := hloaded _ rfl
        rw [hread] at hentries
        rcases cases_of_runs_ofResult_bind hrest with ⟨entries, hok, hend⟩ | ⟨e, herr, -⟩
        · rw [hok] at hentries
          cases hend
          cases hentries
          exact ⟨_, rfl, hlike⟩
        · rw [herr] at hentries
          cases hentries
    · obtain ⟨reply, hreply, hcall⟩ := of_runs_ofReply hquery
      have ha := hcall.of_send
      cases reply with
      | ok rows => cases hreply
      | error e' =>
        cases ha with
        | queryRefused hv hr =>
          cases hv
          cases (hrows _).symm.trans hr
        | queryFails hf => cases hf

/-! ## The cycle with its notes -/

theorem outcome_bind_throw {α β : Type} (attempt : Attempt α) (f : α → Attempt β) :
    (outcome attempt >>= fun
      | .ok a => f a
      | .error e => throw e) = attempt >>= f := by
  refine ExceptT.ext ?_
  rw [ExceptT.run_bind, ExceptT.run_bind, outcome, ExceptT.run_lift, bind_map_left]
  refine bind_congr fun r => ?_
  cases r with
  | ok a => rfl
  | error e => rfl

namespace Engine

open MarkedAttempt (mark ofAttempt)

/-- The migrations, with the log noted before each of them and where they end. -/
def processAllNoted (engine : Engine) : Progress → List Planned → MarkedAttempt Log Progress
  | progress, [] => do
    mark progress.log
    pure progress
  | progress, planned :: rest => do
    mark progress.log
    match ← ofAttempt (outcome (engine.process progress planned)) with
    | .ok progress => engine.processAllNoted progress rest
    | .error e =>
      mark progress.log
      throw e

def finishNoted (engine : Engine) (prepared : Log × List Planned) : MarkedAttempt Log Report := do
  let progress ← engine.processAllNoted { log := prepared.1 } prepared.2
  match progress.log.unapplied with
  | [] => pure progress.report
  | names => throw (.deletedMigrations names)

def applyNoted (engine : Engine) (graph : MigrationGraph) : MarkedAttempt Log Report := do
  let prepared ← ofAttempt (engine.opening graph)
  let result ← (engine.finishNoted prepared).outcome
  let released ← ofAttempt (outcome Lock.release)
  ofAttempt (ofResult (verdict result released))

theorem erase_processAllNoted (engine : Engine) (planned : List Planned) (progress : Progress) :
    (engine.processAllNoted progress planned).erase = engine.processAll progress planned := by
  induction planned generalizing progress with
  | nil => rfl
  | cons first rest ih =>
    have hstep := outcome_bind_throw (engine.process progress first) (engine.processAll · rest)
    rw [processAllNoted, MarkedAttempt.erase_bind, MarkedAttempt.erase_mark, pure_bind,
      MarkedAttempt.erase_bind, MarkedAttempt.erase_ofAttempt, processAll, ← hstep]
    refine bind_congr fun r => ?_
    cases r with
    | ok progress => exact ih progress
    | error e => rfl

/-- The notes are all that a noting cycle adds to a cycle. -/
theorem erase_applyNoted (engine : Engine) (graph : MigrationGraph) :
    (engine.applyNoted graph).erase = engine.apply graph := by
  rw [applyNoted, apply_eq_opening_closing, MarkedAttempt.erase_bind,
    MarkedAttempt.erase_ofAttempt]
  refine bind_congr fun prepared => ?_
  have hfinish : (engine.finishNoted prepared).erase = engine.finish prepared := by
    rw [finishNoted, MarkedAttempt.erase_bind, erase_processAllNoted]
    refine bind_congr fun progress => ?_
    cases progress.log.unapplied with
    | nil => rfl
    | cons name names => rfl
  rw [closing, MarkedAttempt.erase_bind, MarkedAttempt.erase_outcome, hfinish]
  refine bind_congr fun result => ?_
  rw [MarkedAttempt.erase_bind, MarkedAttempt.erase_ofAttempt]
  rfl

end Engine

/-! ## What leaves the log alone -/

def Call.writesLog : Call → Bool
  | .execute _ request | .batch _ request | .query _ request => request.writesLog
  | _ => false

theorem Call.writesLog_of_request? {request : Request} (h : c.request? = some request) :
    c.writesLog = request.writesLog := by
  cases c <;> cases h <;> rfl

theorem Database.Service.sameLog_store {service : Service} {scope : Scope} {data data' : Data}
    (hv : service.view scope = some data) (h : SameLog schema data data') :
    SameLog schema service.data (service.store scope data').data := by
  cases scope with
  | direct => cases hv; exact h
  | transaction => exact .refl _

/-- A call that does not write the log leaves it as it is, unless it commits what was written. -/
theorem Database.Answers.sameLog {s s' : Service} {reply : c.Reply}
    (ha : Answers schema mayFail s c reply s') (hc : c.writesLog = false) (hcommit : c ≠ .commit) :
    SameLog schema s.data s'.data := by
  cases ha with
  | commit => exact absurd rfl hcommit
  | commitUnknown => exact absurd rfl hcommit
  | commitFails => exact absurd rfl hcommit
  | execute hv he => exact Service.sameLog_store hv (he.leavesLog hc)
  | executeUnknown hv he => exact Service.sameLog_store hv (he.leavesLog hc)
  | batch hv he => exact Service.sameLog_store hv (he.leavesLog hc)
  | batchTorn hv ht => exact Service.sameLog_store hv (ht.leavesLog hc)
  | query hv he => exact Service.sameLog_store hv (he.leavesLog hc)
  | _ => exact .refl _

namespace Observed

theorem Sound.answered {reply : c.Reply} (h : w.Sound schema n)
    (ha : (observing schema).answers w c reply t) : t.Sound schema n := by
  obtain ⟨-, -, hmoments⟩ := ha
  exact ⟨hmoments ▸ h.size, hmoments ▸ h.loads⟩

theorem keeps_sound {α : Type} (attempt : Attempt α) :
    Keeps (observing schema) (Sound schema n) attempt := by
  refine keeps_of_calls (fun c w hw => ?_) attempt
  exact ⟨⟨n, hw⟩, fun _ _ ha => hw.answered ha⟩

theorem keeps_unmoved (hc : c.writesLog = false) (hcommit : c ≠ .commit) :
    (observing schema).Keeps (Unmoved schema n base) c := by
  intro w hw
  refine ⟨⟨n, hw.toSound⟩, fun reply t ha => ?_⟩
  exact ⟨hw.toSound.answered ha, hw.data.trans (ha.1.sameLog hc hcommit)⟩

theorem keeps_inside (hc : c.writesLog = false) :
    (observing schema).Keeps (Inside schema n base) c := by
  intro w hw
  refine ⟨⟨n, hw.toSound⟩, fun reply t ha => ⟨hw.toSound.answered ha, ?_⟩⟩
  refine hw.throughout.answered_of ?_ ?_ ha.1
  · intro request data data' outcome hrequest he hsame
    exact hsame.trans (he.leavesLog (Call.writesLog_of_request? hrequest ▸ hc))
  · intro request data data' hrequest ht hsame
    exact hsame.trans (ht.leavesLog (Call.writesLog_of_request? hrequest ▸ hc))

theorem observing_brackets :
    (observing schema).Brackets (Unmoved schema n base) (Inside schema n base) where
  begin w hw := by
    have hkeeps := keeps_unmoved (c := .begin) rfl nofun w hw
    refine ⟨hkeeps.1, fun reply t ha => ⟨?_, fun _ _ => hkeeps.2 reply t ha⟩⟩
    rintro rfl
    refine ⟨hw.toSound.answered ha, (hkeeps.2 _ t ha).data, fun data hdraft => ?_⟩
    obtain ⟨service, moments⟩ := t
    obtain ⟨ha, -⟩ := ha
    cases ha
    cases hdraft
    exact hw.data
  commit w hw := ending rfl hw
  rollback w hw := ending rfl hw
  abandon w hw := ending rfl hw
where
  ending {c : Call} (hc : c.writesLog = false) {w : Observed} (hw : Inside schema n base w) :
      (observing schema).allows w c ∧ ∀ reply t, (observing schema).answers w c reply t →
        Unmoved schema n base t := by
    have hkeeps := keeps_inside hc w hw
    exact ⟨hkeeps.1, fun reply t ha =>
      ⟨hw.toSound.answered ha, (hkeeps.2 reply t ha).throughout.data⟩⟩

theorem At.unmoved (h : w.At schema n log) : w.Unmoved schema n w.service.data :=
  ⟨h.toSound, .refl _⟩

theorem At.of_unmoved (h : w.At schema n log) (ht : t.Unmoved schema n w.service.data) :
    t.At schema n log :=
  ⟨ht.toSound, h.inStep.same ht.data⟩

theorem At.noted (h : w.At schema n log) : (w.note log).At schema (n + 1) log where
  size := by rw [note, List.length_append, h.size, List.length_singleton]
  loads moment hmoment := by
    rcases List.mem_append.mp hmoment with hold | hlast
    · exact h.loads moment hold
    · rw [List.mem_singleton.mp hlast]
      exact h.inStep.loads
  inStep := h.inStep

end Observed

end SchemaMigration
