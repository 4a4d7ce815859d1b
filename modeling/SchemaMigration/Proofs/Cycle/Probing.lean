import Mathlib.Logic.Relation
import SchemaMigration.Proofs.Cycle.Completion
import SchemaMigration.Proofs.Cycle.Securing

/-!
# SchemaMigration.Proofs.Cycle.Probing

What a probe for the control tables tells while another client runs a cycle on the same schema.

A probe looks twice, for one table each time, and in no transaction. The other client may make calls
before, between and after the two looks, and each call takes effect as one step. Tables do not go
away; so of the four answers three hold of the contents at some moment. A probe that misses the
log's table and then finds the lock's may have seen neither moment: the tables may have been
created together, between its looks.

* `Grows`, `Ahead` : no control table goes away, neither at a call nor with a commit.
* `apart` : direct calls are made while no transaction is open.
* `looking` : looks at contents, other moments passing between them.
* `glimpse` : the answer of a probe that looks at two moments.
* `Probing` : the two clients, with the contents at every moment so far.

`probe_tells` is the whole answer, and `not_probe_tells_missing` shows that the exception is met.
-/

namespace SchemaMigration

open Sql Database Attempt

variable {schema : String} {mayFail : Call → Prop} {data data' : Data} {s t : Service} {c : Call}
  {reply : c.Reply}

/-! ## Tables do not go away -/

def Grows (schema : String) (data data' : Data) : Prop :=
  ∀ table, HasTable schema table data → HasTable schema table data'

theorem Grows.refl (data : Data) : Grows schema data data := fun _ h => h

theorem Grows.trans {data'' : Data} (h : Grows schema data data') (h' : Grows schema data' data'') :
    Grows schema data data'' := fun table ht => h' table (h table ht)

theorem Database.Effect.grows {request : Request} {outcome : Outcome}
    (h : Effect schema data request data' outcome) : Grows schema data data' :=
  fun _ ht => h.hasTable ht

theorem Database.Torn.grows {request : Request} (h : Torn schema data request data') :
    Grows schema data data' := fun _ ht => h.hasTable ht

/-- The open transaction, if there is one, has the tables that there are outside of it. -/
def Ahead (schema : String) (s : Service) : Prop :=
  ∀ draft, s.draft = some draft → Grows schema s.data draft

/-- Direct calls are made while no transaction is open. -/
def apart (schema : String) : Protocol Service where
  allows s c := c.isIn .direct = true → s.draft = none
  answers := Answers schema anyCall

/-- A request that adds to what it sees adds to the contents, or to the transaction. -/
theorem Ahead.store (h : Ahead schema s) {scope : Scope}
    (hallow : scope = .direct → s.draft = none) (hv : s.view scope = some data)
    (hgrows : Grows schema data data') :
    Grows schema s.data (s.store scope data').data ∧ Ahead schema (s.store scope data') := by
  cases scope with
  | direct =>
    cases hv
    refine ⟨hgrows, fun draft hdraft => ?_⟩
    cases (hallow rfl).symm.trans hdraft
  | transaction =>
    refine ⟨.refl _, fun draft hdraft => ?_⟩
    cases hdraft
    exact (h data hv).trans hgrows

theorem Ahead.answered (h : Ahead schema s) (hallow : (apart schema).allows s c)
    (ha : Answers schema mayFail s c reply t) : Grows schema s.data t.data ∧ Ahead schema t := by
  have hclosed : ∀ data, Ahead schema { data } := fun _ _ hdraft => by cases hdraft
  have hdirect : ∀ {scope : Scope}, c.isIn scope = true → scope = .direct → s.draft = none :=
    fun hc hscope => hallow (hscope ▸ hc)
  cases ha with
  | begin => exact ⟨.refl _, fun draft hdraft => by cases hdraft; exact .refl _⟩
  | commit hd => exact ⟨h _ hd, hclosed _⟩
  | commitUnknown hd => exact ⟨h _ hd, hclosed _⟩
  | commitFails => exact ⟨.refl _, hclosed _⟩
  | rollback => exact ⟨.refl _, hclosed _⟩
  | rollbackFails => exact ⟨.refl _, hclosed _⟩
  | abandon => exact ⟨.refl _, hclosed _⟩
  | execute hv he => exact h.store (hdirect (decide_eq_true rfl)) hv he.grows
  | executeUnknown hv he => exact h.store (hdirect (decide_eq_true rfl)) hv he.grows
  | batch hv he => exact h.store (hdirect (decide_eq_true rfl)) hv he.grows
  | batchTorn hv ht => exact h.store (hdirect (decide_eq_true rfl)) hv ht.grows
  | query hv he => exact h.store (hdirect (decide_eq_true rfl)) hv he.grows
  | _ => exact ⟨.refl _, h⟩

theorem apart_brackets :
    (apart schema).Brackets (·.draft = none) fun _ => True where
  begin s hs := by
    refine ⟨fun _ => hs, fun reply t ha => ⟨fun _ => trivial, fun e he => ?_⟩⟩
    cases ha with
    | begin => cases he
    | beginFails => exact hs
  commit s _ := ⟨nofun, fun reply t ha => by cases ha <;> rfl⟩
  rollback s _ := ⟨nofun, fun reply t ha => by cases ha <;> rfl⟩
  abandon s _ := ⟨nofun, fun reply t ha => by cases ha; rfl⟩

/-- A cycle makes no direct call while its transaction is open. -/
theorem Engine.apply_apart (engine : Engine) (graph : MigrationGraph) :
    Keeps (apart schema) (·.draft = none) (engine.apply graph) := by
  refine keeps_apply apart_brackets ?_ ?_ ?_ engine graph
  · refine fun c hc _ s hs => ⟨fun _ => hs, fun reply t ha => ?_⟩
    cases ha <;> simp_all [Call.isIn, Service.store]
  · refine fun c hc _ s _ => ⟨fun hdirect => ?_, fun _ _ _ => trivial⟩
    cases c <;> simp_all [Call.isIn]
  · refine fun n s hs => ⟨fun _ => hs, fun reply t ha => ?_⟩
    cases ha
    exact hs

/-! ## Two looks -/

/-- The answer of a probe that looks for the log's table at one moment and for the lock's table at
another. -/
def glimpse (schema : String) (first second : Data) : Except CycleError Bool :=
  match (first.rows? (ControlTable.log.inSchema schema)).isSome,
    (second.rows? (ControlTable.lock.inSchema schema)).isSome with
  | true, true => .ok true
  | false, false => .ok false
  | true, false => .error (.controlTableMissing (ControlTable.lock.inSchema schema))
  | false, true => .error (.controlTableMissing (ControlTable.log.inSchema schema))

/-- Looks at the contents. The state is the contents at all moments so far; before a look others may
pass. -/
def looking (schema : String) : Protocol (List Data) where
  allows _ c := ∃ cells, c = .query .direct (.control .tableExists cells)
  answers moments c reply moments' := ∃ since data s, moments' = moments ++ since ++ [data] ∧
    Answers schema anyCall { data } c reply s

/-- The answer is that of two looks, the first at an earlier moment, or a call failed. -/
def Told (schema : String) (result : Except CycleError Bool) (moments : List Data) : Prop :=
  (∃ first second, [first, second].Sublist moments ∧ result = glimpse schema first second) ∨
    ∃ e, result = .error e ∧ Unrefused e

theorem Told.append {result : Except CycleError Bool} {moments : List Data}
    (h : Told schema result moments) (more : List Data) : Told schema result (moments ++ more) := by
  refine h.imp_left fun ⟨first, second, hsub, hresult⟩ => ⟨first, second, ?_, hresult⟩
  exact hsub.trans (List.sublist_append_left moments more)

/-- What is still to come of some looks does not depend on how many moments have passed. -/
theorem Session.Meets.append {session : Session (Except CycleError Bool)} {moments : List Data}
    (h : session.Meets (looking schema) (Told schema) moments) (more : List Data) :
    session.Meets (looking schema) (Told schema) (moments ++ more) := by
  cases session with
  | done result => exact Told.append h more
  | call c next =>
    refine ⟨h.1, ?_⟩
    rintro reply moments' ⟨since, data, s, rfl, ha⟩
    refine h.2 reply _ ⟨more ++ since, data, s, ?_, ha⟩
    rw [List.append_assoc moments more since]

/-- A look changes nothing. -/
theorem Database.Answers.eq_of_look {cells : List Value}
    {reply : (Call.query .direct (.control .tableExists cells)).Reply}
    (ha : Answers schema mayFail s (.query .direct (.control .tableExists cells)) reply t) :
    t = s := by
  cases ha with
  | query hv he =>
    cases he with
    | control hp =>
      cases hp
      exact Service.store_view hv
  | queryRefused => rfl
  | queryFails => rfl

namespace Engine

variable {engine : Engine}

theorem looking_tableExists (table : ControlTable) (moments : List Data) :
    Meets (looking engine.schema)
      (fun found moments' => ∃ since data, moments' = moments ++ since ++ [data] ∧
        found = (data.rows? (table.inSchema engine.schema)).isSome)
      (fun e _ => Unrefused e) (engine.tableExists table) moments := by
  refine meets_bind.mpr (meets_query.mpr ⟨⟨_, rfl⟩, ?_⟩)
  rintro reply moments' ⟨since, data, s, rfl, ha⟩
  cases ha with
  | query hv he =>
    cases hv
    cases he with
    | control hp =>
      cases hp
      exact ⟨since, data, rfl, rfl⟩
  | queryRefused => exact unrefused_database _
  | queryFails => exact unrefused_database _

theorem looking_controlTablesPresent (moments : List Data) :
    Session.Meets (looking engine.schema) (Told engine.schema) engine.controlTablesPresent.run
      moments := by
  have hends : ∀ (r : Except CycleError Bool) moments',
      Ends (fun a t => Told engine.schema (.ok a) t) (fun e t => Told engine.schema (.error e) t) r
        moments' → Told engine.schema r moments' := by
    intro r moments' h
    cases r with
    | ok a => exact h
    | error e => exact h
  refine Session.Meets.mono hends (meets_bind.mpr ((looking_tableExists .log moments).mono ?_
    fun e _ he => .inr ⟨e, rfl, he⟩))
  rintro log _ ⟨since, first, rfl, hlog⟩
  refine meets_bind.mpr ((looking_tableExists .lock _).mono ?_ fun e _ he => .inr ⟨e, rfl, he⟩)
  rintro lock _ ⟨since', second, rfl, hlock⟩
  have hfirst : [first].Sublist (moments ++ since ++ [first]) := List.sublist_append_right _ _
  have hsub : [first, second].Sublist (moments ++ since ++ [first] ++ since' ++ [second]) := by
    rw [List.append_assoc _ since']
    exact hfirst.append (List.sublist_append_right since' _)
  have htold : Told engine.schema (glimpse engine.schema first second)
      (moments ++ since ++ [first] ++ since' ++ [second]) := .inl ⟨first, second, hsub, rfl⟩
  rw [glimpse, ← hlog, ← hlock] at htold
  cases log <;> cases lock <;> exact htold

end Engine

/-! ## Two clients -/

/-- A probe and a cycle on one schema: what is left of both, the database as the cycle sees it, and
the contents at all moments so far, the present one included. -/
structure Probing where
  service : Service
  moments : List Data
  probe : Session (Except CycleError Bool)
  cycle : Session (Except CycleError Report)

namespace Probing

/-- Before the first call. The other engine works on the schema of the probe. -/
def start (engine other : Engine) (graph : MigrationGraph) (data : Data) : Probing where
  service := { data }
  moments := [data]
  probe := engine.controlTablesPresent.run
  cycle := (Engine.apply { other with schema := engine.schema } graph).run

/-- One client makes its next call. Any call may fail; the creation of the control tables has its
whole effect or none. -/
inductive Step (schema : String) : Probing → Probing → Prop where
  | look {w : Probing} {c : Call} {next : c.Reply → Session (Except CycleError Bool)}
      {reply : c.Reply} {s : Service} (hcall : w.probe = .call c next)
      (ha : Answers schema anyCall { data := w.service.data } c reply s) :
      Step schema w { w with
        service := { w.service with data := s.data }
        moments := w.moments ++ [s.data]
        probe := next reply }
  | work {w : Probing} {c : Call} {next : c.Reply → Session (Except CycleError Report)}
      {reply : c.Reply} {s : Service} (hcall : w.cycle = .call c next)
      (ha : Answers schema anyCall w.service c reply s)
      (honce : c = .creation →
        s.data = w.service.data ∨ s.data = w.service.data.createControlTables schema) :
      Step schema w { w with
        service := s
        moments := w.moments ++ [s.data]
        cycle := next reply }

def Reachable (schema : String) : Probing → Probing → Prop := Relation.ReflTransGen (Step schema)

/-- What holds at every moment: the probe will tell what it has to, and no table has gone away. -/
structure Sound (schema : String) (w : Probing) : Prop where
  probe : w.probe.Meets (looking schema) (Told schema) w.moments
  cycle : w.cycle.Meets (apart schema) (fun _ _ => True) w.service
  ahead : Ahead schema w.service
  grown : w.moments.Pairwise (Grows schema)
  latest : ∀ moment ∈ w.moments, Grows schema moment w.service.data

variable {w w' : Probing}

theorem sound_start (engine other : Engine) (graph : MigrationGraph) (data : Data) :
    Sound engine.schema (start engine other graph data) where
  probe := engine.looking_controlTablesPresent _
  cycle := Session.Meets.mono (fun _ _ _ => trivial) ((Engine.apply_apart _ graph).session rfl)
  ahead := fun _ hdraft => by cases hdraft
  grown := List.pairwise_singleton _ _
  latest := fun moment hm => by
    rw [List.mem_singleton.mp hm]
    exact .refl _

/-- Contents that only grow stay so when another moment is added. -/
theorem Sound.next (h : Sound schema w) (hgrows : Grows schema w.service.data data) :
    (w.moments ++ [data]).Pairwise (Grows schema) ∧
      ∀ moment ∈ w.moments ++ [data], Grows schema moment data := by
  have hall : ∀ moment ∈ w.moments, Grows schema moment data := fun moment hm =>
    (h.latest moment hm).trans hgrows
  refine ⟨List.pairwise_append.mpr ⟨h.grown, List.pairwise_singleton _ _, ?_⟩, ?_⟩
  · exact fun moment hm last hlast => List.mem_singleton.mp hlast ▸ hall moment hm
  · exact List.forall_mem_append.mpr ⟨hall, List.forall_mem_singleton.mpr (.refl data)⟩

theorem Step.sound (hs : Step schema w w') (h : Sound schema w) : Sound schema w' := by
  cases hs with
  | look hcall ha =>
    have hprobe := h.probe
    rw [hcall] at hprobe
    obtain ⟨⟨cells, rfl⟩, hnext⟩ := hprobe
    obtain rfl := ha.eq_of_look
    obtain ⟨hgrown, hlatest⟩ := h.next (.refl _)
    refine ⟨hnext _ _ ⟨[], _, _, ?_, ha⟩, h.cycle, h.ahead, hgrown, hlatest⟩
    rw [List.append_nil]
  | work hcall ha _ =>
    have hcycle := h.cycle
    rw [hcall] at hcycle
    obtain ⟨hgrows, hahead⟩ := h.ahead.answered hcycle.1 ha
    obtain ⟨hgrown, hlatest⟩ := h.next hgrows
    exact ⟨h.probe.append _, hcycle.2 _ _ ha, hahead, hgrown, hlatest⟩

theorem Reachable.sound (h : Reachable schema w w') (hw : Sound schema w) : Sound schema w' := by
  induction h with
  | refl => exact hw
  | tail _ hs ih => exact hs.sound ih

end Probing

/-- Of two looks at contents that only grow, three answers hold of one of the two moments. The
fourth may hold of neither. -/
theorem glimpse_cases {first second : Data} (h : Grows schema first second) :
    presence schema first = glimpse schema first second ∨
    presence schema second = glimpse schema first second ∨
    glimpse schema first second =
        .error (.controlTableMissing (ControlTable.log.inSchema schema)) ∧
      presence schema first = .ok false ∧ presence schema second = .ok true := by
  have hlog : HasTable schema .log first → HasTable schema .log second := h .log
  have hlock : HasTable schema .lock first → HasTable schema .lock second := h .lock
  rw [HasTable, HasTable] at hlog hlock
  simp only [glimpse, presence]
  cases hfirst : (first.rows? (ControlTable.log.inSchema schema)).isSome with
  | true =>
    rw [hlog hfirst]
    exact .inr (.inl rfl)
  | false =>
    cases hsecond : (second.rows? (ControlTable.lock.inSchema schema)).isSome with
    | false =>
      have hnone : (first.rows? (ControlTable.lock.inSchema schema)).isSome = false :=
        Bool.eq_false_iff.mpr fun hsome => Bool.eq_false_iff.mp hsecond (hlock hsome)
      rw [hnone]
      exact .inl rfl
    | true =>
      cases (first.rows? (ControlTable.lock.inSchema schema)).isSome with
      | true => exact .inl rfl
      | false =>
        cases (second.rows? (ControlTable.log.inSchema schema)).isSome with
        | false => exact .inr (.inl rfl)
        | true => exact .inr (.inr ⟨rfl, rfl, rfl⟩)

/-- What a probe tells while another client runs a cycle. Its answer is what the contents gave at
some moment of the run, an error that one of two tables is missing included; or a call failed; or
both tables came into being between its two looks, and it reports the log's table as missing. -/
theorem probe_tells {engine other : Engine} {graph : MigrationGraph} {data : Data} {w : Probing}
    {result : Except CycleError Bool}
    (h : Probing.Reachable engine.schema (.start engine other graph data) w)
    (hdone : w.probe = .done result) :
    (∃ moment ∈ w.moments, presence engine.schema moment = result) ∨
    (∃ e, result = .error e ∧ e.isRefusal = false) ∨
    result = .error (.controlTableMissing (ControlTable.log.inSchema engine.schema)) ∧
      ∃ first second, [first, second].Sublist w.moments ∧
        presence engine.schema first = .ok false ∧ presence engine.schema second = .ok true := by
  have hsound := h.sound (Probing.sound_start engine other graph data)
  have htold := hsound.probe
  rw [hdone] at htold
  rcases htold with ⟨first, second, hsub, rfl⟩ | hfailed
  · have hgrows : Grows engine.schema first second := hsound.grown.forall_sublist hsub
    rcases glimpse_cases hgrows with hfirst | hsecond | ⟨hglimpse, hfirst, hsecond⟩
    · exact .inl ⟨first, hsub.subset List.mem_cons_self, hfirst⟩
    · exact .inl ⟨second, hsub.subset (List.mem_cons_of_mem _ List.mem_cons_self), hsecond⟩
    · exact .inr (.inr ⟨hglimpse, first, second, hsub, hfirst, hsecond⟩)
  · exact .inr (.inl hfailed)

/-! ## Two first deployments -/

def firstEngine : Engine := { dialect := .builtin .duckdb, schema := "main" }

/-- Two clients on a schema without control tables, before the first call. -/
abbrev firstDeployments : Probing := .start firstEngine firstEngine ⟨[], ⟨[], []⟩, []⟩ {}

/-- The cycle creates the control tables between the two looks of the probe. -/
theorem exists_misled : ∃ w, Probing.Reachable firstEngine.schema firstDeployments w ∧
    w.probe = .done (.error (.controlTableMissing (ControlTable.log.inSchema "main"))) ∧
    ∀ moment ∈ w.moments, moment = {} ∨ moment = Data.createControlTables {} "main" := by
  have h₀ : Probing.Reachable firstEngine.schema firstDeployments firstDeployments := .refl
  have h₁ := h₀.tail (.look rfl (.query rfl (.control rfl)))
  have h₂ := h₁.tail (.work rfl (.query rfl (.control rfl)) nofun)
  have h₃ := h₂.tail (.work rfl (.query rfl (.control rfl)) nofun)
  have h₄ := h₃.tail (.work rfl (.batch rfl (.control rfl)) fun _ => .inr rfl)
  have h₅ := h₄.tail (.look rfl (.query rfl (.control rfl)))
  refine ⟨_, h₅, rfl, fun moment hm => ?_⟩
  have hmoments : moment ∈ [{}, {}, {}, {}, Data.createControlTables {} "main",
    Data.createControlTables {} "main"] := hm
  simpa [or_comm] using hmoments

theorem probe_tells_misled : ∃ w, Probing.Reachable firstEngine.schema firstDeployments w ∧
    w.probe = .done (.error (.controlTableMissing (ControlTable.log.inSchema "main"))) ∧
    ∃ first second, [first, second].Sublist w.moments ∧
      presence "main" first = .ok false ∧ presence "main" second = .ok true := by
  obtain ⟨w, hw, hdone, hmoments⟩ := exists_misled
  refine ⟨w, hw, hdone, ?_⟩
  rcases probe_tells hw hdone with ⟨moment, hm, hpresence⟩ | ⟨e, herror, hunrefused⟩ | ⟨-, htold⟩
  · rcases hmoments moment hm with rfl | rfl <;> cases hpresence
  · cases herror
    cases hunrefused
  · exact htold

/-- A missing table may be reported though at no moment one table stood without the other. -/
theorem not_probe_tells_missing : ¬ ∀ (engine other : Engine) (graph : MigrationGraph)
    (data : Data) (w : Probing) (table : TableRef),
    Probing.Reachable engine.schema (.start engine other graph data) w →
    w.probe = .done (.error (.controlTableMissing table)) →
    ∃ moment ∈ w.moments,
      ¬ (HasTable engine.schema .log moment ↔ HasTable engine.schema .lock moment) := by
  intro h
  obtain ⟨w, hw, hdone, hmoments⟩ := exists_misled
  obtain ⟨moment, hm, hone⟩ := h _ _ _ _ w _ hw hdone
  rcases hmoments moment hm with rfl | rfl
  · exact hone (iff_of_false Bool.false_ne_true Bool.false_ne_true)
  · have habsent : presence "main" {} = .ok false := rfl
    obtain ⟨hlog, hlock⟩ := createControlTables_of_absent habsent
    refine hone (iff_of_true ?_ ?_)
    · exact congrArg Option.isSome hlog
    · exact congrArg Option.isSome hlock

end SchemaMigration
