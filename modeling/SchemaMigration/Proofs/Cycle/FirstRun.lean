import SchemaMigration.Proofs.Cycle.Furnishing

/-!
# SchemaMigration.Proofs.Cycle.FirstRun

First runs that fail, and what a later run makes of it.

Runs follow each other on a schema that had no control tables; each may stop anywhere. Where the
creation of the control tables failed on its way, every later run stops at what it left. Wherever
else a run stopped, no later run finds the control tables damaged.

* `answerable` : a database that is asked what it can answer.
* `Engine.exists_runs` : every cycle can come to an end.
* `Tried` : the contents after some runs.
* `LeftAt` : the contents are what a creation left that failed on its way.

`later_run_damage` says when a later run reports damage, and `not_later_run_undamaged` that it
happens.
-/

namespace SchemaMigration

open Sql Database Attempt

variable {schema : String} {mayFail : Call → Prop} {data : Data}

/-! ## Cycles come to an end -/

/-- A database that is asked what it can answer. -/
def answerable (schema : String) (mayFail : Call → Prop) : Protocol Service where
  allows s c := ∃ reply t, Answers schema mayFail s c reply t
  answers := Answers schema mayFail

/-- What a cycle asks of contents that are there is answered. -/
theorem exists_answer_plain {scope : Scope} {s : Service} {c : Call} (hin : c.isIn scope = true)
    (hplain : c.isPlain = true) (hv : s.view scope = some data) :
    ∃ reply t, Answers schema mayFail s c reply t := by
  cases c with
  | execute scope' request =>
    obtain rfl : scope' = scope := of_decide_eq_true hin
    exact exists_answer_execute hv request
  | query scope' request =>
    obtain rfl : scope' = scope := of_decide_eq_true hin
    exact exists_answer_query hv request
  | batch scope' request =>
    obtain rfl : scope' = scope := of_decide_eq_true hin
    cases request with
    | migration text => exact ⟨_, _, .batch hv (.migration text {} fun _ => rfl)⟩
    | control purpose cells =>
      obtain rfl : purpose = .createControlTables := of_decide_eq_true hplain
      exact ⟨_, _, .batch hv (.control rfl)⟩
  | _ => cases hin

theorem answerable_brackets :
    (answerable schema mayFail).Brackets (fun _ => True) (·.draft.isSome = true) where
  begin s _ := by
    refine ⟨⟨_, _, .begin⟩, fun reply t ha => ⟨fun hreply => ?_, fun _ _ => trivial⟩⟩
    cases ha with
    | begin => rfl
    | beginFails => cases hreply
  commit s hs := by
    obtain ⟨draft, hdraft⟩ := Option.isSome_iff_exists.mp hs
    exact ⟨⟨_, _, .commit hdraft⟩, fun _ _ _ => trivial⟩
  rollback s _ := ⟨⟨_, _, .rollback⟩, fun _ _ _ => trivial⟩
  abandon s _ := ⟨⟨_, _, .abandon⟩, fun _ _ _ => trivial⟩

namespace Engine

theorem answerable_apply (engine : Engine) (graph : MigrationGraph) :
    Keeps (answerable schema mayFail) (fun _ => True) (engine.apply graph) := by
  refine keeps_apply answerable_brackets ?_ ?_ ?_ engine graph
  · exact fun c hin hplain s _ => ⟨exists_answer_plain hin hplain rfl, fun _ _ _ => trivial⟩
  · intro c hin hplain s hs
    obtain ⟨draft, hdraft⟩ := Option.isSome_iff_exists.mp hs
    refine ⟨exists_answer_plain hin hplain hdraft, fun reply t ha => ?_⟩
    cases ha <;> simp_all [Call.isIn, Service.store]
  · exact fun n s _ => ⟨⟨_, _, .sleep n⟩, fun _ _ _ => trivial⟩

/-- Whatever the contents are, a cycle can come to an end. -/
theorem exists_runs (engine : Engine) (graph : MigrationGraph) (s : Service) :
    ∃ result t, Session.Runs (Answers schema mayFail) (engine.apply graph).run s (some result)
      t := by
  have hmeets : Session.Meets (answerable schema mayFail) _ (engine.apply graph).run s :=
    (answerable_apply engine graph).session trivial
  obtain ⟨result, t, hr, -⟩ := hmeets.completes fun _ _ h => h
  exact ⟨result, t, hr⟩

end Engine

/-! ## Later runs -/

/-- The contents that runs on a schema leave, one after the other. Each may be a run of any cycle,
see any of its calls fail, and stop anywhere. -/
inductive Tried (schema : String) (fresh : Data) : Data → Prop where
  | fresh : Tried schema fresh fresh
  | again {data : Data} {engine : Engine} {graph : MigrationGraph}
      {r : Option (Except CycleError Report)} {t : Service} (h : Tried schema fresh data)
      (hschema : engine.schema = schema)
      (hr : Session.Runs (Answers schema anyCall) (engine.apply graph).run { data } r t) :
      Tried schema fresh t.data

/-- The contents are those that a run found without control tables, and what the creation had done
when it failed. -/
def LeftAt (schema : String) (fresh : Data) (behind : String → Data → Data) (data : Data) : Prop :=
  ∃ before, Tried schema fresh before ∧ presence schema before = .ok false ∧
    data = behind schema before

theorem LeftAt.damaged_log {fresh : Data} (h : LeftAt schema fresh behindLog data) :
    Damaged schema data (.controlTableMissing (ControlTable.lock.inSchema schema)) := by
  obtain ⟨before, -, hnone, rfl⟩ := h
  exact damaged_behindLog hnone

theorem LeftAt.damaged_lock {fresh : Data} (h : LeftAt schema fresh behindLock data) :
    Damaged schema data (Lock.rowMissing schema) := by
  obtain ⟨before, -, hnone, rfl⟩ := h
  exact damaged_behindLock hnone

/-- Runs leave no tables, or whole ones, or what a creation left that failed. -/
theorem Tried.cases {fresh : Data} (h : Tried schema fresh data)
    (hfresh : presence schema fresh = .ok false) :
    (presence schema data = .ok false ∨ Ready schema data) ∨
      LeftAt schema fresh behindLog data ∨ LeftAt schema fresh behindLock data := by
  induction h with
  | fresh => exact .inl (.inl hfresh)
  | @again data engine graph r t hbefore hschema hr ih =>
    subst hschema
    rcases ih with (habsent | hready) | hleft | hleft
    · cases leftBy_of_runs habsent hr with
      | absent => exact .inl (.inl habsent)
      | behindLog => exact .inr (.inl ⟨data, hbefore, habsent, rfl⟩)
      | behindLock => exact .inr (.inr ⟨data, hbefore, habsent, rfl⟩)
      | ready hready => exact .inl (.inr hready.data)
    · exact .inl (.inr (ready_of_runs hready hr))
    · rw [(stopped_of_runs hleft.damaged_log hr).1]
      exact .inr (.inl hleft)
    · rw [(stopped_of_runs hleft.damaged_lock hr).1]
      exact .inr (.inr hleft)

/-- A run in which no call fails finds a control table missing, or the row of the lock, exactly
where the creation of the control tables failed on its way in an earlier run. What such a creation
left stays as it is, whichever cycles are run, whatever calls of them fail and wherever they stop,
so every later run finds the same. -/
theorem later_run_damage {engine : Engine} {fresh data : Data} (graph : MigrationGraph)
    (hfresh : presence engine.schema fresh = .ok false) (htried : Tried engine.schema fresh data) :
    (∃ result final, Session.Runs (Answers engine.schema never) (engine.apply graph).run { data }
      (some result) final) ∧
    (LeftAt engine.schema fresh behindLog data ∨ LeftAt engine.schema fresh behindLock data →
      ∀ (other : Engine) (graph' : MigrationGraph) (result : Option (Except CycleError Report))
        (final : Service), other.schema = engine.schema →
        Session.Runs (Answers engine.schema anyCall) (other.apply graph').run { data } result
          final → final.data = data) ∧
    ∀ result final, Session.Runs (Answers engine.schema never) (engine.apply graph).run { data }
        (some result) final →
      (∀ table, result = .error (.controlTableMissing table) ↔
        table = ControlTable.lock.inSchema engine.schema ∧
          LeftAt engine.schema fresh behindLog data) ∧
      ∀ table, result = .error (.lockRowMissing table) ↔
        table = ControlTable.lock.inSchema engine.schema ∧
          LeftAt engine.schema fresh behindLock data := by
  refine ⟨engine.exists_runs graph _, ?_, fun result final hr => ?_⟩
  · intro hleft other graph' result final hschema hr
    rw [← hschema] at hleft hr
    rcases hleft with hleft | hleft
    · exact (stopped_of_runs hleft.damaged_log hr).1
    · exact (stopped_of_runs hleft.damaged_lock hr).1
  have hstopped : ∀ {e}, Damaged engine.schema data e → result = .error e := fun h =>
    ((stopped_of_runs h hr).2 result rfl).resolve_left not_fallible_never
  have hbehindLog : LeftAt engine.schema fresh behindLog data →
      result = .error (.controlTableMissing (ControlTable.lock.inSchema engine.schema)) :=
    fun hleft => hstopped hleft.damaged_log
  have hbehindLock : LeftAt engine.schema fresh behindLock data →
      result = .error (Lock.rowMissing engine.schema) :=
    fun hleft => hstopped hleft.damaged_lock
  constructor
  · refine fun table => ⟨?_, ?_⟩
    · rintro rfl
      rcases htried.cases hfresh with hwhole | hleft | hleft
      · cases undamaged_of_runs hwhole hr
      · cases hbehindLog hleft
        exact ⟨rfl, hleft⟩
      · cases hbehindLock hleft
    · rintro ⟨rfl, hleft⟩
      exact hbehindLog hleft
  · refine fun table => ⟨?_, ?_⟩
    · rintro rfl
      rcases htried.cases hfresh with hwhole | hleft | hleft
      · cases undamaged_of_runs hwhole hr
      · cases hbehindLog hleft
      · cases hbehindLock hleft
        exact ⟨rfl, hleft⟩
    · rintro ⟨rfl, hleft⟩
      exact hbehindLock hleft

/-! ## A creation that fails -/

/-- A first run whose creation of the control tables fails behind the log's table. -/
theorem exists_torn_run : ∃ e, Session.Runs (Answers singleEngine.schema anyCall)
    (singleEngine.apply singleGraph).run { data := {} } (some (.error e))
    { data := behindLog singleEngine.schema {} } :=
  ⟨_, .call (.query rfl (.control rfl)) (.call (.query rfl (.control rfl))
    (.call (.batchTorn rfl (.logOnly []) trivial (.execution "disk full")) (.done _ _)))⟩

/-- Every run after that one finds the lock's table missing, and leaves it so. -/
theorem later_run_damage_torn :
    presence singleEngine.schema {} = .ok false ∧
    Tried singleEngine.schema {} (behindLog singleEngine.schema {}) ∧
    (∀ result final, Session.Runs (Answers singleEngine.schema anyCall)
        (singleEngine.apply singleGraph).run { data := behindLog singleEngine.schema {} }
        result final → final.data = behindLog singleEngine.schema {}) ∧
    (∃ result final, Session.Runs (Answers singleEngine.schema never)
      (singleEngine.apply singleGraph).run { data := behindLog singleEngine.schema {} }
      (some result) final) ∧
    ∀ result final, Session.Runs (Answers singleEngine.schema never)
        (singleEngine.apply singleGraph).run { data := behindLog singleEngine.schema {} }
        (some result) final →
      result = .error (.controlTableMissing (ControlTable.lock.inSchema singleEngine.schema)) := by
  have hfresh : presence singleEngine.schema {} = .ok false := rfl
  obtain ⟨e, hr⟩ := exists_torn_run
  have htried : Tried singleEngine.schema {} (behindLog singleEngine.schema {}) :=
    .again .fresh rfl hr
  have hleft : LeftAt singleEngine.schema {} behindLog (behindLog singleEngine.schema {}) :=
    ⟨{}, .fresh, hfresh, rfl⟩
  obtain ⟨hends, hstays, hdamage⟩ := later_run_damage singleGraph hfresh htried
  refine ⟨hfresh, htried, fun result final hr => ?_, hends, fun result final hlast => ?_⟩
  · exact hstays (.inl hleft) singleEngine singleGraph result final rfl hr
  · exact ((hdamage result final hlast).1 _).mpr ⟨rfl, hleft⟩

/-- A later run may report damage though nothing but the first run came before it. -/
theorem not_later_run_undamaged : ¬ ∀ (engine : Engine) (graph : MigrationGraph) (fresh : Data)
    (e : CycleError) (stopped : Service) (result : Except CycleError Report) (final : Service),
    presence engine.schema fresh = .ok false →
    Session.Runs (Answers engine.schema anyCall) (engine.apply graph).run { data := fresh }
      (some (.error e)) stopped →
    Session.Runs (Answers engine.schema never) (engine.apply graph).run { data := stopped.data }
      (some result) final →
    ∀ table, result ≠ .error (.controlTableMissing table) ∧
      result ≠ .error (.lockRowMissing table) := by
  intro h
  have hfresh : presence singleEngine.schema {} = .ok false := rfl
  obtain ⟨e, hfirst⟩ := exists_torn_run
  obtain ⟨result, final, hlast⟩ := singleEngine.exists_runs singleGraph
    { data := behindLog singleEngine.schema {} }
  have hdamage := ((stopped_of_runs (damaged_behindLog hfresh) hlast).2 result rfl).resolve_left
    not_fallible_never
  exact (h _ _ _ _ _ _ _ hfresh hfirst hlast _).1 hdamage

end SchemaMigration
