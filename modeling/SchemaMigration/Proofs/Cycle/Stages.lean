import SchemaMigration.Proofs.Cycle.Tenure
import SchemaMigration.Proofs.Session.Transcript

/-!
# SchemaMigration.Proofs.Cycle.Stages

A whole run of a cycle, cut where one of its parts ends and the next one begins. Nothing is asked
of the database.

* `Engine.furnish` : the control tables are there, or they are created.
* `Engine.Stages` : how a cycle came to its result, with the states between its parts.
* `Engine.stages_of_runs` : every run of a cycle that ends has such stages.
* `Engine.clean_furnish`, `Lock.clean_acquire`, `Engine.clean_applyLocked` : the calls of the parts,
  each of which ends the transactions that it begins. `Engine.clean_taking` has the first two.
-/

namespace SchemaMigration

open Attempt

variable {σ : Type} {answers : σ → (c : Call) → c.Reply → σ → Prop} {engine : Engine}
  {graph : MigrationGraph}

namespace Engine

/-- The control tables are there, or they are created. -/
def furnish (engine : Engine) : Attempt Unit := do
  if ← engine.controlTablesPresent then pure ()
  else batch .direct (.control .createControlTables [])

theorem apply_eq_furnish_bracket (engine : Engine) (graph : MigrationGraph) :
    engine.apply graph = engine.furnish >>= fun _ => engine.bracket graph := by
  rw [apply_eq, furnish, bind_assoc]
  refine bind_congr fun present => ?_
  cases present with
  | true => rfl
  | false => rfl

/-- How a cycle came to its result: it failed before the lock was asked for, the lock was not to be
had, or the cycle got the lock, did its work and gave the lock back. -/
inductive Stages (answers : σ → (c : Call) → c.Reply → σ → Prop) (engine : Engine)
    (graph : MigrationGraph) (s : σ) : Except CycleError Report → σ → Prop where
  | unfurnished {e : CycleError} {t : σ}
      (hfurnish : Session.Runs answers engine.furnish.run s (some (.error e)) t) :
      Stages answers engine graph s (.error e) t
  | unheld {e : CycleError} {t u : σ}
      (hfurnish : Session.Runs answers engine.furnish.run s (some (.ok ())) t)
      (hacquire : Session.Runs answers (Lock.acquire engine.schema engine.lock).run t
        (some (.error e)) u) :
      Stages answers engine graph s (.error e) u
  | held {outcome : Except CycleError Report} {released : Except CycleError Unit} {t u v w : σ}
      (hfurnish : Session.Runs answers engine.furnish.run s (some (.ok ())) t)
      (hacquire : Session.Runs answers (Lock.acquire engine.schema engine.lock).run t
        (some (.ok ())) u)
      (hlocked : Session.Runs answers (engine.applyLocked graph).run u (some outcome) v)
      (hrelease : Session.Runs answers Lock.release.run v (some released) w) :
      Stages answers engine graph s (verdict outcome released) w

theorem stages_of_runs {s w : σ} {result : Except CycleError Report}
    (h : Session.Runs answers (engine.apply graph).run s (some result) w) :
    Stages answers engine graph s result w := by
  rw [apply_eq_furnish_bracket] at h
  obtain ⟨_, t, hfurnish, h⟩ | ⟨e, rfl, hfurnish⟩ := cases_of_runs_bind h
  · obtain ⟨_, u, hacquire, h⟩ | ⟨e, rfl, hacquire⟩ := cases_of_runs_bind h
    · obtain ⟨outcome, v, hlocked, h⟩ | ⟨e, -, hlocked⟩ := cases_of_runs_bind h
      · obtain ⟨_, houtcome, hlocked⟩ := of_runs_outcome hlocked
        cases houtcome
        obtain ⟨released, _, hrelease, h⟩ | ⟨e, -, hrelease⟩ := cases_of_runs_bind h
        · obtain ⟨_, hreleased, hrelease⟩ := of_runs_outcome hrelease
          cases hreleased
          cases h
          exact .held hfurnish hacquire hlocked hrelease
        · obtain ⟨_, hreleased, -⟩ := of_runs_outcome hrelease
          cases hreleased
      · obtain ⟨_, houtcome, -⟩ := of_runs_outcome hlocked
        cases houtcome
    · exact .unheld hfurnish hacquire
  · exact .unfurnished hfurnish

end Engine

/-! ## The calls of the parts -/

/-- The calls that a cycle makes while it has no part in the lock, the one to set the flag
included. -/
abbrev Idle (c : Call) : Prop := Tenure.idle.Allows c

/-- The calls that a cycle makes until it gives back the lock. -/
def BeforeRelease (c : Call) : Prop := Idle c ∨ UnderLock c

theorem idle_transacts : Clean.Transacts Idle :=
  ⟨.outside .begin, .outside .commit, .outside .rollback, .outside .abandon⟩

theorem beforeRelease_transacts : Clean.Transacts BeforeRelease :=
  ⟨.inr .begin, .inr .commit, .inr .rollback, .inr .abandon⟩

namespace Engine

theorem clean_furnish (engine : Engine) :
    Keeps transcript (Clean Idle 0) engine.furnish := by
  refine Keeps.bind (keeps_controlTablesPresent
    (fun cells => Clean.keeps (.outside (.tableExists cells)) fun _ _ => rfl) engine)
    fun present => ?_
  cases present with
  | true => exact keeps_pure
  | false => exact keeps_batch (Clean.keeps (.outside .create) fun _ _ => rfl)

end Engine

theorem Lock.clean_acquire (schema : String) (settings : LockSettings) :
    Keeps transcript (Clean Idle 0) (Lock.acquire schema settings) :=
  Lock.keeps_acquire (Clean.brackets idle_transacts)
    (Clean.keeps (.outside .readFlag) fun _ _ => rfl) (Clean.keeps .set fun _ _ => rfl)
    (fun n => Clean.keeps (.outside (.sleep n)) fun _ _ => rfl) schema settings

/-- All calls until the lock is there or refused. -/
theorem Engine.clean_taking {calls calls' : List Exchange} {result : Except CycleError Unit}
    (hfurnish : Session.Runs transcribed engine.furnish.run [] (some (.ok ())) calls)
    (hacquire : Session.Runs transcribed (Lock.acquire engine.schema engine.lock).run calls
      (some result) calls') : Clean Idle 0 calls' :=
  (Lock.clean_acquire _ _).of_runs hacquire (engine.clean_furnish.of_runs hfurnish .nil)

theorem Engine.clean_applyLocked (engine : Engine) (graph : MigrationGraph) :
    Keeps transcript (Clean BeforeRelease 0) (engine.applyLocked graph) :=
  have hb := Clean.brackets beforeRelease_transacts
  keeps_applyLocked (Store.keeps_load (Clean.keeps (.inr .load) fun _ _ => rfl))
    (Store.keeps_renumber hb fun cells => Clean.keeps (.inr (.move cells)) fun _ _ => rfl)
    (keeps_execute hb (fun text => Clean.keeps (.inr (.statement .direct text)) fun _ _ => rfl)
      fun text => Clean.keeps (.inr (.statement .transaction text)) fun _ _ => rfl)
    (keeps_record (fun cells => Clean.keeps (.inr (.insert cells)) fun _ _ => rfl)
      fun cells => Clean.keeps (.inr (.update cells)) fun _ _ => rfl)
    engine graph

end SchemaMigration
