import SchemaMigration.Proofs.Cycle.Applying
import SchemaMigration.Proofs.Cycle.Stages

/-!
# SchemaMigration.Proofs.Cycle.Release

The lock is given back once, at the end, and by those cycles that got it. All of it holds of a
database that may answer every call in any way, so for every choice of the calls that fail.

* `Call.isRelease` : the calls that clear the flag.
* `Released` : a cycle that got the lock, with its calls before, under and at the end of the lock.
* `Unacquired` : a cycle that did not get the lock.

`release_ends_cycle` : every cycle is one or the other.
-/

namespace SchemaMigration

open Attempt

def Request.isRelease : Request → Bool
  | .control .releaseLock _ => true
  | _ => false

/-- A call that clears the flag of the lock. -/
def Call.isRelease : Call → Bool
  | .execute _ request | .batch _ request | .query _ request => request.isRelease
  | _ => false

/-- A cycle that got the lock: its calls until it had the lock, its calls under the lock with
what came of them, and the release. -/
structure Released (engine : Engine) (graph : MigrationGraph) (result : Except CycleError Report)
    (calls taking work : List Exchange) (cycle : Except CycleError Report)
    (reply : Except DatabaseError Nat) : Prop where
  acquired : ∃ opening,
    Session.Runs transcribed engine.furnish.run [] (some (.ok ())) opening ∧
    Session.Runs transcribed (Lock.acquire engine.schema engine.lock).run opening (some (.ok ()))
      taking
  worked : Session.Runs transcribed (engine.applyLocked graph).run taking (some cycle)
    (taking ++ work)
  calls_eq : calls = taking ++ work ++ [⟨.execute .direct (.control .releaseLock []), reply⟩]
  before : ∀ x ∈ taking, x.call.isGuarded = false ∧ x.call.isRelease = false
  under : ∀ x ∈ work, x.call.isRelease = false
  closed : openTransactions (taking ++ work) = 0
  own_error : ∀ e, cycle = .error e → result = .error e
  release_error : ∀ report e, cycle = .ok report → reply = .error e → result = .error (.database e)
  success : ∀ report rows, cycle = .ok report → reply = .ok rows → result = .ok report

/-- A cycle that did not get the lock: no control tables, or no lock to be had. -/
structure Unacquired (engine : Engine) (result : Except CycleError Report) (calls : List Exchange)
    (e : CycleError) : Prop where
  failed : Session.Runs transcribed engine.furnish.run [] (some (.error e)) calls ∨
    ∃ opening, Session.Runs transcribed engine.furnish.run [] (some (.ok ())) opening ∧
      Session.Runs transcribed (Lock.acquire engine.schema engine.lock).run opening
        (some (.error e)) calls
  result_eq : result = .error e
  quiet : ∀ x ∈ calls, x.call.isGuarded = false ∧ x.call.isRelease = false

theorem Outside.isRelease {c : Call} (h : Outside c) : c.isRelease = false := by
  cases h <;> rfl

theorem UnderLock.isRelease {c : Call} (h : UnderLock c) : c.isRelease = false := by
  cases h <;> rfl

theorem Idle.quiet {c : Call} (h : Idle c) : c.isGuarded = false ∧ c.isRelease = false := by
  cases h with
  | outside h => exact ⟨h.isGuarded, h.isRelease⟩
  | set => exact ⟨rfl, rfl⟩

theorem BeforeRelease.isRelease {c : Call} (h : BeforeRelease c) : c.isRelease = false := by
  rcases h with h | h
  · exact h.quiet.2
  · exact h.isRelease

theorem Lock.of_runs_release {σ : Type} {answers : σ → (c : Call) → c.Reply → σ → Prop} {s u : σ}
    {released : Except CycleError Unit}
    (h : Session.Runs answers release.run s (some released) u) :
    ∃ reply, answers s (.execute .direct (.control .releaseLock [])) reply u ∧
      released = (reply.mapError .database).map fun _ => () := by
  obtain ⟨rows, t, hcall, hrest⟩ | ⟨e, rfl, hcall⟩ := cases_of_runs_bind h
  · obtain ⟨reply, hreply, hanswer⟩ := of_runs_execute hcall
    cases hrest
    cases reply with
    | ok n => exact ⟨.ok n, hanswer, rfl⟩
    | error e => cases hreply
  · obtain ⟨reply, hreply, hanswer⟩ := of_runs_execute hcall
    cases reply with
    | ok n => cases hreply
    | error e =>
      cases hreply
      exact ⟨.error e, hanswer, rfl⟩

variable {engine : Engine} {graph : MigrationGraph} {result : Except CycleError Report}
  {calls : List Exchange}

/-- A cycle that gets the lock gives it back in its last call, whatever became of the calls before,
and its own error counts more than one of the release. A cycle that does not get the lock leaves
the flag, the log and the migrations alone. -/
theorem release_ends_cycle
    (h : Session.Runs transcribed (engine.apply graph).run [] (some result) calls) :
    (∃ taking work cycle reply, Released engine graph result calls taking work cycle reply) ∨
      ∃ e, Unacquired engine result calls e := by
  cases Engine.stages_of_runs h with
  | @unfurnished e _ hfurnish =>
    have hclean := engine.clean_furnish.of_runs hfurnish .nil
    exact .inr ⟨e, .inl hfurnish, rfl, fun x hx => (hclean.each x hx).quiet⟩
  | @unheld e opening _ hfurnish hacquire =>
    have hclean := Engine.clean_taking hfurnish hacquire
    exact .inr ⟨e, .inr ⟨opening, hfurnish, hacquire⟩, rfl, fun x hx => (hclean.each x hx).quiet⟩
  | @held cycle released opening taking worked _ hfurnish hacquire hlocked hrelease =>
    have htaking := Engine.clean_taking hfurnish hacquire
    have hworked := (engine.clean_applyLocked graph).of_runs hlocked (htaking.imp fun _ => .inl)
    obtain ⟨work, rfl⟩ := hlocked.exists_append
    obtain ⟨reply, rfl, rfl⟩ := Lock.of_runs_release hrelease
    refine .inl ⟨taking, work, cycle, reply, ⟨opening, hfurnish, hacquire⟩, hlocked, rfl,
      fun x hx => (htaking.each x hx).quiet, fun x hx => ?_, hworked.depth, ?_, ?_, ?_⟩
    · exact (hworked.each x (List.mem_append_right _ hx)).isRelease
    · rintro e rfl
      rfl
    · rintro report e rfl rfl
      rfl
    · rintro report rows rfl rfl
      rfl

/-- The control tables are there and the lock is clear; the log cannot be read. -/
def logUnreadable : Replies
  | _, .query _ (.control .tableExists _) => .ok [⟨[.bool true]⟩]
  | _, .query _ (.control .isLocked _) => .ok [⟨[.bool false]⟩]
  | _, .query _ _ => .error (.execution "cannot read")
  | _, .execute _ _ => .ok 1
  | _, .batch _ _ => .ok ()
  | _, .begin | _, .commit | _, .rollback => .ok ()
  | _, .abandon | _, .sleep _ => ()

theorem release_ends_cycle_unreadable :
    ∃ result calls,
      Session.Runs transcribed (singleEngine.apply singleGraph).run [] (some result) calls ∧
      result = .error (.database (.execution "cannot read")) ∧
      calls.map (·.call) = [
        .query .direct (.control .tableExists [.text "ordo", .text Sql.ControlTable.log.name]),
        .query .direct (.control .tableExists [.text "ordo", .text Sql.ControlTable.lock.name]),
        .begin, .query .transaction (.control .isLocked []),
        .execute .transaction (.control .acquireLock []), .commit,
        .query .direct (.control .selectLog []),
        .execute .direct (.control .releaseLock [])] ∧
      ((∃ taking work cycle reply,
          Released singleEngine singleGraph result calls taking work cycle reply) ∨
        ∃ e, Unacquired singleEngine result calls e) :=
  have hrun := Session.Runs.chosen logUnreadable (singleEngine.apply singleGraph).run []
  ⟨_, _, hrun, rfl, rfl, release_ends_cycle hrun⟩

end SchemaMigration
