import SchemaMigration.Proofs.Session.Run

/-!
# SchemaMigration.Proofs.Session.Outcomes

What can come of an attempt when nothing is known of the database.

* `unknown` : any call may be made and anything may come back.
* `Attempt.Yields` : one condition for the results of an attempt and one for its errors.
* `Attempt.Yields.of_runs` : they hold of every run, whatever the database.

A call can give any result and any error of the database; what else an attempt ends with is its
own doing.
-/

namespace SchemaMigration

/-- Nothing is known of what comes back. -/
def unknown : Protocol Unit where
  allows _ _ := True
  answers _ _ _ _ := True

variable {σ α β : Type} {answers : σ → (c : Call) → c.Reply → σ → Prop} {s t : σ}

theorem Session.Runs.of_unknown {session : Session α} {r : Option α}
    (h : Runs answers session s r t) : Runs unknown.answers session () r () := by
  induction h with
  | done a s => exact .done a ()
  | cut session s => exact .cut session ()
  | call _ _ ih => exact .call (t := ()) trivial ih

namespace Attempt

variable {post : α → Prop} {fails : CycleError → Prop}

/-- Whatever comes back from its calls, `post` holds of a result and `fails` of an error. -/
def Yields (post : α → Prop) (fails : CycleError → Prop) (attempt : Attempt α) : Prop :=
  Meets unknown (fun a _ => post a) (fun e _ => fails e) attempt ()

theorem Yields.mono {post' : α → Prop} {fails' : CycleError → Prop} {attempt : Attempt α}
    (hp : ∀ a, post a → post' a) (hf : ∀ e, fails e → fails' e) (h : Yields post fails attempt) :
    Yields post' fails' attempt :=
  Meets.mono (fun a _ => hp a) (fun e _ => hf e) h

theorem Yields.of_runs {attempt : Attempt α} {result : Except CycleError α}
    (h : Yields post fails attempt) (hr : Session.Runs answers attempt.run s (some result) t) :
    Ends (fun a _ => post a) (fun e _ => fails e) result () :=
  Meets.of_runs h hr.of_unknown

/-- Where any call may be made, the same holds at the end of every branch. -/
theorem Yields.meets {p : Protocol σ} {attempt : Attempt α} (h : Yields post fails attempt)
    (hallow : ∀ s c, p.allows s c) (s : σ) :
    Meets p (fun a _ => post a) (fun e _ => fails e) attempt s := by
  have hsession : ∀ session : Session (Except CycleError α),
      session.Meets unknown (Ends (fun a _ => post a) fun e _ => fails e) () → ∀ s : σ,
        session.Meets p (Ends (fun a _ => post a) fun e _ => fails e) s := by
    intro session
    induction session with
    | done r => exact fun h s => by cases r <;> exact h
    | call c next ih =>
      exact fun h s => ⟨hallow s c, fun reply t _ => ih reply (h.2 reply () trivial) t⟩
  exact hsession attempt.run h s

theorem yields_pure {a : α} : Yields post fails (pure a) ↔ post a := Iff.rfl

theorem yields_throw {e : CycleError} : Yields post fails (throw e : Attempt α) ↔ fails e := Iff.rfl

theorem yields_bind {post : β → Prop} {attempt : Attempt α} {f : α → Attempt β} :
    Yields post fails (attempt >>= f) ↔ Yields (fun a => Yields post fails (f a)) fails attempt :=
  meets_bind

theorem yields_ofResult_bind {post : β → Prop} {r : Except CycleError α} {f : α → Attempt β}
    (hok : ∀ a, r = .ok a → Yields post fails (f a)) (herror : ∀ e, r = .error e → fails e) :
    Yields post fails (ofResult r >>= f) := by
  refine yields_bind.mpr ?_
  cases r with
  | ok a => exact hok a rfl
  | error e => exact herror e rfl

theorem yields_outcome {attempt : Attempt α} {post : Except CycleError α → Prop} :
    Yields post fails (outcome attempt) ↔
      Yields (fun a => post (.ok a)) (fun e => post (.error e)) attempt :=
  meets_outcome

/-- A call can give anything, and it can fail. -/
theorem yields_ofReply (hok : ∀ a, post a) (hfails : ∀ e, fails (.database e))
    (call : Session (Except DatabaseError α)) : Yields post fails (ofReply call) := by
  refine meets_ofReply.mpr (Session.meets_of_forall (fun _ _ => trivial) (fun reply _ => ?_) call
    ())
  cases reply with
  | ok a => exact hok a
  | error e => exact hfails e

theorem yields_execute {post : Nat → Prop} (hok : ∀ n, post n) (hfails : ∀ e, fails (.database e))
    (scope : Scope) (request : Request) : Yields post fails (execute scope request) :=
  yields_ofReply hok hfails _

theorem yields_batch {post : Unit → Prop} (hok : post ()) (hfails : ∀ e, fails (.database e))
    (scope : Scope) (request : Request) : Yields post fails (batch scope request) :=
  yields_ofReply (fun _ => hok) hfails _

theorem Yields.inTransaction {work : Attempt (Ending × α)} (hfails : ∀ e, fails (.database e))
    (h : Yields (fun r => post r.2) fails work) : Yields post fails (inTransaction work) := by
  refine yields_bind.mpr (yields_ofReply (fun _ => ?_) hfails _)
  refine yields_bind.mpr (yields_outcome.mpr (h.mono (fun r hr => ?_) fun e he => ?_))
  · obtain ⟨ending, a⟩ := r
    refine yields_bind.mpr ?_
    cases ending with
    | commit => exact yields_ofReply (fun _ => hr) hfails _
    | rollback => exact yields_ofReply (fun _ => hr) hfails _
  · exact yields_bind.mpr ⟨trivial, fun _ _ _ => he⟩

end Attempt
end SchemaMigration
