import SchemaMigration.Cycle.Attempt

/-!
# SchemaMigration.Proofs.Session.Protocol

What holds along every branch of a session, whatever it is answered.

* `Protocol` : the calls that may be made in a state, and the states that follow an answer.
* `Session.Meets` : every call is one that may be made, and a condition holds of the result and
  the state where the session is done.
* `Attempt.Meets` : the same, with one condition for results and one for errors.
* `Attempt.Keeps` : the same with an invariant, which holds at the end if it held at the start.

`Session.meets_bind` and `Attempt.meets_bind` take a composition apart, so that each function of a
cycle has one lemma about it, in terms of those of the functions that it calls.
-/

namespace SchemaMigration

/-- Which calls may be made in a state, and in which states an answer can leave. -/
structure Protocol (σ : Type) where
  allows : σ → Call → Prop
  answers : σ → (c : Call) → c.Reply → σ → Prop

/-- A call that is allowed where `inv` holds, and leaves `inv`. -/
def Protocol.Keeps {σ : Type} (p : Protocol σ) (inv : σ → Prop) (c : Call) : Prop :=
  ∀ s, inv s → p.allows s c ∧ ∀ reply t, p.answers s c reply t → inv t

/-- The beginning of a transaction leads from `outer` to `inner`, and the ends lead back. -/
structure Protocol.Brackets {σ : Type} (p : Protocol σ) (outer inner : σ → Prop) : Prop where
  begin : ∀ s, outer s → p.allows s .begin ∧ ∀ reply t, p.answers s .begin reply t →
    (reply = .ok () → inner t) ∧ ∀ e, reply = .error e → outer t
  commit : ∀ s, inner s → p.allows s .commit ∧ ∀ reply t, p.answers s .commit reply t → outer t
  rollback : ∀ s, inner s →
    p.allows s .rollback ∧ ∀ reply t, p.answers s .rollback reply t → outer t
  abandon : ∀ s, inner s → p.allows s .abandon ∧ ∀ reply t, p.answers s .abandon reply t → outer t

variable {σ α β : Type} {p : Protocol σ}

namespace Session

/-- All calls are allowed, and `post` holds at the end. -/
def Meets (p : Protocol σ) (post : α → σ → Prop) : Session α → σ → Prop
  | .done a, s => post a s
  | .call c next, s => p.allows s c ∧ ∀ reply t, p.answers s c reply t → (next reply).Meets p post t

theorem Meets.mono {post post' : α → σ → Prop} (h : ∀ a s, post a s → post' a s)
    {session : Session α} {s : σ} (hm : session.Meets p post s) : session.Meets p post' s := by
  induction session generalizing s with
  | done a => exact h a s hm
  | call c next ih => exact ⟨hm.1, fun reply t ht => ih reply (hm.2 reply t ht)⟩

theorem Meets.and {post post' : α → σ → Prop} {session : Session α} {s : σ}
    (h : session.Meets p post s) (h' : session.Meets p post' s) :
    session.Meets p (fun a t => post a t ∧ post' a t) s := by
  induction session generalizing s with
  | done a => exact ⟨h, h'⟩
  | call c next ih => exact ⟨h.1, fun reply t ht => ih reply (h.2 reply t ht) (h'.2 reply t ht)⟩

theorem meets_congr {post post' : α → σ → Prop} (h : ∀ a s, post a s ↔ post' a s)
    {session : Session α} {s : σ} : session.Meets p post s ↔ session.Meets p post' s :=
  ⟨Meets.mono fun a s => (h a s).mp, Meets.mono fun a s => (h a s).mpr⟩

/-- Where any call may be made, what always holds holds at the end. -/
theorem meets_of_forall {post : α → σ → Prop} (hallow : ∀ s c, p.allows s c)
    (h : ∀ a s, post a s) (session : Session α) (s : σ) : session.Meets p post s := by
  induction session generalizing s with
  | done a => exact h a s
  | call c next ih => exact ⟨hallow s c, fun reply t _ => ih reply t⟩

theorem meets_bind {post : β → σ → Prop} {session : Session α} {f : α → Session β} {s : σ} :
    (session >>= f).Meets p post s ↔ session.Meets p (fun a t => (f a).Meets p post t) s := by
  induction session generalizing s with
  | done a => exact Iff.rfl
  | call c next ih =>
    exact and_congr_right fun _ => forall_congr' fun reply => forall_congr' fun t =>
      imp_congr_right fun _ => ih reply

theorem meets_map {post : β → σ → Prop} {session : Session α} {f : α → β} {s : σ} :
    (f <$> session).Meets p post s ↔ session.Meets p (fun a t => post (f a) t) s := by
  rw [map_eq_pure_bind, meets_bind]
  exact Iff.rfl

end Session

namespace Attempt

/-- `post` holds of a result, `fails` of an error. -/
def Ends (post : α → σ → Prop) (fails : CycleError → σ → Prop) : Except CycleError α → σ → Prop
  | .ok a, s => post a s
  | .error e, s => fails e s

/-- All calls are allowed, and at the end `post` holds of a result or `fails` of an error. -/
def Meets (p : Protocol σ) (post : α → σ → Prop) (fails : CycleError → σ → Prop)
    (attempt : Attempt α) (s : σ) : Prop :=
  Session.Meets p (Ends post fails) attempt.run s

variable {post : α → σ → Prop} {fails : CycleError → σ → Prop} {s : σ}

theorem Meets.mono {post' : α → σ → Prop} {fails' : CycleError → σ → Prop} {attempt : Attempt α}
    (hp : ∀ a t, post a t → post' a t) (hf : ∀ e t, fails e t → fails' e t)
    (h : Meets p post fails attempt s) : Meets p post' fails' attempt s := by
  refine Session.Meets.mono (fun r t hr => ?_) h
  cases r with
  | ok a => exact hp a t hr
  | error e => exact hf e t hr

theorem meets_pure {a : α} : Meets p post fails (pure a) s ↔ post a s := Iff.rfl

theorem meets_throw {e : CycleError} : Meets p post fails (throw e) s ↔ fails e s := Iff.rfl

theorem meets_ofResult {r : Except CycleError α} :
    Meets p post fails (ofResult r) s ↔ Ends post fails r s := Iff.rfl

theorem meets_bind {post : β → σ → Prop} {attempt : Attempt α} {f : α → Attempt β} :
    Meets p post fails (attempt >>= f) s ↔
      Meets p (fun a t => Meets p post fails (f a) t) fails attempt s := by
  rw [Meets, ExceptT.run_bind, Session.meets_bind]
  refine Session.meets_congr fun r t => ?_
  cases r with
  | ok a => exact Iff.rfl
  | error e => exact Iff.rfl

theorem meets_lift {session : Session α} :
    Meets p post fails (ExceptT.lift session) s ↔ session.Meets p post s := by
  rw [Meets, ExceptT.run_lift, Session.meets_map]
  exact Iff.rfl

/-- The outcome of an attempt is a result in any case. -/
theorem meets_outcome {attempt : Attempt α} {post : Except CycleError α → σ → Prop} :
    Meets p post fails (outcome attempt) s ↔
      Meets p (fun a t => post (.ok a) t) (fun e t => post (.error e) t) attempt s := by
  rw [outcome, meets_lift, Meets]
  refine Session.meets_congr fun r t => ?_
  cases r with
  | ok a => exact Iff.rfl
  | error e => exact Iff.rfl

theorem meets_ofReply {call : Session (Except DatabaseError α)} :
    Meets p post fails (ofReply call) s ↔
      call.Meets p (fun r t => Ends post fails (r.mapError .database) t) s := by
  rw [ofReply, Meets, ExceptT.run_mk, Session.meets_map]

theorem meets_execute {scope : Scope} {request : Request} {post : Nat → σ → Prop} :
    Meets p post fails (execute scope request) s ↔
      p.allows s (.execute scope request) ∧ ∀ reply t,
        p.answers s (.execute scope request) reply t →
          Ends post fails (reply.mapError .database) t :=
  meets_ofReply

theorem meets_batch {scope : Scope} {request : Request} {post : Unit → σ → Prop} :
    Meets p post fails (batch scope request) s ↔
      p.allows s (.batch scope request) ∧ ∀ reply t, p.answers s (.batch scope request) reply t →
        Ends post fails (reply.mapError .database) t :=
  meets_ofReply

theorem meets_query {scope : Scope} {request : Request} {post : List Sql.Row → σ → Prop} :
    Meets p post fails (query scope request) s ↔
      p.allows s (.query scope request) ∧ ∀ reply t, p.answers s (.query scope request) reply t →
        Ends post fails (reply.mapError .database) t :=
  meets_ofReply

/-- The condition on a transaction: where its work succeeds the chosen ending follows, where it
fails the transaction is left. -/
theorem meets_inTransaction {work : Attempt (Ending × α)} :
    Meets p post fails (inTransaction work) s ↔
      p.allows s .begin ∧ ∀ reply t, p.answers s .begin reply t →
        Ends (fun _ t => Meets p
            (fun r t => Meets p (fun _ t => post r.2 t) fails r.1.finish t)
            (fun e t => p.allows t .abandon ∧ ∀ reply u, p.answers t .abandon reply u → fails e u)
            work t)
          fails (reply.mapError .database) t := by
  refine meets_bind.trans (meets_ofReply.trans ?_)
  refine and_congr_right fun _ => forall_congr' fun reply => forall_congr' fun t =>
    imp_congr_right fun _ => ?_
  cases reply with
  | error e => exact Iff.rfl
  | ok _ =>
    refine meets_bind.trans (meets_outcome.trans ?_)
    refine Session.meets_congr fun r u => ?_
    cases r with
    | error e => exact meets_bind.trans meets_lift
    | ok r => exact meets_bind

/-- All calls are allowed and `inv`, once it holds, holds at the end, whatever the outcome. -/
def Keeps (p : Protocol σ) (inv : σ → Prop) (attempt : Attempt α) : Prop :=
  ∀ s, inv s → Meets p (fun _ => inv) (fun _ => inv) attempt s

variable {inv : σ → Prop}

theorem ends_same {r : Except CycleError α} :
    Ends (fun _ => inv) (fun _ => inv) r s ↔ inv s := by
  cases r with
  | ok a => exact Iff.rfl
  | error e => exact Iff.rfl

theorem Keeps.session {attempt : Attempt α} (h : Keeps p inv attempt) {s : σ} (hs : inv s) :
    Session.Meets p (fun _ => inv) attempt.run s :=
  Session.Meets.mono (fun _ _ hr => ends_same.mp hr) (h s hs)

/-- An attempt keeps what every call keeps. -/
theorem keeps_of_calls (hcall : ∀ c, p.Keeps inv c) (attempt : Attempt α) :
    Keeps p inv attempt := by
  have hsession : ∀ (session : Session (Except CycleError α)) (s : σ), inv s →
      session.Meets p (Ends (fun _ => inv) fun _ => inv) s := by
    intro session
    induction session with
    | done r => exact fun s hs => ends_same.mpr hs
    | call c next ih =>
      refine fun s hs => ⟨(hcall c s hs).1, fun reply t ht => ?_⟩
      exact ih reply t ((hcall c s hs).2 reply t ht)
  exact hsession attempt.run

/-- Where any call may be made, an attempt keeps what every answer keeps. -/
theorem keeps_of_forall (hallow : ∀ s c, p.allows s c)
    (hstep : ∀ s c reply t, p.answers s c reply t → inv s → inv t) (attempt : Attempt α) :
    Keeps p inv attempt :=
  keeps_of_calls (fun c s hs => ⟨hallow s c, fun reply t ht => hstep s c reply t ht hs⟩) attempt

/-- What holds at the end and what is kept hold together. -/
theorem Meets.and_keeps {attempt : Attempt α} (h : Meets p post fails attempt s)
    (hk : Keeps p inv attempt) (hs : inv s) :
    Meets p (fun a t => post a t ∧ inv t) (fun e t => fails e t ∧ inv t) attempt s := by
  refine Session.Meets.mono (fun r t hr => ?_) (Session.Meets.and h (hk.session hs))
  cases r with
  | ok a => exact hr
  | error e => exact hr

theorem keeps_pure {a : α} : Keeps p inv (pure a) := fun _ hs => hs

theorem keeps_throw {e : CycleError} : Keeps p inv (throw e : Attempt α) := fun _ hs => hs

theorem keeps_ofResult {r : Except CycleError α} : Keeps p inv (ofResult r) := fun _ hs =>
  meets_ofResult.mpr (ends_same.mpr hs)

theorem Keeps.bind {attempt : Attempt α} {f : α → Attempt β} (h : Keeps p inv attempt)
    (hf : ∀ a, Keeps p inv (f a)) : Keeps p inv (attempt >>= f) := fun s hs =>
  meets_bind.mpr ((h s hs).mono (fun a t ht => hf a t ht) fun _ _ ht => ht)

theorem Keeps.outcome {attempt : Attempt α} (h : Keeps p inv attempt) :
    Keeps p inv attempt.outcome := fun s hs => meets_outcome.mpr (h s hs)

theorem keeps_execute {scope : Scope} {request : Request}
    (h : p.Keeps inv (.execute scope request)) : Keeps p inv (execute scope request) :=
  fun s hs => meets_execute.mpr
    ⟨(h s hs).1, fun reply t ht => ends_same.mpr ((h s hs).2 reply t ht)⟩

theorem keeps_batch {scope : Scope} {request : Request}
    (h : p.Keeps inv (.batch scope request)) : Keeps p inv (batch scope request) :=
  fun s hs => meets_batch.mpr
    ⟨(h s hs).1, fun reply t ht => ends_same.mpr ((h s hs).2 reply t ht)⟩

theorem keeps_query {scope : Scope} {request : Request}
    (h : p.Keeps inv (.query scope request)) : Keeps p inv (query scope request) :=
  fun s hs => meets_query.mpr
    ⟨(h s hs).1, fun reply t ht => ends_same.mpr ((h s hs).2 reply t ht)⟩

theorem keeps_sleep {milliseconds : Nat} (h : p.Keeps inv (.sleep milliseconds)) :
    Keeps p inv (Attempt.sleep milliseconds) := fun s hs => meets_lift.mpr (h s hs)

/-- Work that keeps `inner` inside a transaction keeps `outer` as a whole. -/
theorem Keeps.inTransaction {outer inner : σ → Prop} {work : Attempt (Ending × α)}
    (h : Keeps p inner work) (hb : p.Brackets outer inner) :
    Keeps p outer (Attempt.inTransaction work) := by
  intro s hs
  refine meets_inTransaction.mpr ⟨(hb.begin s hs).1, fun reply t ht => ?_⟩
  have hbegun := (hb.begin s hs).2 reply t ht
  cases reply with
  | error e => exact hbegun.2 e rfl
  | ok _ =>
    refine (h t (hbegun.1 rfl)).mono (fun r u hu => ?_) fun _ u hu => hb.abandon u hu
    obtain ⟨ending, a⟩ := r
    cases ending with
    | commit =>
      exact meets_ofReply.mpr
        ⟨(hb.commit u hu).1, fun r v hv => ends_same.mpr ((hb.commit u hu).2 r v hv)⟩
    | rollback =>
      exact meets_ofReply.mpr
        ⟨(hb.rollback u hu).1, fun r v hv => ends_same.mpr ((hb.rollback u hu).2 r v hv)⟩

end Attempt
end SchemaMigration
