import SchemaMigration.Proofs.Session.Run

/-!
# SchemaMigration.Proofs.Session.Marked

Sessions with marks: events that the calls alone do not tell, noted in the state.

* `Marked` : a session with marks between its calls. `Marked.erase` forgets the marks.
* `MarkedAttempt` : a marked session that can fail.
* `Marked.Runs` : a run. It ends where the session is done, or it is cut off at a call, before or
  while the call is served.
* `Marked.exists_runs_of_erase` : a run without the marks is one with them.
* `MarkedAttempt.Meets` : what holds along every branch, as for attempts without marks.

`Marked.Meets.run` : what holds of a run of a session of which it holds along every branch.
-/

namespace SchemaMigration

inductive Marked (μ α : Type) where
  | done (result : α)
  | call (c : Call) (next : c.Reply → Marked μ α)
  | mark (m : μ) (rest : Marked μ α)

variable {σ μ α β : Type} {p : Protocol σ} {note : μ → σ → σ}

namespace Marked

/-- Go on with `f` where a session is done. -/
def bind (marked : Marked μ α) (f : α → Marked μ β) : Marked μ β :=
  match marked with
  | .done a => f a
  | .call c next => .call c fun reply => (next reply).bind f
  | .mark m rest => .mark m (rest.bind f)

instance : Monad (Marked μ) where
  pure := .done
  bind := Marked.bind

def erase : Marked μ α → Session α
  | .done a => .done a
  | .call c next => .call c fun reply => (next reply).erase
  | .mark _ rest => rest.erase

def lift : Session α → Marked μ α
  | .done a => .done a
  | .call c next => .call c fun reply => lift (next reply)

theorem erase_bind (marked : Marked μ α) (f : α → Marked μ β) :
    (marked >>= f).erase = marked.erase >>= fun a => (f a).erase := by
  induction marked with
  | done a => rfl
  | call c next ih => exact congrArg (Session.call c) (funext ih)
  | mark m rest ih => exact ih

theorem erase_lift (session : Session α) : (lift session : Marked μ α).erase = session := by
  induction session with
  | done a => rfl
  | call c next ih => exact congrArg (Session.call c) (funext ih)

/-- All calls are allowed, the marks are noted in the state, and `post` holds at the end. -/
def Meets (p : Protocol σ) (note : μ → σ → σ) (post : α → σ → Prop) : Marked μ α → σ → Prop
  | .done a, s => post a s
  | .call c next, s =>
    p.allows s c ∧ ∀ reply t, p.answers s c reply t → (next reply).Meets p note post t
  | .mark m rest, s => rest.Meets p note post (note m s)

theorem Meets.mono {post post' : α → σ → Prop} (h : ∀ a s, post a s → post' a s)
    {marked : Marked μ α} {s : σ} (hm : marked.Meets p note post s) :
    marked.Meets p note post' s := by
  induction marked generalizing s with
  | done a => exact h a s hm
  | call c next ih => exact ⟨hm.1, fun reply t ht => ih reply (hm.2 reply t ht)⟩
  | mark m rest ih => exact ih hm

theorem meets_congr {post post' : α → σ → Prop} (h : ∀ a s, post a s ↔ post' a s)
    {marked : Marked μ α} {s : σ} : marked.Meets p note post s ↔ marked.Meets p note post' s :=
  ⟨Meets.mono fun a s => (h a s).mp, Meets.mono fun a s => (h a s).mpr⟩

theorem meets_bind {post : β → σ → Prop} {marked : Marked μ α} {f : α → Marked μ β} {s : σ} :
    (marked >>= f).Meets p note post s ↔
      marked.Meets p note (fun a t => (f a).Meets p note post t) s := by
  induction marked generalizing s with
  | done a => exact Iff.rfl
  | call c next ih =>
    exact and_congr_right fun _ => forall_congr' fun reply => forall_congr' fun t =>
      imp_congr_right fun _ => ih reply
  | mark m rest ih => exact ih

theorem meets_lift {post : α → σ → Prop} {session : Session α} {s : σ} :
    (lift session).Meets p note post s ↔ session.Meets p post s := by
  induction session generalizing s with
  | done a => exact Iff.rfl
  | call c next ih =>
    exact and_congr_right fun _ => forall_congr' fun reply => forall_congr' fun t =>
      imp_congr_right fun _ => ih reply

/-- A run of a marked session with the state at its end, and its result unless it was cut off.
It can only be cut off at the calls that satisfy `cut`. -/
inductive Runs (answers : σ → (c : Call) → c.Reply → σ → Prop) (note : μ → σ → σ)
    (cut : Call → Prop) : Marked μ α → σ → Option α → σ → Prop where
  | done (a : α) (s : σ) : Runs answers note cut (.done a) s (some a) s
  | call {c : Call} {next : c.Reply → Marked μ α} {reply : c.Reply} {s t u : σ} {r : Option α}
      (h : answers s c reply t) (hr : Runs answers note cut (next reply) t r u) :
      Runs answers note cut (.call c next) s r u
  | mark {m : μ} {rest : Marked μ α} {s u : σ} {r : Option α}
      (hr : Runs answers note cut rest (note m s) r u) :
      Runs answers note cut (.mark m rest) s r u
  | before {c : Call} {next : c.Reply → Marked μ α} {s : σ} (h : cut c) :
      Runs answers note cut (.call c next) s none s
  | during {c : Call} {next : c.Reply → Marked μ α} {reply : c.Reply} {s t : σ} (h : cut c)
      (hr : answers s c reply t) : Runs answers note cut (.call c next) s none t

theorem Runs.bind {answers : σ → (c : Call) → c.Reply → σ → Prop} {cut : Call → Prop}
    {marked : Marked μ α} {f : α → Marked μ β} {s t u : σ} {a : α} {r : Option β}
    (h : Runs answers note cut marked s (some a) t) (hf : Runs answers note cut (f a) t r u) :
    Runs answers note cut (marked >>= f) s r u := by
  generalize ho : some a = o at h
  induction h with
  | done b s => cases ho; exact hf
  | call hs _ ih => exact .call hs (ih hf ho)
  | mark _ ih => exact .mark (ih hf ho)
  | before => cases ho
  | during => cases ho

/-- A run of a session without its marks, on a part of the state that the marks do not touch, is a
run of the session with them. -/
theorem exists_runs_of_erase {τ : Type} {answers : σ → (c : Call) → c.Reply → σ → Prop}
    {answers' : τ → (c : Call) → c.Reply → τ → Prop} {view : σ → τ} {cut : Call → Prop}
    (hanswer : ∀ s c reply t', answers' (view s) c reply t' →
      ∃ t, answers s c reply t ∧ view t = t')
    (hnote : ∀ m s, view (note m s) = view s) {marked : Marked μ α} {s : σ} {a : α} {t' : τ}
    (h : Session.Runs answers' marked.erase (view s) (some a) t') :
    ∃ t, Runs answers note cut marked s (some a) t ∧ view t = t' := by
  induction marked generalizing s with
  | done b =>
    cases h
    exact ⟨s, .done _ s, rfl⟩
  | call c next ih =>
    cases h with
    | call ha hr =>
      obtain ⟨u, hu, rfl⟩ := hanswer s c _ _ ha
      obtain ⟨t, ht, rfl⟩ := ih _ hr
      exact ⟨t, .call hu ht, rfl⟩
  | mark m rest ih =>
    have hrest : Session.Runs answers' rest.erase (view (note m s)) (some a) t' := by
      rw [hnote]
      exact h
    obtain ⟨t, ht, rfl⟩ := ih hrest
    exact ⟨t, .mark ht, rfl⟩

/-- A run that ends meets the condition at the end. A run that is cut off has come to a call that
was allowed. -/
theorem Meets.run {cut : Call → Prop} {post : α → σ → Prop} {marked : Marked μ α} {s t : σ}
    {r : Option α} (h : marked.Meets p note post s) (hr : Runs p.answers note cut marked s r t) :
    (∃ a, r = some a ∧ post a t) ∨
      r = none ∧ ∃ c u, cut c ∧ p.allows u c ∧ (t = u ∨ ∃ reply, p.answers u c reply t) := by
  induction hr with
  | done a s => exact .inl ⟨a, rfl, h⟩
  | call hs _ ih => exact ih (h.2 _ _ hs)
  | mark _ ih => exact ih h
  | @before c next s hc => exact .inr ⟨rfl, c, s, hc, h.1, .inl rfl⟩
  | @during c next reply s t hc hs => exact .inr ⟨rfl, c, s, hc, h.1, .inr ⟨reply, hs⟩⟩

end Marked

/-- A marked session that ends with a result or with an error. -/
abbrev MarkedAttempt (μ : Type) := ExceptT CycleError (Marked μ)

namespace MarkedAttempt

def erase (attempt : MarkedAttempt μ α) : Attempt α := ExceptT.mk attempt.run.erase

def ofAttempt (attempt : Attempt α) : MarkedAttempt μ α := ExceptT.mk (Marked.lift attempt.run)

def mark (m : μ) : MarkedAttempt μ Unit := ExceptT.mk (.mark m (.done (.ok ())))

/-- The result of an attempt, whether it fails or not. -/
def outcome (attempt : MarkedAttempt μ α) : MarkedAttempt μ (Except CycleError α) :=
  ExceptT.mk (attempt.run >>= fun r => pure (.ok r))

theorem erase_ofAttempt (attempt : Attempt α) :
    erase (ofAttempt attempt : MarkedAttempt μ α) = attempt :=
  Marked.erase_lift _

theorem erase_bind (attempt : MarkedAttempt μ α) (f : α → MarkedAttempt μ β) :
    erase (attempt >>= f) = erase attempt >>= fun a => erase (f a) := by
  refine (Marked.erase_bind _ _).trans (bind_congr fun r => ?_)
  cases r with
  | ok a => rfl
  | error e => rfl

theorem erase_mark (m : μ) : erase (mark m) = pure () := rfl

theorem erase_outcome (attempt : MarkedAttempt μ α) :
    erase (outcome attempt) = (erase attempt).outcome := by
  refine (Marked.erase_bind _ _).trans ?_
  exact (map_eq_pure_bind _ _).symm

/-- As for attempts, with the marks noted in the state. -/
def Meets (p : Protocol σ) (note : μ → σ → σ) (post : α → σ → Prop)
    (fails : CycleError → σ → Prop) (attempt : MarkedAttempt μ α) (s : σ) : Prop :=
  Marked.Meets p note (Attempt.Ends post fails) attempt.run s

variable {post : α → σ → Prop} {fails : CycleError → σ → Prop} {s : σ}

theorem Meets.mono {post' : α → σ → Prop} {fails' : CycleError → σ → Prop}
    {attempt : MarkedAttempt μ α} (hp : ∀ a t, post a t → post' a t)
    (hf : ∀ e t, fails e t → fails' e t) (h : Meets p note post fails attempt s) :
    Meets p note post' fails' attempt s := by
  refine Marked.Meets.mono (fun r t hr => ?_) h
  cases r with
  | ok a => exact hp a t hr
  | error e => exact hf e t hr

theorem meets_mark {post : Unit → σ → Prop} {m : μ} :
    Meets p note post fails (mark m) s ↔ post () (note m s) := Iff.rfl

theorem meets_ofAttempt {attempt : Attempt α} :
    Meets p note post fails (ofAttempt attempt) s ↔ Attempt.Meets p post fails attempt s :=
  Marked.meets_lift

theorem meets_bind {post : β → σ → Prop} {attempt : MarkedAttempt μ α}
    {f : α → MarkedAttempt μ β} :
    Meets p note post fails (attempt >>= f) s ↔
      Meets p note (fun a t => Meets p note post fails (f a) t) fails attempt s := by
  refine Marked.meets_bind.trans (Marked.meets_congr fun r t => ?_)
  cases r with
  | ok a => exact Iff.rfl
  | error e => exact Iff.rfl

theorem meets_ofAttempt_bind {post : β → σ → Prop} {attempt : Attempt α}
    {f : α → MarkedAttempt μ β} :
    Meets p note post fails (ofAttempt attempt >>= f) s ↔
      Attempt.Meets p (fun a t => Meets p note post fails (f a) t) fails attempt s :=
  meets_bind.trans meets_ofAttempt

theorem meets_outcome {attempt : MarkedAttempt μ α} {post : Except CycleError α → σ → Prop} :
    Meets p note post fails (outcome attempt) s ↔
      Meets p note (fun a t => post (.ok a) t) (fun e t => post (.error e) t) attempt s := by
  refine Marked.meets_bind.trans (Marked.meets_congr fun r t => ?_)
  cases r with
  | ok a => exact Iff.rfl
  | error e => exact Iff.rfl

end MarkedAttempt
end SchemaMigration
