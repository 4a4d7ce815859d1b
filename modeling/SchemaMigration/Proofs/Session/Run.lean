import SchemaMigration.Proofs.Session.Protocol

/-!
# SchemaMigration.Proofs.Session.Run

Runs of sessions, each of which ends or is cut off at some point.

* `Session.Runs` : a run, with the result unless it is cut off, and the state where it stops.
* `Session.Passes` : a run with all states on its way.
* `Session.Runs.bind`, `Session.Runs.cut_bind` : runs of a composition, put together.
* `Session.Runs.of_bind`, `Attempt.cases_of_runs_bind` : a run of a composition, taken apart.
* `Session.Meets.of_runs` : what holds along every branch holds at the end of a run.
* `Session.Meets.stays` : what holds at every call and at the end holds wherever a run stops.
* `Session.Meets.completes` : if every call that is allowed can be answered, some run ends.
* `Session.Meets.pairwise` : what each answer leads along relates all states that a run passes.
-/

namespace SchemaMigration

variable {σ α β : Type} {answers : σ → (c : Call) → c.Reply → σ → Prop} {p : Protocol σ}

namespace Session

inductive Runs (answers : σ → (c : Call) → c.Reply → σ → Prop) :
    Session α → σ → Option α → σ → Prop where
  | done (a : α) (s : σ) : Runs answers (.done a) s (some a) s
  | cut (session : Session α) (s : σ) : Runs answers session s none s
  | call {c : Call} {next : c.Reply → Session α} {reply : c.Reply} {s t u : σ} {r : Option α}
      (h : answers s c reply t) (hr : Runs answers (next reply) t r u) :
      Runs answers (.call c next) s r u

/-- A run with the states that it passes, from the first one to the last one. -/
inductive Passes (answers : σ → (c : Call) → c.Reply → σ → Prop) :
    Session α → σ → List σ → Option α → σ → Prop where
  | done (a : α) (s : σ) : Passes answers (.done a) s [s] (some a) s
  | cut (session : Session α) (s : σ) : Passes answers session s [s] none s
  | call {c : Call} {next : c.Reply → Session α} {reply : c.Reply} {s t u : σ} {r : Option α}
      {states : List σ} (h : answers s c reply t) (hr : Passes answers (next reply) t states r u) :
      Passes answers (.call c next) s (s :: states) r u

theorem Passes.runs {session : Session α} {s t : σ} {states : List σ} {r : Option α}
    (h : Passes answers session s states r t) : Runs answers session s r t := by
  induction h with
  | done a s => exact .done a s
  | cut session s => exact .cut session s
  | call hs _ ih => exact .call hs ih

theorem Runs.passes {session : Session α} {s t : σ} {r : Option α}
    (h : Runs answers session s r t) : ∃ states, Passes answers session s states r t := by
  induction h with
  | done a s => exact ⟨_, .done a s⟩
  | cut session s => exact ⟨_, .cut session s⟩
  | call hs _ ih =>
    obtain ⟨states, hr⟩ := ih
    exact ⟨_, .call hs hr⟩

theorem Passes.end_mem {session : Session α} {s t : σ} {states : List σ} {r : Option α}
    (h : Passes answers session s states r t) : t ∈ states := by
  induction h with
  | done a s => exact List.mem_singleton_self s
  | cut session s => exact List.mem_singleton_self s
  | call _ _ ih => exact List.mem_cons_of_mem _ ih

theorem Runs.bind {session : Session α} {f : α → Session β} {s t u : σ} {a : α} {r : Option β}
    (h : Runs answers session s (some a) t) (hf : Runs answers (f a) t r u) :
    Runs answers (session >>= f) s r u := by
  generalize ho : some a = o at h
  induction h with
  | done b s => cases ho; exact hf
  | cut => cases ho
  | call hs _ ih => exact .call hs (ih hf ho)

/-- A composition may be cut off in its first part. -/
theorem Runs.cut_bind {session : Session α} {f : α → Session β} {s t : σ}
    (h : Runs answers session s none t) : Runs answers (session >>= f) s none t := by
  generalize hr : none = r at h
  induction h with
  | done a s => cases hr
  | cut session s => exact .cut _ s
  | call hs _ ih => exact .call hs (ih hr)

/-- A run of a composition that ends is a run of the first part and then one of the second. -/
theorem Runs.of_bind {session : Session α} {f : α → Session β} {s u : σ} {b : β}
    (h : Runs answers (session >>= f) s (some b) u) :
    ∃ a t, Runs answers session s (some a) t ∧ Runs answers (f a) t (some b) u := by
  induction session generalizing s with
  | done a => exact ⟨a, s, .done a s, h⟩
  | call c next ih =>
    cases h with
    | call hs hr =>
      obtain ⟨a, t, hfirst, hrest⟩ := ih _ hr
      exact ⟨a, t, .call hs hfirst, hrest⟩

theorem Runs.of_send {c : Call} {s t : σ} {reply : c.Reply}
    (h : Runs answers (send c) s (some reply) t) : answers s c reply t := by
  cases h with
  | call hs hr =>
    cases hr
    exact hs

theorem Runs.mono {answers' : σ → (c : Call) → c.Reply → σ → Prop}
    (hsub : ∀ s c reply t, answers s c reply t → answers' s c reply t) {session : Session α}
    {s t : σ} {r : Option α} (h : Runs answers session s r t) : Runs answers' session s r t := by
  induction h with
  | done a s => exact .done a s
  | cut session s => exact .cut session s
  | call hs _ ih => exact .call (hsub _ _ _ _ hs) ih

/-- What every answer keeps holds wherever a run stops. -/
theorem Runs.inv {inv : σ → Prop} (hstep : ∀ s c reply t, answers s c reply t → inv s → inv t)
    {session : Session α} {s t : σ} {r : Option α} (h : Runs answers session s r t) (hs : inv s) :
    inv t := by
  induction h with
  | done a s => exact hs
  | cut session s => exact hs
  | call ha _ ih => exact ih (hstep _ _ _ _ ha hs)

variable {post : α → σ → Prop} {session : Session α} {s t : σ}

theorem Meets.of_runs {a : α} (h : session.Meets p post s)
    (hr : Runs p.answers session s (some a) t) : post a t := by
  generalize ho : some a = o at hr
  induction hr with
  | done b s => cases ho; exact h
  | cut => cases ho
  | call hs _ ih => exact ih (h.2 _ _ hs) ho

theorem Meets.stays {inv : σ → Prop} {r : Option α} (h : session.Meets p post s)
    (hallow : ∀ s c, p.allows s c → inv s) (hend : ∀ a s, post a s → inv s)
    (hr : Runs p.answers session s r t) : inv t := by
  induction hr with
  | done a s => exact hend a s h
  | call hs _ ih => exact ih (h.2 _ _ hs)
  | cut session s =>
    cases session with
    | done a => exact hend a s h
    | call c next => exact hallow s c h.1

/-- A preorder along which every answer leads relates the states that a run passes. -/
theorem Meets.pairwise {rel : σ → σ → Prop} {states : List σ} {r : Option α}
    (h : session.Meets p post s) (hrefl : ∀ s, rel s s)
    (htrans : ∀ s t u, rel s t → rel t u → rel s u)
    (hstep : ∀ s c, p.allows s c → ∀ reply t, p.answers s c reply t → rel s t)
    (hr : Passes p.answers session s states r t) :
    states.Pairwise rel ∧ (∀ u ∈ states, rel s u) ∧ ∀ u ∈ states, rel u t := by
  have hsingle : ∀ s : σ, [s].Pairwise rel ∧ (∀ u ∈ [s], rel s u) ∧ ∀ u ∈ [s], rel u s := by
    intro s
    simp [hrefl]
  induction hr with
  | done a s => exact hsingle s
  | cut session s => exact hsingle s
  | @call c next reply s u t r states hs hnext ih =>
    obtain ⟨hpairs, hfirst, hlast⟩ := ih (h.2 _ _ hs)
    have hsu : rel s u := hstep s c h.1 reply u hs
    have hrest : ∀ v ∈ states, rel s v := fun v hv => htrans s u v hsu (hfirst v hv)
    refine ⟨List.pairwise_cons.mpr ⟨hrest, hpairs⟩, ?_, ?_⟩
    · rw [List.forall_mem_cons]
      exact ⟨hrefl s, hrest⟩
    · rw [List.forall_mem_cons]
      exact ⟨hrest t hnext.end_mem, hlast⟩

theorem Meets.completes (h : session.Meets p post s)
    (hserved : ∀ s c, p.allows s c → ∃ reply t, p.answers s c reply t) :
    ∃ a t, Runs p.answers session s (some a) t ∧ post a t := by
  induction session generalizing s with
  | done a => exact ⟨a, s, .done a s, h⟩
  | call c next ih =>
    obtain ⟨reply, t, hanswer⟩ := hserved s c h.1
    obtain ⟨a, u, hr, hpost⟩ := ih reply (h.2 reply t hanswer)
    exact ⟨a, u, .call hanswer hr, hpost⟩

end Session

namespace Attempt

variable {s t u : σ}

theorem runs_bind {attempt : Attempt α} {f : α → Attempt β} {a : α}
    {r : Option (Except CycleError β)} (h : Session.Runs answers attempt.run s (some (.ok a)) t)
    (hf : Session.Runs answers (f a).run t r u) : Session.Runs answers (attempt >>= f).run s r u :=
  Session.Runs.bind h hf

theorem runs_outcome {attempt : Attempt α} {r : Except CycleError α}
    (h : Session.Runs answers attempt.run s (some r) t) :
    Session.Runs answers (outcome attempt).run s (some (.ok r)) t :=
  Session.Runs.bind h (.done _ _)

/-- A composition fails in its first part, or goes on with what came of that. -/
theorem cases_of_runs_bind {attempt : Attempt α} {f : α → Attempt β} {result : Except CycleError β}
    (h : Session.Runs answers (attempt >>= f).run s (some result) u) :
    (∃ a t, Session.Runs answers attempt.run s (some (.ok a)) t ∧
      Session.Runs answers (f a).run t (some result) u) ∨
    ∃ e, result = .error e ∧ Session.Runs answers attempt.run s (some (.error e)) u := by
  rw [ExceptT.run_bind] at h
  obtain ⟨r, t, hfirst, hrest⟩ := h.of_bind
  cases r with
  | ok a => exact .inl ⟨a, t, hfirst, hrest⟩
  | error e =>
    cases hrest
    exact .inr ⟨e, rfl, hfirst⟩

theorem cases_of_runs_ofResult_bind {r : Except CycleError α} {f : α → Attempt β}
    {result : Except CycleError β}
    (h : Session.Runs answers (ofResult r >>= f).run s (some result) u) :
    (∃ a, r = .ok a ∧ Session.Runs answers (f a).run s (some result) u) ∨
    ∃ e, r = .error e ∧ result = .error e ∧ u = s := by
  cases r with
  | ok a => exact .inl ⟨a, rfl, h⟩
  | error e =>
    cases h
    exact .inr ⟨e, rfl, rfl, rfl⟩

theorem of_runs_outcome {attempt : Attempt α} {result : Except CycleError (Except CycleError α)}
    (h : Session.Runs answers (outcome attempt).run s (some result) u) :
    ∃ r, result = .ok r ∧ Session.Runs answers attempt.run s (some r) u := by
  rw [outcome, ExceptT.run_lift, map_eq_pure_bind] at h
  obtain ⟨r, t, hfirst, hrest⟩ := h.of_bind
  cases hrest
  exact ⟨r, rfl, hfirst⟩

theorem of_runs_ofReply {call : Session (Except DatabaseError α)} {result : Except CycleError α}
    (h : Session.Runs answers (ofReply call).run s (some result) u) :
    ∃ reply, result = reply.mapError .database ∧ Session.Runs answers call s (some reply) u := by
  rw [ofReply, ExceptT.run_mk, map_eq_pure_bind] at h
  obtain ⟨reply, t, hcall, hrest⟩ := h.of_bind
  cases hrest
  exact ⟨reply, rfl, hcall⟩

theorem of_runs_execute {scope : Scope} {request : Request} {result : Except CycleError Nat}
    (h : Session.Runs answers (execute scope request).run s (some result) u) :
    ∃ reply, result = reply.mapError .database ∧ answers s (.execute scope request) reply u := by
  obtain ⟨reply, hresult, hcall⟩ := of_runs_ofReply h
  exact ⟨reply, hresult, hcall.of_send⟩

theorem Meets.of_runs {post : α → σ → Prop} {fails : CycleError → σ → Prop} {attempt : Attempt α}
    {result : Except CycleError α} (h : Meets p post fails attempt s)
    (hr : Session.Runs p.answers attempt.run s (some result) u) : Ends post fails result u :=
  Session.Meets.of_runs h hr

theorem Keeps.of_runs {inv : σ → Prop} {attempt : Attempt α} {result : Except CycleError α}
    (h : Keeps p inv attempt) (hr : Session.Runs p.answers attempt.run s (some result) u)
    (hs : inv s) : inv u :=
  ends_same.mp ((h s hs).of_runs hr)

end Attempt
end SchemaMigration
