import SchemaMigration.Proofs.Database.Isolation
import SchemaMigration.Proofs.Session.Transcript

/-!
# SchemaMigration.Proofs.Database.Dialogue

A session on a database with transactions, with a record of what is said on both sides.

* `noting` : answers with the transcript beside the state.
* `dialogue` : the same as a protocol; `Attempt.Meets.run_noting` : what holds along every branch
  under it holds at the end of the run.
* `Link.amid` : a database that has other users too, who can change it while the session sleeps.
* `Link.Idle`, `Link.Busy`, `Link.Broken` : the database outside a transaction of the session,
  inside one, and inside one that is not to be used any more.
* `At` : a condition on the contents and the transcript, in one of these.
* `meets_inTransaction_at` : a transaction, in terms of what its work makes of the contents.
-/

namespace SchemaMigration

open Sql Database Isolation Attempt

section Noting

variable {σ α : Type} {answer : (c : Call) → σ → c.Reply × σ}

/-- Answer a call and write it down with the reply. -/
def noting (answer : (c : Call) → σ → c.Reply × σ) (c : Call) (s : σ × List Exchange) :
    c.Reply × σ × List Exchange :=
  let (reply, t) := answer c s.1
  (reply, t, s.2 ++ [⟨c, reply⟩])

/-- Any call may be made, and there is one answer to it. -/
def dialogue (answer : (c : Call) → σ → c.Reply × σ) : Protocol (σ × List Exchange) where
  allows _ _ := True
  answers := noted fun s c reply t => answer c s = (reply, t)

theorem Session.Meets.run_noting {post : α → σ × List Exchange → Prop} {session : Session α}
    {s : σ × List Exchange} (h : session.Meets (dialogue answer) post s) :
    post (session.run (noting answer) s).1 (session.run (noting answer) s).2 := by
  induction session generalizing s with
  | done a => exact h
  | call c next ih => exact ih _ (h.2 _ _ ⟨rfl, rfl⟩)

theorem Attempt.Meets.run_noting {p : Except CycleError α → σ × List Exchange → Prop}
    {attempt : Attempt α} {s : σ × List Exchange}
    (h : Meets (dialogue answer) (fun a => p (.ok a)) (fun e => p (.error e)) attempt s) :
    p (attempt.run.run (noting answer) s).1 (attempt.run.run (noting answer) s).2 := by
  have hrun := Session.Meets.run_noting h
  cases hr : (attempt.run.run (noting answer) s).1 with
  | ok a =>
    rw [hr] at hrun
    exact hrun
  | error e =>
    rw [hr] at hrun
    exact hrun

end Noting

variable {δ γ α : Type}

namespace Database

namespace Link

/-- No transaction of the session is open, and the contents are `d`. -/
structure Idle (v : View δ γ) (others : Nat → Option γ) (d : γ) (link : Link δ) : Prop where
  transaction : link.transaction = none
  quiet : v.Quiet d others link.database

/-- The session has a transaction on connection `n`, which sees `draft`. -/
structure Busy (v : View δ γ) (n : Nat) (d : γ) (others : Nat → Option γ) (draft : γ)
    (link : Link δ) : Prop where
  transaction : link.transaction = some n
  within : v.Open n (some draft) d others link.database

/-- The session is still to leave a transaction on connection `n`, which last saw some draft. -/
structure Broken (v : View δ γ) (n : Nat) (d : γ) (others : Nat → Option γ) (_draft : γ)
    (link : Link δ) : Prop where
  transaction : link.transaction = some n
  spoilt : v.Spoilt n d others link.database

/-- Answer a call, on a database that other users change while the session sleeps. -/
def amid [Connections δ] (meanwhile : δ → δ) (dialect : Dialect) (schema : String) :
    (c : Call) → Link δ → c.Reply × Link δ
  | .sleep _, link => ((), { link with database := meanwhile link.database })
  | c, link => Link.answer dialect schema c link

theorem amid_id [Connections δ] (dialect : Dialect) (schema : String) :
    (amid id dialect schema : (c : Call) → Link δ → c.Reply × Link δ) =
      Link.answer dialect schema := by
  funext c link
  cases c <;> rfl

end Link

/-- A call on the database that can fail, in terms of where it leads. -/
theorem Leads.ends {outcome : Except DatabaseError α × δ} {transaction : Option Nat}
    {good : α → δ → Prop} {bad : δ → Prop} {post : α → Link δ × List Exchange → Prop}
    {fails : CycleError → Link δ × List Exchange → Prop} {reply : Except DatabaseError α}
    {link : Link δ} (h : Leads outcome good bad) (said : Except DatabaseError α → List Exchange)
    (ha : (outcome.1, Link.mk outcome.2 transaction) = (reply, link))
    (hgood : ∀ a db, good a db → post a (⟨db, transaction⟩, said (.ok a)))
    (hbad : ∀ e db, bad db → fails (.database e) (⟨db, transaction⟩, said (.error e))) :
    Ends post fails (reply.mapError .database) (link, said reply) := by
  obtain ⟨result, db⟩ := outcome
  cases ha
  cases result with
  | ok a => exact hgood a db h
  | error e => exact hbad e db h

end Database

/-- The database is in a state of a kind, and a condition holds of what is seen there and of the
transcript. -/
def At (kind : γ → Link δ → Prop) (p : α → γ → List Exchange → Prop) (a : α)
    (s : Link δ × List Exchange) : Prop :=
  ∃ d, kind d s.1 ∧ p a d s.2

variable [Connections δ] {A : Isolation δ γ} {n : Nat} {d draft : γ} {others : Nat → Option γ}
  {link : Link δ} {calls : List Exchange} {meanwhile : δ → δ} {dialect : Dialect}
  {schema : String}

/-- A transaction. What its work makes of the contents takes effect when it is committed, and in
no other case. -/
theorem meets_inTransaction_at {work : Attempt (Ending × α)}
    (good : Ending × α → γ → List Exchange → Prop) (bad : CycleError → γ → List Exchange → Prop)
    {post : α → γ → List Exchange → Prop} {fails : CycleError → γ → List Exchange → Prop}
    (h : link.Idle A.toView others d)
    (hbegin : ∀ e, fails (.database e) d (calls ++ [⟨.begin, .error e⟩]))
    (hwork : ∀ n link, link.Busy A.toView n d others d →
      Meets (dialogue (Link.amid meanwhile dialect schema))
        (At (Link.Busy A.toView n d others) good) (At (Link.Broken A.toView n d others) bad)
        work (link, calls ++ [⟨.begin, .ok ()⟩]))
    (hcommit : ∀ a draft calls', good (.commit, a) draft calls' →
      post a draft (calls' ++ [⟨.commit, .ok ()⟩]) ∧
        ∀ e, fails (.database e) d (calls' ++ [⟨.commit, .error e⟩]))
    (hrollback : ∀ a draft calls', good (.rollback, a) draft calls' →
      post a d (calls' ++ [⟨.rollback, .ok ()⟩]) ∧
        ∀ e, fails (.database e) d (calls' ++ [⟨.rollback, .error e⟩]))
    (hbad : ∀ e draft calls', bad e draft calls' → fails e d (calls' ++ [⟨.abandon, ()⟩])) :
    Meets (dialogue (Link.amid meanwhile dialect schema)) (At (Link.Idle A.toView others) post)
      (At (Link.Idle A.toView others) fails) (inTransaction work) (link, calls) := by
  obtain ⟨db, transaction⟩ := link
  obtain ⟨rfl, hquiet⟩ := h
  refine meets_inTransaction.mpr ⟨trivial, ?_⟩
  rintro reply ⟨link, _⟩ ⟨ha, rfl⟩
  have hbegun := open_begin hquiet
  simp only [Link.amid, Link.answer] at ha
  cases hb : Backend.begin db with
  | mk begun db₁ =>
    rw [hb] at ha hbegun
    cases begun with
    | error e =>
      cases ha
      exact ⟨d, ⟨rfl, hbegun⟩, hbegin e⟩
    | ok n =>
      cases ha
      refine (hwork n ⟨db₁, some n⟩ ⟨rfl, hbegun⟩).mono ?_ ?_
      · rintro ⟨ending, a⟩ ⟨⟨db₂, _⟩, calls'⟩ ⟨draft, ⟨rfl, hopen⟩, hgood⟩
        cases ending with
        | commit =>
          refine meets_ofReply.mpr ⟨trivial, ?_⟩
          rintro reply ⟨link, _⟩ ⟨ha, rfl⟩
          refine (quiet_commit hopen).ends (fun reply => calls' ++ [⟨.commit, reply⟩]) ha ?_ ?_
          · exact fun _ db₃ hquiet => ⟨draft, ⟨rfl, hquiet⟩, (hcommit a draft calls' hgood).1⟩
          · exact fun e db₃ hquiet => ⟨d, ⟨rfl, hquiet⟩, (hcommit a draft calls' hgood).2 e⟩
        | rollback =>
          refine meets_ofReply.mpr ⟨trivial, ?_⟩
          rintro reply ⟨link, _⟩ ⟨ha, rfl⟩
          refine (quiet_rollback ⟨_, hopen⟩).ends (fun reply => calls' ++ [⟨.rollback, reply⟩]) ha
            ?_ ?_
          · exact fun _ db₃ hquiet => ⟨d, ⟨rfl, hquiet⟩, (hrollback a draft calls' hgood).1⟩
          · exact fun e db₃ hquiet => ⟨d, ⟨rfl, hquiet⟩, (hrollback a draft calls' hgood).2 e⟩
      · rintro e ⟨⟨db₂, _⟩, calls'⟩ ⟨draft, ⟨rfl, hspoilt⟩, hbad'⟩
        refine ⟨trivial, ?_⟩
        rintro reply ⟨link, _⟩ ⟨ha, rfl⟩
        cases ha
        exact ⟨d, ⟨rfl, quiet_abandon hspoilt⟩, hbad e draft calls' hbad'⟩

end SchemaMigration
