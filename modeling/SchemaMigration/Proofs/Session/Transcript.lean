import SchemaMigration.Proofs.Session.Run

/-!
# SchemaMigration.Proofs.Session.Transcript

Runs with a record of the calls that are made and of what comes back.

* `Exchange` : a call with its reply.
* `transcribed` : whatever comes back is written down; nothing is known of the database.
* `Replies` : a choice of replies.
* `noted` : a database that is known, with the transcript beside its state.
* `openTransactions` : how many transactions are open after some calls.
* `Clean` : the calls satisfy a condition, and so many transactions are open after them.

`Session.Runs.exists_append` : a run adds to the transcript. `Session.Runs.chosen` : every choice of
replies makes a run. `Session.Runs.known` and `Session.Runs.transcript` are the two halves of a run
that is noted.
-/

namespace SchemaMigration

structure Exchange where
  call : Call
  reply : call.Reply

/-- Whether an error came back. -/
def Exchange.failed : Exchange → Bool
  | ⟨.begin, .error _⟩ | ⟨.commit, .error _⟩ | ⟨.rollback, .error _⟩ => true
  | ⟨.execute _ _, .error _⟩ | ⟨.batch _ _, .error _⟩ | ⟨.query _ _, .error _⟩ => true
  | _ => false

/-- Any reply may come, and it is written down with the call. -/
def transcribed (calls : List Exchange) (c : Call) (reply : c.Reply) (calls' : List Exchange) :
    Prop :=
  calls' = calls ++ [⟨c, reply⟩]

/-- All calls may be made, and each is written down. -/
def transcript : Protocol (List Exchange) where
  allows _ _ := True
  answers := transcribed

/-- A choice of replies, each of which may depend on all that happened before. -/
abbrev Replies := List Exchange → (c : Call) → c.Reply

def Replies.answer (choose : Replies) (c : Call) (calls : List Exchange) :
    c.Reply × List Exchange :=
  (choose calls c, calls ++ [⟨c, choose calls c⟩])

/-- Answers that depend on a state, with the transcript beside the state. -/
def noted {σ : Type} (answers : σ → (c : Call) → c.Reply → σ → Prop) (s : σ × List Exchange)
    (c : Call) (reply : c.Reply) (t : σ × List Exchange) : Prop :=
  answers s.1 c reply t.1 ∧ transcribed s.2 c reply t.2

namespace Session.Runs

variable {σ α : Type} {answers : σ → (c : Call) → c.Reply → σ → Prop} {session : Session α}

theorem exists_append {calls calls' : List Exchange} {r : Option α}
    (h : Runs transcribed session calls r calls') : ∃ more, calls' = calls ++ more := by
  induction h with
  | done a s => exact ⟨[], (List.append_nil s).symm⟩
  | cut session s => exact ⟨[], (List.append_nil s).symm⟩
  | @call c next reply s t u r hs _ ih =>
    obtain ⟨more, rfl⟩ := ih
    exact ⟨⟨c, reply⟩ :: more, by rw [hs, List.append_assoc]; rfl⟩

/-- Every choice of replies makes a run. -/
theorem chosen (choose : Replies) (session : Session α) (calls : List Exchange) :
    Runs transcribed session calls (some (session.run choose.answer calls).1)
      (session.run choose.answer calls).2 := by
  induction session generalizing calls with
  | done a => exact .done a calls
  | call c next ih => exact .call rfl (ih _ _)

theorem known {s t : σ × List Exchange} {r : Option α} (h : Runs (noted answers) session s r t) :
    Runs answers session s.1 r t.1 := by
  induction h with
  | done a s => exact .done a s.1
  | cut session s => exact .cut session s.1
  | call hs _ ih => exact .call hs.1 ih

theorem transcript {s t : σ × List Exchange} {r : Option α}
    (h : Runs (noted answers) session s r t) : Runs transcribed session s.2 r t.2 := by
  induction h with
  | done a s => exact .done a s.2
  | cut session s => exact .cut session s.2
  | call hs _ ih => exact .call hs.2 ih

theorem noted_call {c : Call} {next : c.Reply → Session α} {reply : c.Reply} {s t : σ}
    {calls : List Exchange} {u : σ × List Exchange} {r : Option α} (h : answers s c reply t)
    (hr : Runs (noted answers) (next reply) (t, calls ++ [⟨c, reply⟩]) r u) :
    Runs (noted answers) (.call c next) (s, calls) r u :=
  have hstep : noted answers (s, calls) c reply (t, calls ++ [⟨c, reply⟩]) := ⟨h, rfl⟩
  .call hstep hr

end Session.Runs

/-! ## Transactions in a transcript -/

/-- The number of open transactions after a call. An ending ends its transaction whatever comes
back from it. -/
def transactionsAfter (depth : Nat) : Exchange → Nat
  | ⟨.begin, .ok _⟩ => depth + 1
  | ⟨.commit, _⟩ => depth - 1
  | ⟨.rollback, _⟩ => depth - 1
  | ⟨.abandon, _⟩ => depth - 1
  | _ => depth

def openTransactions (calls : List Exchange) : Nat := calls.foldl transactionsAfter 0

theorem openTransactions_concat (calls : List Exchange) (x : Exchange) :
    openTransactions (calls ++ [x]) = transactionsAfter (openTransactions calls) x := by
  rw [openTransactions, List.foldl_append]
  rfl

/-- The calls satisfy a condition, and so many transactions are open after them. -/
structure Clean (p : Call → Prop) (depth : Nat) (calls : List Exchange) : Prop where
  each : ∀ x ∈ calls, p x.call
  depth : openTransactions calls = depth

namespace Clean

variable {p q : Call → Prop} {depth : Nat} {calls : List Exchange}

theorem nil : Clean p 0 [] := ⟨fun _ h => absurd h List.not_mem_nil, rfl⟩

theorem imp (hpq : ∀ c, p c → q c) (h : Clean p depth calls) : Clean q depth calls :=
  ⟨fun x hx => hpq x.call (h.each x hx), h.depth⟩

theorem concat (h : Clean p depth calls) (x : Exchange) (hx : p x.call) :
    Clean p (transactionsAfter depth x) (calls ++ [x]) where
  each y hy := by
    rcases List.mem_append.mp hy with hy | hy
    · exact h.each y hy
    · rw [List.mem_singleton.mp hy]
      exact hx
  depth := by rw [openTransactions_concat, h.depth]

/-- Calls that neither begin nor end a transaction. -/
theorem keeps {c : Call} (hc : p c)
    (hflat : ∀ depth (reply : c.Reply), transactionsAfter depth ⟨c, reply⟩ = depth) :
    transcript.Keeps (Clean p depth) c := by
  rintro calls h
  refine ⟨trivial, ?_⟩
  rintro reply _ rfl
  have hafter := h.concat ⟨c, reply⟩ hc
  rw [hflat] at hafter
  exact hafter

/-- Conditions under which transactions are begun and ended. -/
structure Transacts (p : Call → Prop) : Prop where
  begin : p .begin
  commit : p .commit
  rollback : p .rollback
  abandon : p .abandon

/-- A transaction that is begun is ended in every case. -/
theorem brackets (hp : Transacts p) : transcript.Brackets (Clean p 0) (Clean p 1) where
  begin calls h := by
    refine ⟨trivial, ?_⟩
    rintro reply _ rfl
    refine ⟨?_, ?_⟩
    · rintro rfl
      exact h.concat ⟨.begin, .ok ()⟩ hp.begin
    · rintro e rfl
      exact h.concat ⟨.begin, .error e⟩ hp.begin
  commit calls h := ⟨trivial, fun reply _ ht => ht ▸ h.concat ⟨.commit, reply⟩ hp.commit⟩
  rollback calls h := ⟨trivial, fun reply _ ht => ht ▸ h.concat ⟨.rollback, reply⟩ hp.rollback⟩
  abandon calls h := ⟨trivial, fun reply _ ht => ht ▸ h.concat ⟨.abandon, reply⟩ hp.abandon⟩

end Clean
end SchemaMigration
