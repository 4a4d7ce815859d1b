import SchemaMigration.Cycle.Engine
import SchemaMigration.Proofs.Database.Dialogue
import SchemaMigration.Proofs.Database.Embedded
import SchemaMigration.Proofs.Ordering.Declaration

/-!
# SchemaMigration.Proofs.Cycle.Execution

What the statements of a migration leave in the database, whichever call fails.

* `Effects` : the effects of statements, one after the other.
* `Sends` : what comes of one statement, in a transaction or on its own.
* `Together`, `OneByOne` : what executing a migration comes to, with all calls and their replies,
  inside one transaction and without one.

`execution_outcome` : these are all the ways in which it can go. A transactional migration has all
of its effects or none; without a transaction a failing statement leaves the effects of those
before it.
-/

namespace SchemaMigration

open Sql Database Attempt

variable {δ γ : Type}

/-- Contents after statements that all succeed, from the first one on. -/
inductive Effects (Effect : String → γ → γ → Prop) : List String → γ → γ → Prop where
  | nil (d : γ) : Effects Effect [] d d
  | cons {statement : String} {rest : List String} {d d' d'' : γ} (h : Effect statement d d')
      (hr : Effects Effect rest d' d'') : Effects Effect (statement :: rest) d d''

/-- A statement of a migration is sent. -/
def Exchange.sent (scope : Scope) (statement : String) (reply : Except DatabaseError Unit) :
    Exchange :=
  ⟨.batch scope (.migration statement), reply⟩

/-- Statements are sent and all succeed. -/
def Exchange.allSent (scope : Scope) (statements : List String) : List Exchange :=
  statements.map (Exchange.sent scope · (.ok ()))

/-! ## The statements, one after the other -/

/-- What comes of a statement that is sent where `inside` holds: it has its effect there, or it
fails and `broken` holds. -/
def Sends (answer : (c : Call) → Link δ → c.Reply × Link δ) (Effect : String → γ → γ → Prop)
    (inside broken : γ → Link δ → Prop) (scope : Scope) (statement : String) : Prop :=
  ∀ d link calls, inside d link →
    Meets (dialogue answer)
      (At inside fun _ d' calls' =>
        Effect statement d d' ∧ calls' = calls ++ [.sent scope statement (.ok ())])
      (At broken fun e d' calls' => d' = d ∧ ∃ cause, e = .database cause ∧
        calls' = calls ++ [.sent scope statement (.error cause)])
      (batch scope (.migration statement)) (link, calls)

section Sends

variable [Connections δ] {A : Isolation δ γ} {n : Nat} {d : γ} {others : Nat → Option γ}
  {meanwhile : δ → δ} {dialect : Dialect} {schema : String} {statement : String}

/-- On its own a statement takes effect at once, or it fails and has none. -/
theorem sends_direct (h : ¬ A.Control statement) :
    Sends (Link.amid meanwhile dialect schema) A.Effect (Link.Idle A.toView others)
      (Link.Idle A.toView others) .direct statement := by
  rintro d ⟨db, _⟩ calls ⟨rfl, hquiet⟩
  refine meets_batch.mpr ⟨trivial, ?_⟩
  rintro reply ⟨link, _⟩ ⟨ha, rfl⟩
  refine (A.batch_outside hquiet h).ends (fun reply => calls ++ [.sent .direct statement reply]) ha
    ?_ ?_
  · rintro _ db' ⟨d', heffect, hquiet⟩
    exact ⟨d', ⟨rfl, hquiet⟩, heffect, rfl⟩
  · exact fun e db' hquiet => ⟨d, ⟨rfl, hquiet⟩, rfl, e, rfl, rfl⟩

/-- In a transaction a statement takes effect there, or the transaction is only to be left. -/
theorem sends_inside (h : ¬ A.Control statement) :
    Sends (Link.amid meanwhile dialect schema) A.Effect (Link.Busy A.toView n d others)
      (Link.Broken A.toView n d others) .transaction statement := by
  rintro draft ⟨db, _⟩ calls ⟨rfl, hopen⟩
  refine meets_batch.mpr ⟨trivial, ?_⟩
  rintro reply ⟨link, _⟩ ⟨ha, rfl⟩
  refine (A.batch_inside hopen h).ends
    (fun reply => calls ++ [.sent .transaction statement reply]) ha ?_ ?_
  · rintro _ db' ⟨draft', heffect, hopen⟩
    exact ⟨draft', ⟨rfl, hopen⟩, heffect, rfl⟩
  · exact fun e db' hspoilt => ⟨draft, ⟨rfl, hspoilt⟩, rfl, e, rfl, rfl⟩

end Sends

/-- The statements have their effects up to the first one that fails, which ends the session and
is named in the error. -/
theorem meets_sendStatements {answer : (c : Call) → Link δ → c.Reply × Link δ}
    {Effect : String → γ → γ → Prop} {inside broken : γ → Link δ → Prop} {scope : Scope}
    {statements : List String}
    (hsends : ∀ statement ∈ statements, Sends answer Effect inside broken scope statement)
    (name : Name) {d : γ} {link : Link δ} {calls : List Exchange} (h : inside d link) :
    Meets (dialogue answer)
      (At inside fun _ d' calls' =>
        Effects Effect statements d d' ∧ calls' = calls ++ Exchange.allSent scope statements)
      (At broken fun e d' calls' => ∃ front statement rest cause,
        statements = front ++ statement :: rest ∧ e = .statementFailed name statement cause ∧
        Effects Effect front d d' ∧
        calls' = calls ++ (Exchange.allSent scope front ++ [.sent scope statement (.error cause)]))
      (Engine.sendStatements scope name statements) (link, calls) := by
  -- on the statements that are left; those that went through have made the contents `d`
  induction statements generalizing d link calls with
  | nil => exact ⟨d, h, .nil d, (List.append_nil calls).symm⟩
  | cons statement rest ih =>
    obtain ⟨hfirst, hrest⟩ := List.forall_mem_cons.mp hsends
    refine meets_bind.mpr (meets_outcome.mpr ((hfirst d link calls h).mono ?_ ?_))
    · rintro _ ⟨link', _⟩ ⟨d', hinside, heffect, rfl⟩
      refine (ih hrest hinside).mono ?_ ?_
      · rintro _ ⟨link'', _⟩ ⟨d'', hinside', heffects, rfl⟩
        refine ⟨d'', hinside', .cons heffect heffects, ?_⟩
        simp [Exchange.allSent]
      · rintro e ⟨link'', _⟩ ⟨d'', hbroken, front, other, rest', cause, rfl, rfl, heffects, rfl⟩
        refine ⟨d'', hbroken, statement :: front, other, rest', cause, rfl, rfl,
          .cons heffect heffects, ?_⟩
        simp [Exchange.allSent]
    · rintro e ⟨link', _⟩ ⟨d', hbroken, rfl, cause, rfl, rfl⟩
      exact ⟨d', hbroken, [], statement, rest, cause, rfl, rfl, .nil d', rfl⟩

/-! ## The whole migration -/

/-- What executing a migration inside one transaction comes to, where the contents were `d` : the
result, the contents, and the calls with their replies. -/
inductive Together (Effect : String → γ → γ → Prop) (m : Migration) (d : γ) :
    Except CycleError Unit → γ → List Exchange → Prop where
  | notBegun (e : DatabaseError) :
      Together Effect m d (.error (.database e)) d [⟨.begin, .error e⟩]
  | failed {front rest : List String} {statement : String}
      (h : m.statements = front ++ statement :: rest) (cause : DatabaseError) :
      Together Effect m d (.error (.statementFailed m.name statement cause)) d
        (⟨.begin, .ok ()⟩ :: (Exchange.allSent .transaction front ++
          [.sent .transaction statement (.error cause), ⟨.abandon, ()⟩]))
  | notCommitted (e : DatabaseError) :
      Together Effect m d (.error (.database e)) d
        (⟨.begin, .ok ()⟩ :: (Exchange.allSent .transaction m.statements ++ [⟨.commit, .error e⟩]))
  | committed {d' : γ} (h : Effects Effect m.statements d d') :
      Together Effect m d (.ok ()) d'
        (⟨.begin, .ok ()⟩ :: (Exchange.allSent .transaction m.statements ++ [⟨.commit, .ok ()⟩]))

/-- The same without a transaction. -/
inductive OneByOne (Effect : String → γ → γ → Prop) (m : Migration) (d : γ) :
    Except CycleError Unit → γ → List Exchange → Prop where
  | failed {front rest : List String} {statement : String} {d' : γ}
      (h : m.statements = front ++ statement :: rest) (heffects : Effects Effect front d d')
      (cause : DatabaseError) :
      OneByOne Effect m d (.error (.statementFailed m.name statement cause)) d'
        (Exchange.allSent .direct front ++ [.sent .direct statement (.error cause)])
  | done {d' : γ} (h : Effects Effect m.statements d d') :
      OneByOne Effect m d (.ok ()) d' (Exchange.allSent .direct m.statements)

/-- What executing a migration comes to. -/
def Executed (Effect : String → γ → γ → Prop) (m : Migration) (d : γ)
    (result : Except CycleError Unit) (d' : γ) (calls : List Exchange) : Prop :=
  if m.parameters.transactional then Together Effect m d result d' calls
  else OneByOne Effect m d result d' calls

section Execute

variable [Connections δ] {A : Isolation δ γ} {d : γ} {others : Nat → Option γ} {link : Link δ}
  {m : Migration} {meanwhile : δ → δ} {dialect : Dialect} {schema : String}

theorem meets_execute_together (hplain : ∀ statement ∈ m.statements, ¬ A.Control statement)
    (h : link.Idle A.toView others d) (ht : m.parameters.transactional = true) :
    Meets (dialogue (Link.amid meanwhile dialect schema))
      (fun a => At (Link.Idle A.toView others) (Together A.Effect m d) (.ok a))
      (fun e => At (Link.Idle A.toView others) (Together A.Effect m d) (.error e))
      (Engine.execute m) (link, []) := by
  rw [Engine.execute, if_pos ht]
  let good : Ending × Unit → γ → List Exchange → Prop := fun r draft calls =>
    r.1 = .commit ∧ Effects A.Effect m.statements d draft ∧
      calls = ⟨.begin, .ok ()⟩ :: Exchange.allSent .transaction m.statements
  let bad : CycleError → γ → List Exchange → Prop := fun e _ calls =>
    ∃ front statement rest cause, m.statements = front ++ statement :: rest ∧
      e = .statementFailed m.name statement cause ∧
      calls = ⟨.begin, .ok ()⟩ ::
        (Exchange.allSent .transaction front ++ [.sent .transaction statement (.error cause)])
  refine meets_inTransaction_at good bad h ?_ ?_ ?_ ?_ ?_
  · exact fun e => .notBegun e
  · intro n link hbusy
    refine meets_bind.mpr ((meets_sendStatements (fun statement hs => sends_inside (hplain _ hs))
      m.name hbusy).mono ?_ ?_)
    · rintro _ ⟨link', _⟩ ⟨draft, hbusy', heffects, rfl⟩
      exact meets_pure.mpr ⟨draft, hbusy', rfl, heffects, rfl⟩
    · rintro e ⟨link', _⟩ ⟨draft, hbroken, front, statement, rest, cause, hm, rfl, -, rfl⟩
      exact ⟨draft, hbroken, front, statement, rest, cause, hm, rfl, rfl⟩
  · rintro _ draft calls ⟨-, heffects, rfl⟩
    exact ⟨.committed heffects, fun e => .notCommitted e⟩
  · rintro _ draft calls ⟨hcommit, -⟩
    cases hcommit
  · rintro e draft calls ⟨front, statement, rest, cause, hm, rfl, rfl⟩
    have hfailed : Together A.Effect m d _ d _ := .failed hm cause
    simpa using hfailed

theorem meets_execute_oneByOne (hplain : ∀ statement ∈ m.statements, ¬ A.Control statement)
    (h : link.Idle A.toView others d) (ht : m.parameters.transactional = false) :
    Meets (dialogue (Link.amid meanwhile dialect schema))
      (fun a => At (Link.Idle A.toView others) (OneByOne A.Effect m d) (.ok a))
      (fun e => At (Link.Idle A.toView others) (OneByOne A.Effect m d) (.error e))
      (Engine.execute m) (link, []) := by
  rw [Engine.execute, if_neg (by simp [ht])]
  refine (meets_sendStatements (fun statement hs => sends_direct (hplain _ hs)) m.name h).mono ?_ ?_
  · rintro _ ⟨link', _⟩ ⟨d', hidle, heffects, rfl⟩
    exact ⟨d', hidle, .done heffects⟩
  · rintro e ⟨link', _⟩ ⟨d', hidle, front, statement, rest, cause, hm, rfl, heffects, rfl⟩
    exact ⟨d', hidle, .failed hm heffects cause⟩

end Execute

/-- Executing a migration, whichever calls fail. Afterwards no transaction of the session is open,
and those of others are as they were. A transactional migration ends well with the effects of all
its statements, or it fails with none of them; another one ends well, or leaves the effects of the
statements before the one that failed and sends no more. -/
theorem execution_outcome [Connections δ] (A : Isolation δ γ) {db : δ} (h : A.Valid db)
    {m : Migration} (hplain : ∀ statement ∈ m.statements, ¬ A.Control statement)
    (dialect : Dialect) (schema : String) :
    ∃ result db' calls,
      (Engine.execute m).run.run (noting (Link.answer dialect schema)) (⟨db, none⟩, []) =
        (result, ⟨db', none⟩, calls) ∧
      A.drafts db' = A.drafts db ∧
      Executed A.Effect m (A.contents db) result (A.contents db') calls := by
  have hidle : Link.Idle A.toView (A.drafts db) (A.contents db) (Link.mk db none) :=
    ⟨rfl, .refl h⟩
  have hmeets : Meets (dialogue (Link.amid id dialect schema))
      (fun a => At (Link.Idle A.toView (A.drafts db)) (Executed A.Effect m (A.contents db)) (.ok a))
      (fun e => At (Link.Idle A.toView (A.drafts db)) (Executed A.Effect m (A.contents db))
        (.error e))
      (Engine.execute m) (⟨db, none⟩, []) := by
    unfold Executed
    cases ht : m.parameters.transactional with
    | true => exact meets_execute_together hplain hidle ht
    | false => exact meets_execute_oneByOne hplain hidle ht
  rw [Link.amid_id] at hmeets
  have hrun := hmeets.run_noting
  cases hs : (Engine.execute m).run.run (noting (Link.answer dialect schema)) (⟨db, none⟩, []) with
  | mk result s =>
    rw [hs] at hrun
    obtain ⟨⟨db', _⟩, calls⟩ := s
    obtain ⟨d', ⟨rfl, hquiet⟩, hexecuted⟩ := hrun
    rw [← hquiet.contents] at hexecuted
    exact ⟨result, db', calls, rfl, hquiet.drafts, hexecuted⟩

/-- Three statements, in one transaction. -/
def threeSteps : Migration :=
  { Migration.bare ⟨"three-steps", by decide⟩ 0 [] [] with body := "one; two; three;" }

/-- A database that rejects the second of them. -/
def rejecting : Instance where
  data := { journal := ["zero"] }
  faults := [⟨"two", "Conversion Error", 0, none⟩]

/-- The second of three statements fails, and nothing is left of the first one. -/
theorem execution_outcome_threeSteps :
    ∃ result db' calls,
      (Engine.execute threeSteps).run.run (noting (Link.answer (.builtin .duckdb) "ordo"))
        (⟨rejecting, none⟩, []) = (result, ⟨db', none⟩, calls) ∧
      Executed (Instance.isolation []).Effect threeSteps rejecting.data result db'.data calls ∧
      result =
        .error (.statementFailed threeSteps.name "two" (.execution "Conversion Error: two")) ∧
      db'.data.journal = ["zero"] := by
  have hvalid : (Instance.isolation []).Valid rejecting := by
    refine ⟨?_, rfl⟩
    intro draft hdraft
    cases hdraft
  have hplain : ∀ statement ∈ threeSteps.statements,
      ¬ (Instance.isolation []).Control statement := by
    show ∀ statement ∈ threeSteps.statements,
      statement ∉ [Instance.beginText, Instance.commitText, Instance.rollbackText]
    decide
  obtain ⟨result, db', calls, hrun, -, hexecuted⟩ :=
    execution_outcome (Instance.isolation []) hvalid hplain (.builtin .duckdb) "ordo"
  have hresult : ((Engine.execute threeSteps).run.run
      (noting (Link.answer (.builtin .duckdb) "ordo")) (⟨rejecting, none⟩, [])).1 =
      .error (.statementFailed threeSteps.name "two" (.execution "Conversion Error: two")) := rfl
  have hjournal : ((Engine.execute threeSteps).run.run
      (noting (Link.answer (.builtin .duckdb) "ordo"))
      (⟨rejecting, none⟩, [])).2.1.database.data.journal = ["zero"] := rfl
  rw [hrun] at hresult hjournal
  exact ⟨result, db', calls, hrun, hexecuted, hresult, hjournal⟩

end SchemaMigration
