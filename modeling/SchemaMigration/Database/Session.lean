import SchemaMigration.Database.Error

/-!
# SchemaMigration.Database.Session

Work on a database, as a value: the calls that are made, one after the other, each chosen by the
answers to those before it.

* `Request` : a statement, either on the control tables or of a migration.
* `Call`, `Call.Reply` : a call and what may come back.
* `Session` : a computation that makes calls. Every branch of it ends.
* `Session.run` : a session with its calls answered by a function on states.
-/

namespace SchemaMigration

open Sql

inductive Request where
  | control (purpose : ControlStatement) (parameters : List Value)
  /-- A statement of a migration, sent as it is. -/
  | migration (statement : String)
deriving DecidableEq, Repr

namespace Request

def sql (dialect : Dialect) (schema : String) : Request → String
  | control purpose _ => dialect.statement purpose schema
  | migration statement => statement

def parameters : Request → List Value
  | control _ bound => bound
  | migration _ => []

end Request

/-- Where a request goes: to the open transaction, or to a connection of its own. -/
inductive Scope where
  | direct
  | transaction
deriving DecidableEq, Repr

inductive Call where
  | begin
  | commit
  | rollback
  /-- Leave the transaction without ending it; the database rolls it back. -/
  | abandon
  /-- Run a statement for the number of rows that it affects. -/
  | execute (scope : Scope) (request : Request)
  | batch (scope : Scope) (request : Request)
  | query (scope : Scope) (request : Request)
  | sleep (milliseconds : Nat)
deriving DecidableEq, Repr

def Call.Reply : Call → Type
  | .begin | .commit | .rollback => Except DatabaseError Unit
  | .abandon | .sleep _ => Unit
  | .execute _ _ => Except DatabaseError Nat
  | .batch _ _ => Except DatabaseError Unit
  | .query _ _ => Except DatabaseError (List Row)

inductive Session (α : Type) where
  | done (result : α)
  | call (c : Call) (next : c.Reply → Session α)

namespace Session

/-- Go on with `f` where a session is done. -/
def bind {α β : Type} (session : Session α) (f : α → Session β) : Session β :=
  match session with
  | .done a => f a
  | .call c next => .call c fun reply => (next reply).bind f

instance : Monad Session where
  pure := .done
  bind := Session.bind

def send (c : Call) : Session c.Reply := .call c .done

/-- Answer the calls of a session by a function on states. -/
def run {σ α : Type} (answer : (c : Call) → σ → c.Reply × σ) : Session α → σ → α × σ
  | .done a, state => (a, state)
  | .call c next, state =>
    let (reply, state) := answer c state
    (next reply).run answer state

theorem bind_assoc {α β γ : Type} (session : Session α) (f : α → Session β)
    (g : β → Session γ) : (session.bind f).bind g = session.bind fun a => (f a).bind g := by
  induction session with
  | done a => rfl
  | call c next ih => simp only [Session.bind, ih]

theorem bind_done {α : Type} (session : Session α) : session.bind .done = session := by
  induction session with
  | done a => rfl
  | call c next ih => simp only [Session.bind, ih]

instance : LawfulMonad Session :=
  LawfulMonad.mk' Session bind_done (fun _ _ => rfl) bind_assoc

end Session

end SchemaMigration
