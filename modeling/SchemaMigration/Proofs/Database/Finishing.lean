import SchemaMigration.Database.Backend

/-!
# SchemaMigration.Proofs.Database.Finishing

Transactions are begun once and finished once, whatever the database answers.

* `Recorded` : a database with a record of all that is sent on its connections.
* `Use`, `Closing` : what the user of a transaction can do with it, and how it comes to its end.
* `Ended` : what is sent at the end of a transaction, with what its user gets to know.

`transaction_finished` : on the connection of a transaction there is one `BEGIN TRANSACTION`, then
what its user sends, then one ending. Once a transaction was ended, its handle sends nothing more
when it is let go.
-/

namespace SchemaMigration
namespace Database

open Sql

/-- What can be sent on a connection. -/
inductive Order where
  | execute (sql : String) (parameters : List Cell)
  | batch (sql : String)
  | query (sql : String) (parameters : List Cell)

/-- An order, with the error text that came back if it failed. -/
structure Sending where
  connection : Nat
  order : Order
  failure : Option String

/-- A database with all that was sent on its connections, oldest first. -/
structure Recorded (δ : Type) where
  database : δ
  sendings : List Sending := []

variable {δ : Type} [Connections δ]

namespace Recorded

def failure? {α : Type} : Except String α → Option String
  | .ok _ => none
  | .error message => some message

/-- Put an order on the record, given what the database does at it. -/
def record {α : Type} (db : Recorded δ) (n : Nat) (order : Order) (answer : Except String α × δ) :
    Except String α × Recorded δ :=
  (answer.1, ⟨answer.2, db.sendings ++ [⟨n, order, failure? answer.1⟩]⟩)

instance : Connections (Recorded δ) where
  clone db :=
    let (reply, database) := Connections.clone db.database
    (reply, { db with database })
  execute db n sql parameters :=
    db.record n (.execute sql parameters) (Connections.execute db.database n sql parameters)
  batch db n sql := db.record n (.batch sql) (Connections.batch db.database n sql)
  query db n sql parameters :=
    db.record n (.query sql parameters) (Connections.query db.database n sql parameters)
  close db n := { db with database := Connections.close db.database n }

variable (db : Recorded δ) (n : Nat) (sql : String)

theorem sendings_clone : (Connections.clone db).2.sendings = db.sendings := rfl

theorem sendings_batch : (Connections.batch db n sql).2.sendings =
    db.sendings ++ [⟨n, .batch sql, failure? (Connections.batch db n sql).1⟩] := rfl

end Recorded

/-- A request that the user of a transaction makes on it. -/
inductive Use where
  | execute (sql : String) (parameters : List Value)
  | batch (sql : String)
  | query (sql : String) (parameters : List Value)

namespace Use

def order : Use → Order
  | execute sql parameters => .execute sql (parameters.map Cell.ofValue)
  | batch sql => .batch sql
  | query sql parameters => .query sql (parameters.map Cell.ofValue)

/-- The database after a request on the transaction of connection `n`, whatever the reply. -/
def perform (n : Nat) (db : δ) : Use → δ
  | execute sql parameters => (Backend.execute db (some n) sql parameters).2
  | batch sql => (Backend.batch db (some n) sql).2
  | query sql parameters => (Backend.query db (some n) sql parameters).2

end Use

/-- How a transaction comes to its end. -/
inductive Closing where
  | commit
  | rollback
  /-- Its user lets go of it. -/
  | drop
deriving DecidableEq

namespace Closing

/-- The statement that ends the transaction, if its user ends it. -/
def statement? : Closing → Option String
  | commit => some Instance.commitText
  | rollback => some Instance.rollbackText
  | drop => none

def perform (n : Nat) (db : δ) (closing : Closing) : Except DatabaseError Unit × δ :=
  match closing.statement? with
  | some statement => Backend.finish db n statement
  | none => (.ok (), Backend.abandon db n)

end Closing

/-- The error of an ending that failed. -/
def endingError (statement message : String) : DatabaseError :=
  if (DatabaseError.ofEngineText message).isConflict then .conflict message
  else .transaction (statement ++ " failed: " ++ message)

/-- What is sent at the end of the transaction of connection `n`, and what its user gets to know.
Every `ROLLBACK` but that of an ending counts as sent whether or not it fails. -/
inductive Ended (n : Nat) : Closing → List Sending → Except DatabaseError Unit → Prop where
  | ended {closing : Closing} {statement : String} (h : closing.statement? = some statement) :
      Ended n closing [⟨n, .batch statement, none⟩] (.ok ())
  | failed {closing : Closing} {statement : String} (h : closing.statement? = some statement)
      (message : String) (failure : Option String) :
      Ended n closing [⟨n, .batch statement, some message⟩,
        ⟨n, .batch Instance.rollbackText, failure⟩] (.error (endingError statement message))
  | dropped (failure : Option String) :
      Ended n .drop [⟨n, .batch Instance.rollbackText, failure⟩] (.ok ())

/-! ## The parts of a transaction -/

open Recorded

section Parts

variable {db db' : Recorded δ} {n : Nat}

/-- What was begun was begun by one `BEGIN TRANSACTION`, which succeeded. -/
theorem sendings_begin (h : Backend.begin db = (.ok n, db')) :
    db'.sendings = db.sendings ++ [⟨n, .batch Instance.beginText, none⟩] := by
  unfold Backend.begin at h
  split at h
  · cases h
  · rename_i m cloned hclone
    have hcloned := sendings_clone db
    have hbegun := sendings_batch cloned m Instance.beginText
    rw [hclone] at hcloned
    split at h
    · cases h
    · rename_i begun hbatch
      cases h
      rw [hbatch, hcloned] at hbegun
      exact hbegun

/-- A request puts its own order on the record and nothing else. -/
theorem sendings_use (db : Recorded δ) (n : Nat) (use : Use) :
    ∃ failure, (use.perform n db).sendings = db.sendings ++ [⟨n, use.order, failure⟩] := by
  cases use with
  | execute sql parameters => exact ⟨_, rfl⟩
  | batch sql => exact ⟨_, rfl⟩
  | query sql parameters => exact ⟨_, rfl⟩

theorem sendings_uses (uses : List Use) (db : Recorded δ) (n : Nat) :
    ∃ used : List Sending, (uses.foldl (Use.perform n) db).sendings = db.sendings ++ used ∧
      used.map (fun s => (s.connection, s.order)) = uses.map fun use => (n, use.order) := by
  induction uses generalizing db with
  | nil => exact ⟨[], (List.append_nil _).symm, rfl⟩
  | cons use rest ih =>
    obtain ⟨failure, hfirst⟩ := sendings_use db n use
    obtain ⟨used, hrest, horders⟩ := ih (use.perform n db)
    refine ⟨⟨n, use.order, failure⟩ :: used, ?_, ?_⟩
    · rw [List.foldl_cons, hrest, hfirst, List.append_assoc]
      rfl
    · rw [List.map_cons, List.map_cons, horders]

/-- A handle that is let go sends a `ROLLBACK` if nobody has ended its transaction. -/
theorem sendings_drop (handle : Handle) (db : Recorded δ) :
    ∃ failure, (handle.drop db).sendings = db.sendings ++
      if handle.isOpen then [⟨handle.connection, .batch Instance.rollbackText, failure⟩]
      else [] := by
  unfold Handle.drop
  cases handle.isOpen with
  | true => exact ⟨_, rfl⟩
  | false => exact ⟨none, (List.append_nil _).symm⟩

/-- To end a transaction closes its handle, and sends the statement. A statement that fails is
followed by a `ROLLBACK`. -/
theorem sendings_finish (handle : Handle) (db : Recorded δ) (statement : String) :
    ∃ result database ending,
      handle.finish db statement = (result, { handle with isOpen := false }, database) ∧
      database.sendings = db.sendings ++ ending ∧
      ((result = .ok () ∧ ending = [⟨handle.connection, .batch statement, none⟩]) ∨
        ∃ message failure, result = .error (endingError statement message) ∧
          ending = [⟨handle.connection, .batch statement, some message⟩,
            ⟨handle.connection, .batch Instance.rollbackText, failure⟩]) := by
  have hsent := sendings_batch db handle.connection statement
  unfold Handle.finish
  cases hreply : Connections.batch db handle.connection statement with
  | mk reply database =>
    rw [hreply] at hsent
    cases reply with
    | ok _ => exact ⟨_, _, _, rfl, hsent, .inl ⟨rfl, rfl⟩⟩
    | error message =>
      refine ⟨_, _, _, rfl, ?_, .inr ⟨message, failure?
        (Connections.batch database handle.connection Instance.rollbackText).1, ?_, rfl⟩⟩
      · rw [sendings_batch, hsent, List.append_assoc]
        rfl
      · unfold endingError DatabaseError.ofEngineText
        split <;> rfl

theorem ended_of_perform (closing : Closing) (db : Recorded δ) (n : Nat) :
    ∃ ending, (closing.perform n db).2.sendings = db.sendings ++ ending ∧
      Ended n closing ending (closing.perform n db).1 := by
  unfold Closing.perform
  cases hstatement : closing.statement? with
  | none =>
    cases closing with
    | drop =>
      obtain ⟨failure, hsent⟩ := sendings_drop ⟨n, true⟩ db
      exact ⟨_, hsent, .dropped failure⟩
    | commit | rollback => cases hstatement
  | some statement =>
    obtain ⟨result, database, ending, hfinish, hsent, hends⟩ :=
      sendings_finish ⟨n, true⟩ db statement
    -- the handle is closed by now
    obtain ⟨_, hdrop⟩ := sendings_drop ⟨n, false⟩ database
    have hsame : Backend.finish db n statement = (result, Handle.drop ⟨n, false⟩ database) := by
      unfold Backend.finish
      rw [hfinish]
    refine ⟨ending, ?_, ?_⟩
    · show (Backend.finish db n statement).2.sendings = _
      rw [hsame, hdrop, hsent]
      simp
    · show Ended n closing ending (Backend.finish db n statement).1
      rw [hsame]
      obtain ⟨rfl, rfl⟩ | ⟨message, failure, rfl, rfl⟩ := hends
      · exact .ended hstatement
      · exact .failed hstatement message failure

end Parts

/-- A transaction, from its beginning to its end: one `BEGIN TRANSACTION`, what its user sends, and
one ending. -/
theorem transaction_finished {db begun : Recorded δ} {n : Nat}
    (h : Backend.begin db = (.ok n, begun)) (uses : List Use) (closing : Closing) :
    ∃ used ending,
      (closing.perform n (uses.foldl (Use.perform n) begun)).2.sendings =
        db.sendings ++ ⟨n, .batch Instance.beginText, none⟩ :: (used ++ ending) ∧
      used.map (fun s => (s.connection, s.order)) = uses.map (fun use => (n, use.order)) ∧
      Ended n closing ending (closing.perform n (uses.foldl (Use.perform n) begun)).1 := by
  obtain ⟨used, hused, horders⟩ := sendings_uses uses begun n
  obtain ⟨ending, hending, hended⟩ :=
    ended_of_perform closing (uses.foldl (Use.perform n) begun) n
  refine ⟨used, ending, ?_, horders, hended⟩
  rw [hending, hused, sendings_begin h, List.append_assoc, List.append_assoc]
  rfl

/-- A statement goes through, but the `COMMIT` is a conflict, and even the `ROLLBACK` after it
fails. The handle adds nothing when it is let go. -/
theorem transaction_finished_lostRollback :
    let faults : List Fault := [⟨"COMMIT", "Conflict on commit", 0, none⟩,
      ⟨"ROLLBACK", "no transaction is active", 0, none⟩]
    let db : Recorded Instance := { database := { faults } }
    let begun := (Backend.begin db).2
    let ended := Closing.commit.perform 0 ([Use.batch "SELECT 1"].foldl (Use.perform 0) begun)
    ∃ used ending,
      ended.2.sendings = ⟨0, .batch "BEGIN TRANSACTION", none⟩ :: (used ++ ending) ∧
      used.map (fun s => (s.connection, s.order)) = [(0, .batch "SELECT 1")] ∧
      Ended 0 .commit ending ended.1 ∧ ended.1 = .error (.conflict "Conflict on commit") := by
  intro faults db begun ended
  have hbegin : Backend.begin db = (.ok 0, begun) := rfl
  obtain ⟨used, ending, hsent, hused, hended⟩ :=
    transaction_finished hbegin [.batch "SELECT 1"] .commit
  exact ⟨used, ending, hsent, hused, hended, rfl⟩

end Database
end SchemaMigration
