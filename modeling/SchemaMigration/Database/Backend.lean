import SchemaMigration.Database.Instance
import SchemaMigration.Database.Session

/-!
# SchemaMigration.Database.Backend

Sessions on a database that is used over connections. Each request outside a transaction runs on a
connection of its own, and a transaction has a connection to itself, so that transactions never
share one.

* `Connections` : what a database offers over its connections.
* `Backend.execute`, `Backend.batch`, `Backend.query` : one request, on the connection of a
  transaction or on a new one.
* `Backend.begin` : the beginning of a transaction.
* `Handle` : a transaction in the hands of its user, who ends it or lets go of it.
* `Backend.finish`, `Backend.abandon` : a transaction's ends.
* `Link`, `Link.answer` : a database with at most one open transaction, answering a session.
-/

namespace SchemaMigration
namespace Database

open Sql

/-- A database that is used over connections, which have numbers. A call that fails gives the
database's error text. -/
class Connections (δ : Type) where
  /-- A new connection to the same contents. -/
  clone : δ → Except String Nat × δ
  /-- Run a statement for the number of rows that it affects. -/
  execute : δ → Nat → String → List Cell → Except String Nat × δ
  batch : δ → Nat → String → Except String Unit × δ
  query : δ → Nat → String → List Cell → Except String (List (List Cell)) × δ
  close : δ → Nat → δ

instance : Connections Instance where
  clone := Instance.clone
  execute := Instance.execute
  batch := Instance.batch
  query := Instance.query
  close := Instance.close

variable {δ : Type} [Connections δ]

namespace Backend

/-- The error behind a failed statement, which a plain failure names. -/
def reported {α : Type} (sql : String) : Except String α → Except DatabaseError α
  | .ok a => .ok a
  | .error message => .error ((DatabaseError.ofEngineText message).withStatement sql)

def onNewConnection {α : Type} (db : δ) (request : δ → Nat → Except DatabaseError α × δ) :
    Except DatabaseError α × δ :=
  match Connections.clone db with
  | (.error message, db) => (.error (.connection message), db)
  | (.ok n, db) =>
    let (result, db) := request db n
    (result, Connections.close db n)

/-- Use a transaction's connection, or a new one. -/
def onConnection {α : Type} (db : δ) (transaction : Option Nat)
    (request : δ → Nat → Except DatabaseError α × δ) : Except DatabaseError α × δ :=
  match transaction with
  | some n => request db n
  | none => onNewConnection db request

def execute (db : δ) (transaction : Option Nat) (sql : String) (parameters : List Value) :
    Except DatabaseError Nat × δ :=
  onConnection db transaction fun db n =>
    let (result, db) := Connections.execute db n sql (parameters.map Cell.ofValue)
    (reported sql result, db)

def batch (db : δ) (transaction : Option Nat) (sql : String) : Except DatabaseError Unit × δ :=
  onConnection db transaction fun db n =>
    let (result, db) := Connections.batch db n sql
    (reported sql result, db)

def query (db : δ) (transaction : Option Nat) (sql : String) (parameters : List Value) :
    Except DatabaseError (List Row) × δ :=
  onConnection db transaction fun db n =>
    let (result, db) := Connections.query db n sql (parameters.map Cell.ofValue)
    (reported sql (result.map fun rows => rows.map fun cells => ⟨cells.map Cell.value⟩), db)

/-- Begin a transaction on a connection of its own. -/
def begin (db : δ) : Except DatabaseError Nat × δ :=
  match Connections.clone db with
  | (.error message, db) => (.error (.connection message), db)
  | (.ok n, db) =>
    match Connections.batch db n Instance.beginText with
    | (.error message, db) =>
      (.error (.transaction ("BEGIN failed: " ++ message)), Connections.close db n)
    | (.ok (), db) => (.ok n, db)

end Backend

/-- A transaction in the hands of its user. -/
structure Handle where
  connection : Nat
  /-- Whether nobody has ended it yet. -/
  isOpen : Bool := true

namespace Handle

/-- End a transaction by `COMMIT` or `ROLLBACK`. When that fails the transaction is rolled back,
whatever comes of it. In either case nothing is left to be ended. -/
def finish (handle : Handle) (db : δ) (statement : String) :
    Except DatabaseError Unit × Handle × δ :=
  let ended : Handle := { handle with isOpen := false }
  match Connections.batch db handle.connection statement with
  | (.ok (), db) => (.ok (), ended, db)
  | (.error message, db) =>
    (.error ((DatabaseError.ofEngineText message).whileEnding statement), ended,
      (Connections.batch db handle.connection Instance.rollbackText).2)

/-- Let go of a transaction. One that is still open is rolled back, whatever comes of it. -/
def drop (handle : Handle) (db : δ) : δ :=
  let db :=
    if handle.isOpen then (Connections.batch db handle.connection Instance.rollbackText).2 else db
  Connections.close db handle.connection

end Handle

namespace Backend

/-- End the transaction of a connection, and let go of it. -/
def finish (db : δ) (n : Nat) (statement : String) : Except DatabaseError Unit × δ :=
  let (result, handle, db) := Handle.finish ⟨n, true⟩ db statement
  (result, handle.drop db)

/-- Leave the transaction of a connection without ending it. -/
def abandon (db : δ) (n : Nat) : δ := Handle.drop ⟨n, true⟩ db

end Backend

/-- A database with the connection of the open transaction, if there is one. -/
structure Link (δ : Type) where
  database : δ
  transaction : Option Nat := none

namespace Link

/-- The connection that a request goes to; none for a new one. -/
def connection? (link : Link δ) : Scope → Option Nat
  | .direct => none
  | .transaction => link.transaction

def finish (link : Link δ) (statement : String) : Except DatabaseError Unit × Link δ :=
  match link.transaction with
  | none => (.error (.transaction (statement ++ " failed: no transaction is open")), link)
  | some n =>
    let (result, db) := Backend.finish link.database n statement
    (result, ⟨db, none⟩)

/-- Answer a call, with the statements in the words of a dialect. -/
def answer (dialect : Dialect) (schema : String) : (c : Call) → Link δ → c.Reply × Link δ
  | .begin, link =>
    match Backend.begin link.database with
    | (.error e, db) => (.error e, ⟨db, link.transaction⟩)
    | (.ok n, db) => (.ok (), ⟨db, some n⟩)
  | .commit, link => link.finish Instance.commitText
  | .rollback, link => link.finish Instance.rollbackText
  | .abandon, link =>
    match link.transaction with
    | none => ((), link)
    | some n => ((), ⟨Backend.abandon link.database n, none⟩)
  | .execute scope request, link =>
    let (result, db) := Backend.execute link.database (link.connection? scope)
      (request.sql dialect schema) request.parameters
    (result, ⟨db, link.transaction⟩)
  | .batch scope request, link =>
    let (result, db) := Backend.batch link.database (link.connection? scope)
      (request.sql dialect schema)
    (result, ⟨db, link.transaction⟩)
  | .query scope request, link =>
    let (result, db) := Backend.query link.database (link.connection? scope)
      (request.sql dialect schema) request.parameters
    (result, ⟨db, link.transaction⟩)
  | .sleep _, link => ((), link)

end Link

def Instance.runSession {α : Type} (db : Instance) (dialect : Dialect) (schema : String)
    (session : Session α) : α × Instance :=
  let (result, link) := session.run (Link.answer dialect schema) ⟨db, none⟩
  (result, link.database)

end Database
end SchemaMigration
