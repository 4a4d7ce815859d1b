import SchemaMigration.Database.Data

/-!
# SchemaMigration.Database.Instance

An open database with its connections. A connection is a number; inside a transaction it works on
a private copy of the contents, which replaces the shared contents when the transaction commits.

* `Fault`, `Script` : calls that are set up to fail, and statements that are set up to answer.
* `Event` : a call as the trace records it.
* `Instance` : the shared contents, the private copies, the set-up and the trace.
* `Instance.clone`, `Instance.execute`, `Instance.batch`, `Instance.query`, `Instance.close` : the
  calls on connections. A failing call gives the database's error text and changes nothing.
-/

namespace SchemaMigration
namespace Database

open Sql

/-- Makes calls fail whose text contains `trigger`. -/
structure Fault where
  trigger : String
  message : String
  /-- How many such calls still go through. -/
  skip : Nat := 0
  /-- How many calls can still fail; none for no limit. -/
  times : Option Nat := none
deriving Repr, DecidableEq

namespace Fault

def concerns (fault : Fault) (text : String) : Bool :=
  fault.times != some 0 && Text.occursIn fault.trigger.toList text.toList

def used (fault : Fault) : Fault := { fault with times := fault.times.map (· - 1) }

/-- Ask faults in order about a call. The first one that concerns the call and has nothing left
to skip strikes; those before it that concern the call skip it. -/
def strike (text : String) : List Fault → Option String × List Fault
  | [] => (none, [])
  | fault :: rest =>
    if fault.concerns text then
      if fault.skip = 0 then (some fault.message, fault.used :: rest)
      else
        let (message, later) := strike text rest
        (message, { fault with skip := fault.skip - 1 } :: later)
    else
      let (message, later) := strike text rest
      (message, fault :: later)

end Fault

/-- Answers statements whose text contains `trigger`, without any effect. -/
structure Script where
  trigger : String
  rows : List (List Cell) := []
  affected : Nat := 0
deriving Repr

inductive Event where
  | opened (connection : Nat) (path : String)
  | cloned (connection : Nat)
  | executed (connection : Nat) (sql : String) (parameters : List Cell)
  | batched (connection : Nat) (sql : String)
  | prepared (connection : Nat) (sql : String)
  | queried (connection : Nat) (parameters : List Cell)
deriving Repr

structure Instance where
  /-- The contents that every connection without a transaction sees. -/
  data : Data := {}
  /-- The private copies, by connection. -/
  drafts : List (Nat × Data) := []
  /-- The number of the next connection. -/
  nextConnection : Nat := 0
  faults : List Fault := []
  scripts : List Script := []
  /-- The calls so far, oldest first. -/
  trace : List Event := []
deriving Inhabited

namespace Instance

def beginText : String := "BEGIN TRANSACTION"

def commitText : String := "COMMIT"

def rollbackText : String := "ROLLBACK"

def note (db : Instance) (event : Event) : Instance := { db with trace := db.trace ++ [event] }

/-- Whether a call fails, and with which text. -/
def strike (db : Instance) (text : String) : Option String × Instance :=
  let (message, faults) := Fault.strike text db.faults
  (message, { db with faults })

def script? (db : Instance) (sql : String) : Option Script :=
  db.scripts.find? fun script => Text.occursIn script.trigger.toList sql.toList

def inTransaction (db : Instance) (connection : Nat) : Bool :=
  (db.drafts.lookup connection).isSome

def view (db : Instance) (connection : Nat) : Data :=
  (db.drafts.lookup connection).getD db.data

def forget (db : Instance) (connection : Nat) : Instance :=
  { db with drafts := db.drafts.filter (·.1 ≠ connection) }

def store (db : Instance) (connection : Nat) (data : Data) : Instance :=
  if db.inTransaction connection then
    { db with drafts := (connection, data) :: (db.forget connection).drafts }
  else { db with data }

/-- A new connection to the same contents. -/
def clone (db : Instance) : Except String Nat × Instance :=
  let n := db.nextConnection
  let db := { db with nextConnection := n + 1 }.note (.cloned n)
  match db.strike "<clone>" with
  | (some message, db) => (.error message, db)
  | (none, db) => (.ok n, db)

/-- Close a connection; its transaction, if any, leaves no effects. -/
def close (db : Instance) (connection : Nat) : Instance := db.forget connection

def perform (db : Instance) (connection : Nat) (sql : String) (parameters : List Cell)
    (recorded : Bool) : Except String Outcome × Instance :=
  match (db.view connection).perform (Statement.read sql) parameters recorded with
  | .error message => (.error message, db)
  | .ok (data, outcome) => (.ok outcome, db.store connection data)

/-- Run a statement for the number of rows that it affects. -/
def execute (db : Instance) (connection : Nat) (sql : String) (parameters : List Cell) :
    Except String Nat × Instance :=
  match (db.note (.executed connection sql parameters)).strike sql with
  | (some message, db) => (.error message, db)
  | (none, db) =>
    match db.script? sql with
    | some script => (.ok script.affected, db)
    | none =>
      match db.perform connection sql parameters true with
      | (.error message, db) => (.error message, db)
      | (.ok outcome, db) => (.ok outcome.affected, db)

/-- Begin a transaction: copy the shared contents. -/
def beginOn (db : Instance) (connection : Nat) : Except String Unit × Instance :=
  if db.inTransaction connection then
    (.error ("TransactionContext Error: cannot start a transaction within a transaction"), db)
  else (.ok (), { db with drafts := (connection, db.data) :: db.drafts })

/-- Commit: the private copy becomes the shared contents. -/
def commitOn (db : Instance) (connection : Nat) : Except String Unit × Instance :=
  match db.drafts.lookup connection with
  | none => (.error "TransactionContext Error: cannot commit - no transaction is active", db)
  | some draft => (.ok (), { db.forget connection with data := draft })

/-- Roll back: the private copy is discarded. -/
def rollbackOn (db : Instance) (connection : Nat) : Except String Unit × Instance :=
  if db.inTransaction connection then (.ok (), db.forget connection)
  else (.error "TransactionContext Error: cannot rollback - no transaction is active", db)

/-- Send a text as a batch: the beginning or the end of a transaction, or one statement. -/
def batch (db : Instance) (connection : Nat) (sql : String) : Except String Unit × Instance :=
  match (db.note (.batched connection sql)).strike sql with
  | (some message, db) => (.error message, db)
  | (none, db) =>
    if sql = beginText then db.beginOn connection
    else if sql = commitText then db.commitOn connection
    else if sql = rollbackText then db.rollbackOn connection
    else
      match db.perform connection sql [] true with
      | (.error message, db) => (.error message, db)
      | (.ok _, db) => (.ok (), db)

/-- Read rows one after the other. All are read; the first one that fails is the error. -/
def readRows (db : Instance) : List (List Cell) → Except String (List (List Cell)) × Instance
  | [] => (.ok [], db)
  | row :: rest =>
    match db.strike "<row>" with
    | (some message, db) => (.error message, (db.readRows rest).2)
    | (none, db) =>
      match db.readRows rest with
      | (.error message, db) => (.error message, db)
      | (.ok rows, db) => (.ok (row :: rows), db)

/-- Prepare a statement, run it and read its rows. -/
def query (db : Instance) (connection : Nat) (sql : String) (parameters : List Cell) :
    Except String (List (List Cell)) × Instance :=
  match (db.note (.prepared connection sql)).strike sql with
  | (some message, db) => (.error message, db)
  | (none, db) =>
    match (db.note (.queried connection parameters)).strike "<query>" with
    | (some message, db) => (.error message, db)
    | (none, db) =>
      match db.script? sql with
      | some script => db.readRows script.rows
      | none =>
        match db.perform connection sql parameters false with
        | (.error message, db) => (.error message, db)
        | (.ok outcome, db) => db.readRows outcome.rows

/-- The trace so far, and the instance with an empty one. -/
def takeTrace (db : Instance) : List Event × Instance := (db.trace, { db with trace := [] })

end Instance
end Database
end SchemaMigration
