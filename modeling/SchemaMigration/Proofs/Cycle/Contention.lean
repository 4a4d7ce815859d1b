import Mathlib.Logic.Function.Basic
import SchemaMigration.Proofs.Cycle.Tenure
import SchemaMigration.Proofs.Session.Transcript

/-!
# SchemaMigration.Proofs.Cycle.Contention

Clients that run cycles on one schema at the same time, each call of each of them a step of its
own. The control tables exist, and the lock table has one row.

* `LockRow` : the flag, the number of committed updates of the row, and who set the flag last.
* `Transaction` : what a transaction has seen of the row and whether it has updated it.
* `Serves` : what the database may do at a call. A transaction sees the row as it was at one
  moment, its update of the row takes effect with its commit, and the commit succeeds only if no
  other update of the row was committed since that moment. Any call may fail; what is not about the
row may be answered in any way.
* `Step`, `Reachable` : a client begins a cycle or makes its next call.

Nothing but a cycle works on the row: nobody unlocks by hand, and a statement of a migration that
cleared the flag would be such an unlocking.
-/

namespace SchemaMigration

open Sql

structure LockRow (ι : Type) where
  flag : Bool
  /-- How many updates of the row were committed. -/
  version : Nat
  /-- The client whose update set the flag last, while it is set. -/
  setter : Option ι

namespace LockRow

variable {ι : Type}

def set (row : LockRow ι) (i : ι) : LockRow ι := ⟨true, row.version + 1, some i⟩

def clear (row : LockRow ι) : LockRow ι := ⟨false, row.version + 1, none⟩

end LockRow

/-- The flag and the version that a transaction sees. -/
structure Snapshot where
  flag : Bool
  version : Nat

/-- An open transaction, as far as the lock's row is concerned. -/
structure Transaction where
  /-- The row as the transaction sees it; it is taken at the first look at the latest. -/
  snapshot : Option Snapshot := none
  /-- Whether the transaction has set the flag. -/
  wrote : Bool := false

namespace Transaction

variable {ι : Type}

/-- What the transaction sees of a row. -/
def look (t : Transaction) (row : LockRow ι) : Snapshot :=
  t.snapshot.getD ⟨row.flag, row.version⟩

/-- The transaction after it has seen the row. -/
def looked (t : Transaction) (row : LockRow ι) : Transaction :=
  { t with snapshot := some (t.look row) }

end Transaction

def Request.isOnLock : Request → Bool
  | .control .isLocked _ | .control .acquireLock _ | .control .releaseLock _ => true
  | _ => false

/-- Calls that have nothing to do with the row or with a transaction as such. -/
def Call.isApart : Call → Bool
  | .execute _ request | .batch _ request | .query _ request => !request.isOnLock
  | .sleep _ => true
  | .begin | .commit | .rollback | .abandon => false

/-- Calls on the row in a form that no cycle uses. -/
def Call.isStray : Call → Bool
  | .query .transaction (.control .isLocked _) => false
  | .execute .transaction (.control .acquireLock _) => false
  | .execute .direct (.control .releaseLock _) => false
  | .execute _ request | .batch _ request | .query _ request => request.isOnLock
  | _ => false

/-- What the database may do at a call of client `i`: the reply, and the row and the client's
transaction after it. -/
inductive Serves {ι : Type} (i : ι) (row : LockRow ι) (open? : Option Transaction) :
    (c : Call) → c.Reply → LockRow ι → Option Transaction → Prop where
  | begin : Serves i row open? .begin (.ok ()) row (some {})
  | beginSeen : Serves i row open? .begin (.ok ()) row (some (Transaction.looked {} row))
  | beginFails (e : DatabaseError) : Serves i row open? .begin (.error e) row none
  | commit {t : Transaction} (ht : open? = some t) (hw : t.wrote = false) :
      Serves i row open? .commit (.ok ()) row none
  -- the update takes effect whether or not the client gets to know
  | commitUpdate {t : Transaction} (ht : open? = some t) (hw : t.wrote = true)
      (hv : (t.look row).version = row.version) (reply : Except DatabaseError Unit) :
      Serves i row open? .commit reply (row.set i) none
  | commitFails (e : DatabaseError) : Serves i row open? .commit (.error e) row none
  | rollback (reply : Except DatabaseError Unit) : Serves i row open? .rollback reply row none
  | abandon : Serves i row open? .abandon () row none
  | readFlag {t : Transaction} (ht : open? = some t) {cells : List Value} {answer : Row}
      (ha : answer.bool 0 = .ok (t.wrote || (t.look row).flag)) :
      Serves i row open? (.query .transaction (.control .isLocked cells)) (.ok [answer]) row
        (some (t.looked row))
  | setFlag {t : Transaction} (ht : open? = some t) (hw : t.wrote = false)
      (hf : (t.look row).flag = false) {cells : List Value} :
      Serves i row open? (.execute .transaction (.control .acquireLock cells)) (.ok 1) row
        (some { t.looked row with wrote := true })
  | setNothing {t : Transaction} (ht : open? = some t) {cells : List Value} :
      Serves i row open? (.execute .transaction (.control .acquireLock cells)) (.ok 0) row
        (some (t.looked row))
  | clearFlag {cells : List Value} (reply : Except DatabaseError Nat) :
      Serves i row open? (.execute .direct (.control .releaseLock cells)) reply row.clear open?
  | executeFails (scope : Scope) (request : Request) (e : DatabaseError) :
      Serves i row open? (.execute scope request) (.error e) row open?
  | queryFails (scope : Scope) (request : Request) (e : DatabaseError) :
      Serves i row open? (.query scope request) (.error e) row open?
  | apart {c : Call} (h : c.isApart = true) (reply : c.Reply) :
      Serves i row open? c reply row open?
  | stray {c : Call} (h : c.isStray = true) (reply : c.Reply) (row' : LockRow ι)
      (open?' : Option Transaction) : Serves i row open? c reply row' open?'

/-- A client: what is left of its cycle, and its transaction. -/
structure Client where
  session : Session (Except CycleError Report)
  transaction : Option Transaction := none

/-- The clients, the lock's row, and the calls of all clients so far, oldest first. -/
structure Contention (ι : Type) where
  row : LockRow ι
  clients : ι → Client
  history : List (ι × Exchange) := []

variable {ι : Type} [DecidableEq ι]

/-- The tenure of a client after some calls. -/
def tenureIn (history : List (ι × Exchange)) (i : ι) : Tenure :=
  history.foldl (fun t entry => if entry.1 = i then t.after entry.2.call entry.2.reply else t) .idle

/-- Whether a client is between an acquire that succeeded and its release. -/
def Holds (history : List (ι × Exchange)) (i : ι) : Prop := tenureIn history i = .holding

namespace Contention

/-- No cycle was begun yet; the flag may be set from earlier. -/
structure Initial (w : Contention ι) : Prop where
  history : w.history = []
  done : ∀ i, ∃ report, w.clients i = { session := .done report }

/-- A client without a cycle begins one, or a client makes the next call of its cycle. -/
inductive Step (schema : String) : Contention ι → Contention ι → Prop where
  | start {w : Contention ι} (i : ι) {report : Except CycleError Report}
      (h : (w.clients i).session = .done report) (engine : Engine) (hs : engine.schema = schema)
      (graph : MigrationGraph) :
      Step schema w { w with
        clients := Function.update w.clients i { session := (engine.apply graph).run } }
  | call {w : Contention ι} (i : ι) {c : Call} {next : c.Reply → Session (Except CycleError Report)}
      (h : (w.clients i).session = .call c next) {reply : c.Reply} {row : LockRow ι}
      {t : Option Transaction} (hr : Serves i w.row (w.clients i).transaction c reply row t) :
      Step schema w {
        row
        clients := Function.update w.clients i { session := next reply, transaction := t }
        history := w.history ++ [(i, ⟨c, reply⟩)] }

inductive Reachable (schema : String) : Contention ι → Prop where
  | initial {w : Contention ι} (h : w.Initial) : Reachable schema w
  | step {w w' : Contention ι} (h : Reachable schema w) (hs : Step schema w w') :
      Reachable schema w'

end Contention
end SchemaMigration
