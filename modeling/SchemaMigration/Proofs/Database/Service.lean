import SchemaMigration.Database.Data
import SchemaMigration.Database.Session

/-!
# SchemaMigration.Proofs.Database.Service

A database that serves one session, with all the ways in which its calls can go wrong.

* `Service` : the contents, and the contents as the open transaction sees them.
* `Request.statement` : what a request is meant to do in a schema.
* `Effect` : what a request does to contents. A statement of a migration may do anything that
  leaves the control tables as they are.
* `Torn` : what is left when a batch of statements fails on its way.
* `Answers` : a call, its reply and the contents after it. A transaction takes effect as a whole
  or not at all, and the client may not get to know which; `mayFail` says which calls can fail for
  reasons that are not in the contents.
-/

namespace SchemaMigration

open Sql

/-- The statement that a request stands for. -/
def Request.statement (schema : String) : Request → Database.Statement
  | .control .tableExists _ => .tableExists
  | .control .createControlTables _ => .createControlTables schema
  | .control .isLocked _ => .readFlag (ControlTable.lock.inSchema schema)
  | .control .acquireLock _ => .setFlag (ControlTable.lock.inSchema schema)
  | .control .releaseLock _ => .clearFlags (ControlTable.lock.inSchema schema)
  | .control .selectLog _ => .readLog (ControlTable.log.inSchema schema)
  | .control .insertLog _ => .insertRow (ControlTable.log.inSchema schema)
  | .control .updateLog _ => .updateRow (ControlTable.log.inSchema schema)
  | .control .updateRunOrder _ => .moveRow (ControlTable.log.inSchema schema)
  | .migration text => .opaqueText text

namespace Database

/-- The contents of a database while it serves a session. -/
structure Service where
  data : Data
  /-- The contents inside the open transaction. -/
  draft : Option Data := none

namespace Service

def view (service : Service) : Scope → Option Data
  | .direct => some service.data
  | .transaction => service.draft

def store (service : Service) (scope : Scope) (data : Data) : Service :=
  match scope with
  | .direct => { service with data }
  | .transaction => { service with draft := some data }

def closed (service : Service) : Service := { data := service.data }

end Service

inductive Effect (schema : String) (data : Data) : Request → Data → Outcome → Prop where
  | control {purpose : ControlStatement} {cells : List Value} {data' : Data} {outcome : Outcome}
      (h : data.perform ((Request.control purpose cells).statement schema)
        (cells.map Cell.ofValue) true = .ok (data', outcome)) :
      Effect schema data (.control purpose cells) data' outcome
  | migration (text : String) {data' : Data} (outcome : Outcome)
      (h : ∀ table : ControlTable,
        data'.rows? (table.inSchema schema) = data.rows? (table.inSchema schema)) :
      Effect schema data (.migration text) data' outcome

/-- What a failing batch leaves: as much as it had done. -/
inductive Torn (schema : String) (data : Data) : Request → Data → Prop where
  | whole {request : Request} {data' : Data} {outcome : Outcome}
      (h : Effect schema data request data' outcome) : Torn schema data request data'
  | nothing (request : Request) : Torn schema data request data
  | logOnly (cells : List Value) : Torn schema data (.control .createControlTables cells)
      (data.ensure (ControlTable.log.inSchema schema))
  | withoutRow (cells : List Value) : Torn schema data (.control .createControlTables cells)
      ((data.ensure (ControlTable.log.inSchema schema)).ensure (ControlTable.lock.inSchema schema))

/-- The rows of a result as the program gets them. -/
def shownRows (outcome : Outcome) : List Row :=
  outcome.rows.map fun cells => ⟨cells.map Cell.value⟩

/-- A call that is served, its reply, and the contents after it. -/
inductive Answers (schema : String) (mayFail : Call → Prop) (s : Service) :
    (c : Call) → c.Reply → Service → Prop where
  | begin : Answers schema mayFail s .begin (.ok ()) { s with draft := some s.data }
  | beginFails (h : mayFail .begin) (e : DatabaseError) :
      Answers schema mayFail s .begin (.error e) s
  | commit {data : Data} (h : s.draft = some data) :
      Answers schema mayFail s .commit (.ok ()) { data }
  | commitUnknown {data : Data} (h : s.draft = some data) (hf : mayFail .commit)
      (e : DatabaseError) : Answers schema mayFail s .commit (.error e) { data }
  | commitFails (hf : mayFail .commit) (e : DatabaseError) :
      Answers schema mayFail s .commit (.error e) s.closed
  | rollback : Answers schema mayFail s .rollback (.ok ()) s.closed
  | rollbackFails (hf : mayFail .rollback) (e : DatabaseError) :
      Answers schema mayFail s .rollback (.error e) s.closed
  | abandon : Answers schema mayFail s .abandon () s.closed
  | sleep (milliseconds : Nat) : Answers schema mayFail s (.sleep milliseconds) () s
  | execute {scope : Scope} {request : Request} {data data' : Data} {outcome : Outcome}
      (hv : s.view scope = some data) (he : Effect schema data request data' outcome) :
      Answers schema mayFail s (.execute scope request) (.ok outcome.affected)
        (s.store scope data')
  | executeUnknown {scope : Scope} {request : Request} {data data' : Data} {outcome : Outcome}
      (hv : s.view scope = some data) (he : Effect schema data request data' outcome)
      (hf : mayFail (.execute scope request)) (e : DatabaseError) :
      Answers schema mayFail s (.execute scope request) (.error e) (s.store scope data')
  | executeFails {scope : Scope} {request : Request} (hf : mayFail (.execute scope request))
      (e : DatabaseError) : Answers schema mayFail s (.execute scope request) (.error e) s
  -- the contents do not allow the statement
  | executeRefused {scope : Scope} {purpose : ControlStatement} {cells : List Value}
      {data : Data} {message : String} (hv : s.view scope = some data)
      (hr : data.perform ((Request.control purpose cells).statement schema)
        (cells.map Cell.ofValue) true = .error message) (e : DatabaseError) :
      Answers schema mayFail s (.execute scope (.control purpose cells)) (.error e) s
  | batch {scope : Scope} {request : Request} {data data' : Data} {outcome : Outcome}
      (hv : s.view scope = some data) (he : Effect schema data request data' outcome) :
      Answers schema mayFail s (.batch scope request) (.ok ()) (s.store scope data')
  | batchTorn {scope : Scope} {request : Request} {data data' : Data}
      (hv : s.view scope = some data) (ht : Torn schema data request data')
      (hf : mayFail (.batch scope request)) (e : DatabaseError) :
      Answers schema mayFail s (.batch scope request) (.error e) (s.store scope data')
  | query {scope : Scope} {request : Request} {data data' : Data} {outcome : Outcome}
      (hv : s.view scope = some data) (he : Effect schema data request data' outcome) :
      Answers schema mayFail s (.query scope request) (.ok (shownRows outcome))
        (s.store scope data')
  | queryRefused {scope : Scope} {purpose : ControlStatement} {cells : List Value} {data : Data}
      {message : String} (hv : s.view scope = some data)
      (hr : data.perform ((Request.control purpose cells).statement schema)
        (cells.map Cell.ofValue) true = .error message) (e : DatabaseError) :
      Answers schema mayFail s (.query scope (.control purpose cells)) (.error e) s
  | queryFails {scope : Scope} {request : Request} (hf : mayFail (.query scope request))
      (e : DatabaseError) : Answers schema mayFail s (.query scope request) (.error e) s

end Database
end SchemaMigration
