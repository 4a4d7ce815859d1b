import SchemaMigration.Proofs.Session.Run
import SchemaMigration.Proofs.Sql.Execution

/-!
# SchemaMigration.Proofs.Database.Server

A database that runs the statements on the control tables as they are written.

* `Server` : the tables, the tables as the open transaction sees them, and whether a call failed.
* `Server.Answers` : a call with its reply. Calls may fail for no reason, unless `mayFail` is
  excluded. A call that fails leaves no trace, and a commit that fails rolls back.
* `Server.protocol` : the calls that are answered at all.
* `Server.meets_execute`, `Server.meets_query` : one request, in terms of what its text says.
* `Server.meets_inTransaction` : a transaction that is to be committed.
-/

namespace SchemaMigration

open Sql Attempt

structure Server where
  tables : Tables
  /-- The tables inside the open transaction. -/
  draft : Option Tables := none
  /-- Whether a call failed that the tables allowed. -/
  failed : Bool := false

namespace Server

def view (s : Server) : Scope → Option Tables
  | .direct => some s.tables
  | .transaction => s.draft

def store (s : Server) (scope : Scope) (tables : Tables) : Server :=
  match scope with
  | .direct => { s with tables }
  | .transaction => { s with draft := some tables }

def closed (s : Server) : Server := { s with draft := none }

def failing (s : Server) : Server := { s with failed := true }

def calm (s : Server) : Server := { s with failed := false }

/-- A call at a time, which is a count of microseconds since the start of 1970. A batch, of which
the log is never part, has no answer here. -/
inductive Answers (schema : String) (now : Int) (mayFail : Prop) (s : Server) :
    (c : Call) → c.Reply → Server → Prop where
  | begin (h : s.draft = none) :
      Answers schema now mayFail s .begin (.ok ()) { s with draft := some s.tables }
  | beginFails (hf : mayFail) (e : DatabaseError) :
      Answers schema now mayFail s .begin (.error e) s.failing
  | commit {tables : Tables} (h : s.draft = some tables) :
      Answers schema now mayFail s .commit (.ok ()) { s with tables, draft := none }
  | commitFails (hf : mayFail) (e : DatabaseError) :
      Answers schema now mayFail s .commit (.error e) s.closed.failing
  | rollback : Answers schema now mayFail s .rollback (.ok ()) s.closed
  | rollbackFails (hf : mayFail) (e : DatabaseError) :
      Answers schema now mayFail s .rollback (.error e) s.closed.failing
  | abandon : Answers schema now mayFail s .abandon () s.closed
  | sleep (milliseconds : Nat) : Answers schema now mayFail s (.sleep milliseconds) () s
  | execute {scope : Scope} {request : Request} {tables tables' : Tables} {affected : Nat}
      (hview : s.view scope = some tables)
      (h : Executes (.timestamp .microsecond now) tables (request.sql (.builtin .duckdb) schema)
        (request.parameters.map Cell.ofValue) tables' affected) :
      Answers schema now mayFail s (.execute scope request) (.ok affected) (s.store scope tables')
  -- the tables do not allow what the text says
  | executeRefused {scope : Scope} {request : Request} {tables : Tables}
      (hview : s.view scope = some tables)
      (h : ∀ tables' affected, ¬ Executes (.timestamp .microsecond now) tables
        (request.sql (.builtin .duckdb) schema) (request.parameters.map Cell.ofValue) tables'
        affected) (e : DatabaseError) :
      Answers schema now mayFail s (.execute scope request) (.error e) s
  | executeFails {scope : Scope} {request : Request} (hf : mayFail) (e : DatabaseError) :
      Answers schema now mayFail s (.execute scope request) (.error e) s.failing
  | query {scope : Scope} {request : Request} {tables : Tables} {rows : List Row}
      (hview : s.view scope = some tables) (hbound : request.parameters = [])
      (h : Selects tables (request.sql (.builtin .duckdb) schema) rows) :
      Answers schema now mayFail s (.query scope request) (.ok rows) s
  | queryRefused {scope : Scope} {request : Request} {tables : Tables}
      (hview : s.view scope = some tables) (hbound : request.parameters = [])
      (h : ∀ rows, ¬ Selects tables (request.sql (.builtin .duckdb) schema) rows)
      (e : DatabaseError) : Answers schema now mayFail s (.query scope request) (.error e) s
  | queryFails {scope : Scope} {request : Request} (hf : mayFail) (e : DatabaseError) :
      Answers schema now mayFail s (.query scope request) (.error e) s.failing

theorem Answers.mono {schema : String} {now : Int} {mayFail mayFail' : Prop} {s t : Server}
    {c : Call} {reply : c.Reply} (hsub : mayFail → mayFail')
    (h : Answers schema now mayFail s c reply t) : Answers schema now mayFail' s c reply t := by
  cases h with
  | begin h => exact .begin h
  | beginFails hf e => exact .beginFails (hsub hf) e
  | commit h => exact .commit h
  | commitFails hf e => exact .commitFails (hsub hf) e
  | rollback => exact .rollback
  | rollbackFails hf e => exact .rollbackFails (hsub hf) e
  | abandon => exact .abandon
  | sleep n => exact .sleep n
  | execute hview h => exact .execute hview h
  | executeRefused hview h e => exact .executeRefused hview h e
  | executeFails hf e => exact .executeFails (hsub hf) e
  | query hview hbound h => exact .query hview hbound h
  | queryRefused hview hbound h e => exact .queryRefused hview hbound h e
  | queryFails hf e => exact .queryFails (hsub hf) e

/-- Every call that has an answer may be made. -/
def protocol (schema : String) (now : Int) (mayFail : Prop) : Protocol Server where
  allows s c := ∃ reply t, Answers schema now mayFail s c reply t
  answers := Answers schema now mayFail

variable {schema : String} {now : Int} {mayFail : Prop} {s : Server} {tables : Tables}
  {scope : Scope} {request : Request} {relation : Relation} {fails : CycleError → Server → Prop}

/-- A statement that changes a table. It is refused when the declaration does not allow the rows
after it. -/
theorem meets_execute {command : Command} {cells : List Cell} {post : Nat → Server → Prop}
    (hview : s.view scope = some tables)
    (hread : Command.read? (request.sql (.builtin .duckdb) schema) = some command)
    (htable : tables command.table = some relation)
    (hcells : Term.cells? (.timestamp .microsecond now) command.values
      (request.parameters.map Cell.ofValue) = some cells)
    {changed : Relation} (hchanged : changed =
      ⟨relation.columns, (command.change cells relation.rows).1⟩)
    (hok : changed.Valid → post (command.change cells relation.rows).2
      (s.store scope (tables.put command.table changed)))
    (hrefused : ¬ changed.Valid → ∀ e, fails (.database e) s)
    (hfails : mayFail → ∀ e, fails (.database e) s.failing) :
    Meets (protocol schema now mayFail) post fails (execute scope request) s := by
  subst hchanged
  have hiff := @executes_iff (.timestamp .microsecond now) _ _ _ _ _ _ hread htable hcells
  refine Attempt.meets_execute.mpr ⟨?_, fun reply t ha => ?_⟩
  · by_cases hvalid : Relation.Valid ⟨relation.columns, (command.change cells relation.rows).1⟩
    · exact ⟨_, _, .execute hview (hiff.mpr ⟨hvalid, rfl, rfl⟩)⟩
    · exact ⟨_, _, .executeRefused hview (fun _ _ h => hvalid (hiff.mp h).1) (.execution "")⟩
  · cases ha with
    | execute hview' h =>
      cases hview.symm.trans hview'
      obtain ⟨hvalid, rfl, rfl⟩ := hiff.mp h
      exact hok hvalid
    | executeRefused hview' h =>
      cases hview.symm.trans hview'
      exact hrefused (fun hvalid => h _ _ (hiff.mpr ⟨hvalid, rfl, rfl⟩)) _
    | executeFails hf => exact hfails hf _

/-- A query, which may show the rows of the table in any order. -/
theorem meets_query {columns : List String} {table : TableRef} {sortedBy : String}
    {post : List Row → Server → Prop} (hview : s.view scope = some tables)
    (hbound : request.parameters = [])
    (hread : Command.read? (request.sql (.builtin .duckdb) schema) =
      some (.select columns table sortedBy)) (htable : tables table = some relation)
    (hok : ∀ rows : List Record, rows.Perm relation.rows →
      post (rows.map (Record.shown columns)) s)
    (hfails : mayFail → ∀ e, fails (.database e) s.failing) :
    Meets (protocol schema now mayFail) post fails (query scope request) s := by
  obtain ⟨shown, hshown⟩ := exists_selects hread htable
  refine Attempt.meets_query.mpr ⟨⟨_, _, .query hview hbound hshown⟩, fun reply t ha => ?_⟩
  cases ha with
  | query hview' _ h =>
    cases hview.symm.trans hview'
    obtain ⟨rows, hperm, rfl⟩ := h.exists_perm hread htable
    exact hok rows hperm
  | queryRefused hview' _ h =>
    cases hview.symm.trans hview'
    exact absurd hshown (h shown)
  | queryFails hf => exact hfails hf _

/-- A transaction whose work is to be committed. Unless everything succeeds, only the failure is
left of it. -/
theorem meets_inTransaction {work : Attempt Unit} {good : Tables → Prop} (hclosed : s.draft = none)
    (hwork : Meets (protocol schema now mayFail)
      (fun _ t => ∃ draft, t = { s with draft := some draft } ∧ good draft)
      (fun e t => t.closed = s.failing ∧ fails e s.failing) work { s with draft := some s.tables })
    (hends : mayFail → ∀ e, fails (.database e) s.failing) :
    Meets (protocol schema now mayFail) (fun _ t => ∃ tables, t = { s with tables } ∧ good tables)
      fails (inTransaction do work; pure (.commit, ())) s := by
  obtain ⟨tables, draft, failed⟩ := s
  cases hclosed
  refine Attempt.meets_inTransaction.mpr ⟨⟨_, _, .begin rfl⟩, fun reply t ha => ?_⟩
  cases ha with
  | beginFails hf => exact hends hf _
  | begin =>
    refine meets_bind.mpr (hwork.mono ?_ ?_)
    · rintro _ t ⟨draft, rfl, hgood⟩
      refine meets_ofReply.mpr ⟨⟨_, _, .commit rfl⟩, fun reply t ha => ?_⟩
      cases ha with
      | commit hdraft =>
        cases hdraft
        exact ⟨draft, rfl, hgood⟩
      | commitFails hf => exact hends hf _
    · rintro e t ⟨hclosed, hfails⟩
      refine ⟨⟨_, _, .abandon⟩, fun reply u ha => ?_⟩
      cases ha
      exact hclosed ▸ hfails

end Server
end SchemaMigration
