import SchemaMigration.Migration.Basic
import SchemaMigration.Ordering.Component
import SchemaMigration.Ordering.Roots
import SchemaMigration.Ordering.Sweep

/-!
# SchemaMigration.Ordering.MigrationGraph

The order in which migrations run. Migrations that their ordering constraints connect form a
cluster, which is put in order on its own; clusters follow each other by the smallest natural
order among their roots.

* `Cluster` : a component with its key, its roots and its members in execution order.
* `MigrationGraph` : migrations with their graph and their clusters.
* `MigrationGraph.build` : the graph of a list of migrations, or what is wrong with the list.
* `MigrationGraph.orderedNames`, `orderedMigrations`, `takeOrdered` : the execution order.
* `MigrationGraph.previous`, `next` : the direct neighbours of a migration.
-/

namespace SchemaMigration

/-- A maximal group of connected migrations. -/
structure Cluster where
  /-- The smallest natural order among the roots. -/
  key : Nat
  /-- The members without predecessor, by natural order and name. -/
  roots : List Name
  /-- All members, in execution order. -/
  members : List Name
deriving DecidableEq, Repr

structure MigrationGraph where
  migrations : List Migration
  graph : Digraph Name
  clusters : List Cluster

def findMigration? (migrations : List Migration) (name : Name) : Option Migration :=
  migrations.find? (·.name = name)

def orderOf (migrations : List Migration) (name : Name) : Nat :=
  match findMigration? migrations name with
  | some migration => migration.naturalOrder
  | none => 0

/-- Whether a name comes before another by natural order and then by name. -/
def comesFirst (migrations : List Migration) (a b : Name) : Bool :=
  let x := orderOf migrations a
  let y := orderOf migrations b
  x < y || (x == y && a.le b)

/-- The first name that has occurred before. -/
def firstRepeat? : (seen : List Name) → List Name → Option Name
  | _, [] => none
  | seen, name :: rest =>
    if name ∈ seen then some name else firstRepeat? (name :: seen) rest

/-- The edges of one kind of constraint, in the order of its targets. -/
def constraintEdges (names : List Name) (migration : Migration) (constraint : Constraint) :
    List Name → Except InputError (List (Name × Name))
  | [] => .ok []
  | target :: rest =>
    if target ∈ names then
      match constraintEdges names migration constraint rest with
      | .error e => .error e
      | .ok edges =>
        match constraint with
        | .runAfter => .ok ((target, migration.name) :: edges)
        | .runBefore => .ok ((migration.name, target) :: edges)
    else .error (.unknownReference migration.name constraint target)

/-- The edges that migrations declare, migration after migration, `runAfter` before `runBefore`.
The first target that is not among `names` is the error. -/
def declaredEdges (names : List Name) : List Migration → Except InputError (List (Name × Name))
  | [] => .ok []
  | migration :: rest =>
    match constraintEdges names migration .runAfter migration.parameters.runAfter with
    | .error e => .error e
    | .ok after =>
      match constraintEdges names migration .runBefore migration.parameters.runBefore with
      | .error e => .error e
      | .ok before =>
        match declaredEdges names rest with
        | .error e => .error e
        | .ok edges => .ok (after ++ before ++ edges)

def orderComponent (migrations : List Migration) (graph : Digraph Name) (members : List Name) :
    Except (List Name) Cluster :=
  match graph.roots members with
  | .error walk => .error walk
  | .ok found =>
    let roots := found.mergeSort (comesFirst migrations)
    .ok {
      key := ((roots.map (orderOf migrations)).min?).getD
        ((members.head?.map (orderOf migrations)).getD 0)
      roots
      members := graph.sweep (comesFirst migrations) roots members.length }

/-- Put components in order one after the other; the first closed walk is the error. -/
def orderComponents (migrations : List Migration) (graph : Digraph Name) :
    List (List Name) → Except (List Name) (List Cluster)
  | [] => .ok []
  | members :: rest =>
    match orderComponent migrations graph members with
    | .error walk => .error walk
    | .ok cluster =>
      match orderComponents migrations graph rest with
      | .error walk => .error walk
      | .ok clusters => .ok (cluster :: clusters)

namespace MigrationGraph

/-- The graph of migrations. Their names have to be distinct, their constraints have to name
migrations of the list, and the constraints must not close a cycle; the checks are made in this
order. Clusters with equal keys stay in the order in which the list first meets them. -/
def build (migrations : List Migration) : Except InputError MigrationGraph :=
  let names := migrations.map (·.name)
  match firstRepeat? [] names with
  | some name => .error (.duplicateMigration name)
  | none =>
    match declaredEdges names migrations with
    | .error e => .error e
    | .ok declared =>
      let graph := Digraph.ofDeclared names declared
      match orderComponents migrations graph graph.components with
      | .error walk => .error (.circularDependency walk)
      | .ok clusters =>
        .ok ⟨migrations, graph, clusters.mergeSort fun a b => a.key ≤ b.key⟩

def size (graph : MigrationGraph) : Nat := graph.migrations.length

def isEmpty (graph : MigrationGraph) : Bool := graph.migrations.isEmpty

def get? (graph : MigrationGraph) (name : Name) : Option Migration :=
  findMigration? graph.migrations name

def contains (graph : MigrationGraph) (name : Name) : Bool := (graph.get? name).isSome

def orderedNames (graph : MigrationGraph) : List Name := graph.clusters.flatMap (·.members)

def orderedMigrations (graph : MigrationGraph) : List Migration :=
  graph.orderedNames.filterMap graph.get?

def takeByName : (store : List Migration) → List Name → List Migration
  | _, [] => []
  | store, name :: rest =>
    match findMigration? store name with
    | none => takeByName store rest
    | some migration => migration :: takeByName (store.filter (·.name ≠ name)) rest

/-- The graph's migrations handed over in execution order, each once. -/
def takeOrdered (graph : MigrationGraph) : List Migration :=
  takeByName graph.migrations graph.orderedNames

/-- Migrations by natural order; equal ones stay as they are. -/
def byNaturalOrder (migrations : List Migration) : List Migration :=
  migrations.mergeSort fun a b => a.naturalOrder ≤ b.naturalOrder

/-- The migrations that run directly before the one with a name. -/
def previous (graph : MigrationGraph) (name : Name) : List Migration :=
  byNaturalOrder ((graph.graph.predecessors name).filterMap graph.get?)

/-- The migrations that run directly after the one with a name. -/
def next (graph : MigrationGraph) (name : Name) : List Migration :=
  byNaturalOrder ((graph.graph.successors name).filterMap graph.get?)

end MigrationGraph
end SchemaMigration
