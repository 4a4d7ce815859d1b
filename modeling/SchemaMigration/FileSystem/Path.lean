import SchemaMigration.Text.Split

/-!
# SchemaMigration.FileSystem.Path

Paths as the user writes them, and the parts that they have. A path keeps its text; two texts
with the same parts name the same place.

* `Component`, `Path.components` : the parts, in the order that sorts a directory before what
  stands beside it under a longer name.
* `Path.join` : a path below another one.
* `Path.parent?`, `Path.fileName?`, `Path.extension?` : what the last part says.
-/

namespace SchemaMigration

structure Path where
  text : String
deriving DecidableEq, Repr, Inhabited

/-- A part of a path. `current` is only the dot that begins a path. -/
inductive Component where
  | root
  | current
  | parent
  | name (text : String)
deriving DecidableEq, Repr

namespace Component

/-- The kinds in ascending order. -/
def rank : Component → Nat
  | root => 0
  | current => 1
  | parent => 2
  | name _ => 3

def ofSegment (segment : List Char) : Component :=
  if segment = ['.', '.'] then parent else name (String.ofList segment)

/-- By kind first, names by their text. -/
def compare : Component → Component → Ordering
  | name a, name b => Ord.compare a b
  | a, b => Ord.compare a.rank b.rank

end Component

namespace Path

def segments (path : Path) : List (List Char) := Text.splitOn '/' path.text.toList

def isAbsolute (path : Path) : Bool := path.text.toList.head? = some '/'

/-- A segment that adds no part: nothing between two slashes, or a dot. -/
def isIdle (segment : List Char) : Bool := segment = [] || segment = ['.']

/-- The parts of a path. Repeated slashes, a slash at the end and dots inside add none. -/
def components (path : Path) : List Component :=
  if path.isAbsolute then
    .root :: (path.segments.filter (!isIdle ·)).map Component.ofSegment
  else
    match path.segments with
    | ['.'] :: rest => .current :: (rest.filter (!isIdle ·)).map Component.ofSegment
    | all => (all.filter (!isIdle ·)).map Component.ofSegment

/-- Lexicographic comparison of the parts; the shorter of two comes first where all agree. -/
def compareComponents : List Component → List Component → Ordering
  | [], [] => .eq
  | [], _ :: _ => .lt
  | _ :: _, [] => .gt
  | a :: as, b :: bs =>
    match a.compare b with
    | .eq => compareComponents as bs
    | other => other

/-- Whether `a` sorts before `b` or has the same parts. -/
def le (a b : Path) : Bool := (compareComponents a.components b.components).isLE

/-- The path `below` seen from `base`; an absolute one stays. -/
def join (base : Path) (below : String) : Path :=
  let start := base.text.toList
  if (Path.mk below).isAbsolute || start.isEmpty then ⟨below⟩
  else if start.getLast? = some '/' then ⟨base.text ++ below⟩
  else ⟨base.text ++ "/" ++ below⟩

/-- Drop the idle segments at the end of a reversed list of segments; a dot at the beginning of
the path, which is the last one here, is a part and stays. -/
def dropIdle : List (List Char) → List (List Char)
  | [] => []
  | [segment] => if segment.isEmpty then [] else [segment]
  | segment :: before => if isIdle segment then dropIdle before else segment :: before

/-- The text of the path that reversed segments make. -/
def ofReversed (absolute : Bool) (segments : List (List Char)) : Path :=
  match segments with
  | [] => ⟨if absolute then "/" else ""⟩
  | _ :: _ => ⟨String.ofList (Text.joinWith ['/'] segments.reverse)⟩

/-- The path without its last part; none for the root and for the empty path. -/
def parent? (path : Path) : Option Path :=
  match dropIdle path.segments.reverse with
  | [] => none
  | _ :: before => some (ofReversed path.isAbsolute (dropIdle before))

def fileName? (path : Path) : Option String :=
  match path.components.getLast? with
  | some (.name text) => some text
  | _ => none

/-- What follows the last point of a name, if something stands before the point. -/
def extension? (name : String) : Option String :=
  match Text.cutLast? '.' name.toList with
  | some (_ :: _, after) => some (String.ofList after)
  | _ => none

end Path
end SchemaMigration
