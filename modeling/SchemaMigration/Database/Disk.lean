import SchemaMigration.Database.Address
import SchemaMigration.Database.Instance
import SchemaMigration.FileSystem.Tree

/-!
# SchemaMigration.Database.Disk

Databases in files. A database is opened from a file, or in memory where it leaves nothing behind.

* `Disk` : the files, and the contents of those that hold a database.
* `Disk.openDatabase` : open the database at a path; a missing file is created.
* `Disk.save` : keep the contents of a database that was opened from a file.
* `Disk.connect` : open the database of a kind.
-/

namespace SchemaMigration
namespace Database

structure Disk where
  tree : Tree := .empty
  /-- The contents by location; the latest ones come first. -/
  databases : List (Location × Data) := []
deriving Inhabited

def memoryPath : String := ":memory:"

/-- An opened database and the place where its contents belong. -/
structure Opened where
  home : Option Location
  disk : Disk
  database : Instance

namespace Disk

def save (disk : Disk) (home : Option Location) (data : Data) : Disk :=
  match home with
  | none => disk
  | some location => { disk with databases := (location, data) :: disk.databases }

/-- Where the database at a path lives and what it holds: a file keeps its contents, and a
missing file is created without any. -/
def find (disk : Disk) (path : String) : Except String (Location × Data × Disk) :=
  let failure : String := "IO Error: Cannot open file \"" ++ path ++ "\""
  match disk.tree.resolve? ⟨path⟩ with
  | none => .error failure
  | some location =>
    match disk.tree.entryAt? location with
    | some .directory => .error failure
    | some (.file _) => .ok (location, (disk.databases.lookup location).getD {}, disk)
    | none => .ok (location, {}, { disk with tree := disk.tree.write location (.text "") })

/-- Open the database at a path. Connection numbers, faults, scripts and the trace go on from
`before`. -/
def openDatabase (disk : Disk) (before : Instance) (path : String) :
    Except DatabaseError Opened × Instance :=
  let n := before.nextConnection
  let db := { before with nextConnection := n + 1, drafts := [] }.note (.opened n path)
  let inMemory : Bool := path == memoryPath
  let shown (message : String) : DatabaseError :=
    .connection (if inMemory then message else message ++ ": " ++ path)
  match db.strike "<open>" with
  | (some message, db) => (.error (shown message), db)
  | (none, db) =>
    if inMemory then (.ok ⟨none, disk, { db with data := {} }⟩, db)
    else
      match disk.find path with
      | .error message => (.error (shown message), db)
      | .ok (location, data, disk) => (.ok ⟨some location, disk, { db with data }⟩, db)

/-- Open the database of a kind: an embedded one at a path, or one on a server. -/
def connect (disk : Disk) (before : Instance) (kind : DatabaseKind) (path : String) :
    Except DatabaseError Opened × Instance :=
  match kind with
  | .duckdb => disk.openDatabase before path
  | .postgres => (.error (Address.connectError path), before)

end Disk
end Database
end SchemaMigration
