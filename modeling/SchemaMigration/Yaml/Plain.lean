import SchemaMigration.Yaml.Node

/-!
# SchemaMigration.Yaml.Plain

What plain scalars say where something else than a text is asked for.

* `isNull` : the words for nothing.
* `unsigned?` : natural numbers.
* `Document.text?`, `Document.optional?`, `Document.number?`, `Document.items?`,
  `Document.fields?` : the contents of a node of some shape.
-/

namespace SchemaMigration
namespace Yaml

/-- The words for nothing. -/
def isNull (text : String) : Bool := ["null", "Null", "NULL", "~"].contains text

def nullTag : String := "tag:yaml.org,2002:null"

/-- A digit of a base that is 16 at most. -/
def digit? (base : Nat) (c : Char) : Option Nat :=
  match hexDigit? c with
  | some n => if n < base then some n else none
  | none => none

/-- The number that digits spell in a base; there is one digit at least. -/
def natural? (base : Nat) (digits : List Char) : Option Nat :=
  if digits.isEmpty then none
  else digits.foldlM (fun n c => (digit? base c).map (base * n + ·)) 0

/-- The base that a text names at its beginning, and the digits behind. -/
def base? : List Char → Option (Nat × List Char)
  | '0' :: 'x' :: digits => some (16, digits)
  | '0' :: 'o' :: digits => some (8, digits)
  | '0' :: 'b' :: digits => some (2, digits)
  | _ => none

/-- The natural number that a text spells, with a plus sign or without. A decimal number has no
zero in front. -/
def unsigned? (text : List Char) : Option Nat :=
  let unsigned :=
    match text with
    | '+' :: rest => rest
    | other => other
  match base? unsigned with
  | some (base, digits) => natural? base digits
  | none =>
    match unsigned with
    | '0' :: _ :: _ => none
    | digits => natural? 10 digits

namespace Document

/-- The node itself, or the one that it refers to. -/
def follow? (document : Document) : Node → Option Node
  | .alias id => document.target? id
  | node => some node

/-- A scalar's text; quotes and tags do not matter. -/
def text? (document : Document) (node : Node) : Option String :=
  match document.follow? node with
  | some (.scalar _ _ text) => some text
  | _ => none

/-- Nothing, or what `read` makes of the node. Only a plain scalar says nothing. -/
def optional? {α : Type} (document : Document) (read : Node → Option α) (node : Node) :
    Option (Option α) :=
  match document.follow? node with
  | some (.scalar none true text) =>
    if text.isEmpty || isNull text then some none else (read node).map some
  | some (.scalar (some tag) true text) =>
    if tag = nullTag then if isNull text then some none else none
    else (read node).map some
  | some _ => (read node).map some
  | none => none

/-- A number from a plain scalar, up to `greatest`. -/
def number? (document : Document) (greatest : Nat) (node : Node) : Option Nat :=
  match document.follow? node with
  | some (.scalar _ true text) =>
    match unsigned? text.toList with
    | some n => if n ≤ greatest then some n else none
    | none => none
  | _ => none

/-- The items of a sequence; where nothing is written there are none. -/
def items? (document : Document) (node : Node) : Option (List Node) :=
  match document.follow? node with
  | some (.sequence items) => some items
  | some (.scalar _ true text) => if text.isEmpty then some [] else none
  | _ => none

/-- The pairs of a mapping whose keys are texts; where nothing is written there are none. -/
def fields? (document : Document) (node : Node) : Option (List (String × Node)) :=
  match document.follow? node with
  | some (.mapping pairs) =>
    pairs.mapM fun (key, value) => (document.text? key).map (·, value)
  | some (.scalar _ true text) => if text.isEmpty then some [] else none
  | _ => none

/-- The fields of a mapping, each of them one of `names` and there once at most. -/
def record? (document : Document) (names : List String) (node : Node) :
    Option (List (String × Node)) :=
  match document.fields? node with
  | none => none
  | some fields =>
    let keys := fields.map (·.1)
    if keys.all names.contains && keys.eraseDups.length == keys.length then some fields else none

end Document
end Yaml
end SchemaMigration
