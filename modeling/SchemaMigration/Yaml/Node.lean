import SchemaMigration.Yaml.TokenStream

/-!
# SchemaMigration.Yaml.Node

The content of a text as a tree.

* `Node` : a scalar, a sequence, a mapping, or a reference to an anchored node.
* `Document` : a node and what its references mean.
* `Node.Reading` : the tokens that are left, with the anchors so far; `Node.Reading.node?` and its
  companions read a node from them, each by one production of the grammar.
* `Document.ofText?` : the one document of a text, or nothing where the text is malformed.
-/

namespace SchemaMigration
namespace Yaml

inductive Node where
  | scalar (tag : Option String) (isPlain : Bool) (text : String)
  | sequence (items : List Node)
  | mapping (pairs : List (Node × Node))
  | alias (id : Nat)
deriving Repr

/-- What stands where nothing is written. -/
def Node.empty : Node := .scalar none true ""

structure Document where
  root : Node
  /-- The anchored nodes with their numbers, in the order in which they begin. -/
  anchored : List (Nat × Option Node)
deriving Repr

/-- The node that a number means: the last one to begin with it. -/
def Document.target? (document : Document) (id : Nat) : Option Node :=
  match document.anchored.reverse.lookup id with
  | some found => found
  | none => none

namespace Node

/-- Where a node stands, which decides about block collections. -/
inductive Position where
  | block
  /-- In a mapping, where the entries of a sequence need no indentation. -/
  | entry
  | flow
deriving DecidableEq, Repr

/-- What precedes a node's content. -/
structure Properties where
  anchor : Option (List Char) := none
  tag : Option String := none

structure Reading where
  tokens : List Token
  /-- The tag handles with what they stand for. -/
  handles : List (List Char × List Char)
  /-- The names of anchors, each with the number that it has at present. -/
  names : List (List Char × Nat) := []
  /-- The anchored nodes so far; those that are not complete have no node yet. -/
  anchored : List (Nat × Option Node) := []

namespace Reading

def next? (reading : Reading) : Option Token := reading.tokens.head?

def skip (reading : Reading) : Reading := { reading with tokens := reading.tokens.tail }

def isBefore (reading : Reading) (stops : List Token) : Bool :=
  match reading.next? with
  | some token => stops.contains token
  | none => false

/-- A tag in full. -/
def tagText? (reading : Reading) (handle suffix : List Char) : Option String :=
  if handle.isEmpty then some (String.ofList suffix)
  else (reading.handles.lookup handle).map fun lead => String.ofList (lead ++ suffix)

/-- The anchor and the tag that stand here, in either order, each once at most. -/
def properties? (reading : Reading) : Option (Properties × Reading) :=
  match reading.tokens with
  | .anchor name :: .tag handle suffix :: rest
  | .tag handle suffix :: .anchor name :: rest =>
    (reading.tagText? handle suffix).map fun tag =>
      ({ anchor := some name, tag := some tag }, { reading with tokens := rest })
  | .anchor name :: rest => some ({ anchor := some name }, { reading with tokens := rest })
  | .tag handle suffix :: rest =>
    (reading.tagText? handle suffix).map fun tag =>
      ({ tag := some tag }, { reading with tokens := rest })
  | _ => some ({}, reading)

/-- Note that a node begins. An anchor's number is the number of the names before it, so that a
name that comes again may share its number with a later one. -/
def declare (reading : Reading) (anchor : Option (List Char)) : Reading :=
  match anchor with
  | none => reading
  | some name =>
    let id := reading.names.length
    { reading with
      names := (name, id) :: reading.names.filter (·.1 != name)
      anchored := reading.anchored ++ [(id, none)] }

/-- Note that the node which began as the anchored one at `place` is complete. -/
def complete (reading : Reading) (anchor : Option (List Char)) (place : Nat) (node : Node) :
    Reading :=
  if anchor.isSome then
    { reading with anchored := reading.anchored.modify place fun (id, _) => (id, some node) }
  else reading

/-- A scalar's tag; the exclamation mark alone says nothing. -/
def scalarTag (tag : Option String) : Option String := if tag = some "!" then none else tag

def itemEnds : List Token := [.blockEntry, .blockEnd]

def plainItemEnds : List Token := [.blockEntry, .key, .value, .blockEnd]

def pairEnds : List Token := [.key, .value, .blockEnd]

def flowItemEnds : List Token := [.flowEntry, .flowSequenceEnd]

def flowPairEnds : List Token := [.flowEntry, .flowMappingEnd]

mutual

/-- A node that begins here. Every step of a production counts `fuel` down, and there are not
more than four steps to a token. -/
def node? : (fuel : Nat) → Position → Reading → Option (Node × Reading)
  | 0, _, _ => none
  | fuel + 1, position, reading =>
    match reading.next? with
    | some (.alias name) =>
      (reading.names.lookup name).map fun id => (.alias id, reading.skip)
    | _ =>
      match reading.properties? with
      | none => none
      | some (properties, reading) =>
        let place := reading.anchored.length
        match content? fuel position properties (reading.declare properties.anchor) with
        | none => none
        | some (node, reading) =>
          some (node, reading.complete properties.anchor place node)

/-- What follows a node's properties. -/
def content? : (fuel : Nat) → Position → Properties → Reading → Option (Node × Reading)
  | 0, _, _, _ => none
  | fuel + 1, position, properties, reading =>
    let isBlock := position != .flow
    match reading.next? with
    | some (.scalar isPlain text) =>
      some (.scalar (scalarTag properties.tag) isPlain (String.ofList text), reading.skip)
    | some .flowSequenceStart =>
      (flowItems? fuel true reading.skip).map fun (items, rest) => (.sequence items, rest)
    | some .flowMappingStart =>
      (flowPairs? fuel true reading.skip).map fun (pairs, rest) => (.mapping pairs, rest)
    | other =>
      if position = .entry ∧ other = some .blockEntry then
        (plainItems? fuel reading).map fun (items, rest) => (.sequence items, rest)
      else if isBlock ∧ other = some .blockSequenceStart then
        (items? fuel reading.skip).map fun (items, rest) => (.sequence items, rest)
      else if isBlock ∧ other = some .blockMappingStart then
        (pairs? fuel reading.skip).map fun (pairs, rest) => (.mapping pairs, rest)
      else if properties.anchor.isSome || properties.tag.isSome then
        some (.scalar properties.tag true "", reading)
      else none

/-- A node, or the empty one before the tokens that show that it is left out. -/
def nodeUnless? : (fuel : Nat) → List Token → Position → Reading → Option (Node × Reading)
  | 0, _, _, _ => none
  | fuel + 1, stops, position, reading =>
    if reading.isBefore stops then some (.empty, reading) else node? fuel position reading

/-- The value of a key, which may be left out with its colon. -/
def value? : (fuel : Nat) → List Token → Position → Reading → Option (Node × Reading)
  | 0, _, _, _ => none
  | fuel + 1, stops, position, reading =>
    if reading.next? = some .value then nodeUnless? fuel stops position reading.skip
    else some (.empty, reading)

def items? : (fuel : Nat) → Reading → Option (List Node × Reading)
  | 0, _ => none
  | fuel + 1, reading =>
    match reading.next? with
    | some .blockEntry =>
      match nodeUnless? fuel itemEnds .block reading.skip with
      | none => none
      | some (item, reading) =>
        (items? fuel reading).map fun (items, rest) => (item :: items, rest)
    | some .blockEnd => some ([], reading.skip)
    | _ => none

/-- The items of a sequence without indentation of its own. -/
def plainItems? : (fuel : Nat) → Reading → Option (List Node × Reading)
  | 0, _ => none
  | fuel + 1, reading =>
    match reading.next? with
    | some .blockEntry =>
      match nodeUnless? fuel plainItemEnds .block reading.skip with
      | none => none
      | some (item, reading) =>
        (plainItems? fuel reading).map fun (items, rest) => (item :: items, rest)
    | _ => some ([], reading)

def pairs? : (fuel : Nat) → Reading → Option (List (Node × Node) × Reading)
  | 0, _ => none
  | fuel + 1, reading =>
    match reading.next? with
    | some .key =>
      match nodeUnless? fuel pairEnds .entry reading.skip with
      | none => none
      | some (key, reading) =>
        match value? fuel pairEnds .entry reading with
        | none => none
        | some (value, reading) =>
          (pairs? fuel reading).map fun (pairs, rest) => ((key, value) :: pairs, rest)
    | some .blockEnd => some ([], reading.skip)
    | _ => none

/-- The items of a flow sequence; a key among them begins a mapping of one pair. -/
def flowItems? : (fuel : Nat) → (isFirst : Bool) → Reading → Option (List Node × Reading)
  | 0, _, _ => none
  | fuel + 1, isFirst, reading =>
    if reading.next? = some .flowSequenceEnd then some ([], reading.skip)
    else if !isFirst && reading.next? != some .flowEntry then none
    else
      let reading := if isFirst then reading else reading.skip
      if reading.next? = some .flowSequenceEnd then some ([], reading.skip)
      else
        let item :=
          if reading.next? = some .key then singlePair? fuel reading.skip
          else node? fuel .flow reading
        match item with
        | none => none
        | some (item, reading) =>
          (flowItems? fuel false reading).map fun (items, rest) => (item :: items, rest)

/-- A mapping of one pair in a flow sequence. Where its key is left out, the token that shows
that goes with it. -/
def singlePair? : (fuel : Nat) → Reading → Option (Node × Reading)
  | 0, _ => none
  | fuel + 1, reading =>
    let key :=
      if reading.isBefore (.value :: flowItemEnds) then some (.empty, reading.skip)
      else node? fuel .flow reading
    match key with
    | none => none
    | some (key, reading) =>
      (value? fuel flowItemEnds .flow reading).map fun (value, rest) =>
        (.mapping [(key, value)], rest)

/-- The pairs of a flow mapping; what stands there without a colon is a key with no value. -/
def flowPairs? : (fuel : Nat) → (isFirst : Bool) → Reading →
    Option (List (Node × Node) × Reading)
  | 0, _, _ => none
  | fuel + 1, isFirst, reading =>
    if reading.next? = some .flowMappingEnd then some ([], reading.skip)
    else if !isFirst && reading.next? != some .flowEntry then none
    else
      let reading := if isFirst then reading else reading.skip
      if reading.next? = some .flowMappingEnd then some ([], reading.skip)
      else
        match flowPair? fuel reading with
        | none => none
        | some (pair, reading) =>
          (flowPairs? fuel false reading).map fun (pairs, rest) => (pair :: pairs, rest)

def flowPair? : (fuel : Nat) → Reading → Option ((Node × Node) × Reading)
  | 0, _ => none
  | fuel + 1, reading =>
    if reading.next? = some .key then
      match nodeUnless? fuel (.value :: flowPairEnds) .flow reading.skip with
      | none => none
      | some (key, reading) =>
        (value? fuel flowPairEnds .flow reading).map fun (value, rest) => ((key, value), rest)
    else (node? fuel .flow reading).map fun (key, rest) => ((key, .empty), rest)

end

end Reading
end Node

namespace Document

def commonHandles : List (List Char × List Char) :=
  [("!".toList, "!".toList), ("!!".toList, "tag:yaml.org,2002:".toList)]

/-- The directives before a document: the declared handles, and the tokens behind. A version and
a handle are declared once at most, and the version is one that is known. -/
def directives? : (hasVersion : Bool) → (handles : List (List Char × List Char)) → List Token →
    Option (List (List Char × List Char) × List Token)
  | hasVersion, handles, .versionDirective major minor :: rest =>
    if !hasVersion && major == 1 && (minor == 1 || minor == 2) then directives? true handles rest
    else none
  | hasVersion, handles, .tagDirective handle lead :: rest =>
    if (handles.lookup handle).isSome then none
    else directives? hasVersion ((handle, lead) :: handles) rest
  | _, handles, rest => some (handles, rest)

def isOver : List Token → Bool
  | [] => true
  | .versionDirective _ _ :: _ => true
  | .tagDirective _ _ :: _ => true
  | .documentStart :: _ => true
  | .documentEnd :: _ => true
  | _ => false

/-- The root of the document that begins here. -/
def root? (tokens : List Token) : Option (Node × Node.Reading) :=
  let fuel := 4 * tokens.length + 4
  let begin (handles : List (List Char × List Char)) (tokens : List Token) : Node.Reading :=
    { tokens, handles := handles ++ commonHandles }
  match tokens with
  | [] => none
  | .versionDirective _ _ :: _ | .tagDirective _ _ :: _ | .documentStart :: _ =>
    match directives? false [] tokens with
    | some (handles, .documentStart :: rest) =>
      if isOver rest then some (.empty, begin handles rest)
      else (begin handles rest).node? fuel .block
    | _ => none
  | _ :: _ => (begin [] tokens).node? fuel .block

/-- The document that tokens make; nothing but ends of documents may follow it. -/
def ofTokens? (tokens : List Token) : Option Document :=
  match root? tokens with
  | none => none
  | some (root, reading) =>
    if reading.tokens.all (· == .documentEnd) then some ⟨root, reading.anchored⟩ else none

/-- The document of a text. -/
def ofText? (text : String) : Option Document :=
  match Token.ofText? text.toList with
  | none => none
  | some tokens => ofTokens? tokens

end Document
end Yaml
end SchemaMigration
