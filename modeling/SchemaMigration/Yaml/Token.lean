import SchemaMigration.Yaml.Scalar

/-!
# SchemaMigration.Yaml.Token

The tokens of YAML, and the readers of those that have a text of their own.

* `Token` : a token. The beginnings and the ends of block collections are tokens too, although
  they have no text.
* `readAnchorName?`, `readTag?`, `readDirective?` : names behind `&` or `*`, tags, and directives.
-/

namespace SchemaMigration
namespace Yaml

inductive Token where
  | versionDirective (major minor : Nat)
  | tagDirective (handle lead : List Char)
  | documentStart
  | documentEnd
  | blockSequenceStart
  | blockMappingStart
  | blockEnd
  | flowSequenceStart
  | flowSequenceEnd
  | flowMappingStart
  | flowMappingEnd
  | blockEntry
  | flowEntry
  | key
  | value
  | alias (name : List Char)
  | anchor (name : List Char)
  /-- A tag by its handle and what follows; a tag without a handle is given in full. -/
  | tag (handle suffix : List Char)
  | scalar (isPlain : Bool) (text : List Char)
deriving DecidableEq, Repr

/-- Whether an anchor's name may end before a character. -/
def endsAnchor (c : Char) : Bool :=
  isBlank c || isBreak c || c == '?' || c == ':' || c == ',' || c == ']' || c == '\x7d' ||
    c == '%' || c == '@' || c.toNat == 0x60

def readAnchorName? (cursor : Cursor) : Option (List Char × Cursor) :=
  let (name, cursor) := (cursor.skip 1).span isWordChar
  let ends := match cursor.rest with
    | [] => true
    | c :: _ => endsAnchor c
  if !name.isEmpty && ends then some (name, cursor) else none

/-- The characters of a tag; more of them are allowed between angle brackets and in
directives. -/
def isTagChar (isVerbatim : Bool) (c : Char) : Bool :=
  isWordChar c || ";/?:@&=+$.!~*'()".toList.contains c || (isVerbatim && ",[]".toList.contains c)

def readByte? : List Char → Option Nat
  | a :: b :: _ => hexNumber? [a, b]
  | _ => none

/-- How many bytes a character takes whose first byte is given. -/
def utf8Width? (first : Nat) : Option Nat :=
  if first < 0x80 then some 1
  else if 0xC0 ≤ first ∧ first < 0xE0 then some 2
  else if 0xE0 ≤ first ∧ first < 0xF0 then some 3
  else if 0xF0 ≤ first ∧ first < 0xF8 then some 4
  else none

/-- The bytes of as many escapes `%xx` as stand in a row, `n` at most. -/
def readEscapedBytes? : (n : Nat) → List Char → Option (List Nat)
  | 0, _ => some []
  | n + 1, '%' :: rest =>
    match readByte? rest, readEscapedBytes? n (rest.drop 2) with
    | some byte, some bytes => some (byte :: bytes)
    | _, _ => none
  | _ + 1, _ => none

/-- The character that escapes `%xx` here spell, and how many characters they take. -/
def readTagEscape? (text : List Char) : Option (Char × Nat) :=
  match text with
  | '%' :: rest =>
    match readByte? rest with
    | none => none
    | some first =>
      match utf8Width? first with
      | none => none
      | some width =>
        match readEscapedBytes? width text with
        | none => none
        | some bytes =>
          match String.fromUTF8? ⟨(bytes.map UInt8.ofNat).toArray⟩ with
          | some decoded => decoded.toList.head?.map (·, 3 * width)
          | none => none
  | _ => none

/-- The characters of a tag from here on, escapes decoded. -/
def readTagText? (isVerbatim : Bool) : (fuel : Nat) → Cursor → (text : List Char) →
    Option (List Char × Cursor)
  | 0, _, _ => none
  | fuel + 1, cursor, text =>
    match cursor.rest with
    | [] => some (text.reverse, cursor)
    | c :: _ =>
      if c = '%' then
        match readTagEscape? cursor.rest with
        | none => none
        | some (decoded, width) =>
          readTagText? isVerbatim fuel (cursor.skip width) (decoded :: text)
      else if isTagChar isVerbatim c then
        readTagText? isVerbatim fuel (cursor.skip 1) (c :: text)
      else some (text.reverse, cursor)

/-- Text that has to hold something, counting what stands before it. -/
def readTagTail? (isVerbatim : Bool) (before : Nat) (cursor : Cursor) :
    Option (List Char × Cursor) :=
  match readTagText? isVerbatim (cursor.rest.length + 1) cursor [] with
  | none => none
  | some (text, next) => if before = 0 ∧ text.isEmpty then none else some (text, next)

/-- A handle: an exclamation mark, or one at each end of a word. -/
def readHandle? (cursor : Cursor) : Option (List Char × Cursor) :=
  match cursor.rest with
  | '!' :: _ =>
    let (word, next) := (cursor.skip 1).span isWordChar
    match next.rest with
    | '!' :: _ => some ('!' :: (word ++ ['!']), next.skip 1)
    | _ => some ('!' :: word, next)
  | _ => none

def isFullHandle (handle : List Char) : Bool := 2 ≤ handle.length && handle.getLast? == some '!'

def endsTag (inFlow : Bool) (cursor : Cursor) : Bool :=
  cursor.endsAt 0 || (inFlow && cursor.rest.head? == some ',')

/-- The handle and the rest of the tag that stands here. -/
def readTagParts? (cursor : Cursor) : Option ((List Char × List Char) × Cursor) :=
  if cursor.ahead? 1 = some '<' then
    match readTagTail? true 0 (cursor.skip 2) with
    | some (text, next) =>
      if next.rest.head? = some '>' then some (([], text), next.skip 1) else none
    | none => none
  else
    match readHandle? cursor with
    | none => none
    | some (handle, next) =>
      if isFullHandle handle then
        match readTagTail? false 0 next with
        | some (text, next) => some ((handle, text), next)
        | none => none
      else
        match readTagTail? false handle.length next with
        | none => none
        | some (text, next) =>
          let suffix := handle.drop 1 ++ text
          some (if suffix.isEmpty then ([], ['!']) else (['!'], suffix), next)

def readTag? (inFlow : Bool) (cursor : Cursor) : Option (Token × Cursor) :=
  match readTagParts? cursor with
  | none => none
  | some ((handle, suffix), next) =>
    if endsTag inFlow next then some (.tag handle suffix, next) else none

/-- A number of at most nine digits. -/
def readVersionPart? (cursor : Cursor) : Option (Nat × Cursor) :=
  let (digits, next) := cursor.span Char.isDigit
  if digits.isEmpty || 9 < digits.length then none
  else some (digits.foldl (fun n c => 10 * n + (c.toNat - 48)) 0, next)

def readVersion? (cursor : Cursor) : Option (Token × Cursor) :=
  match readVersionPart? (cursor.skipWhile isBlank) with
  | none => none
  | some (major, next) =>
    if next.rest.head? = some '.' then
      match readVersionPart? (next.skip 1) with
      | none => none
      | some (minor, next) => some (.versionDirective major minor, next)
    else none

def readTagDeclaration? (cursor : Cursor) : Option (Token × Cursor) :=
  match readHandle? (cursor.skipWhile isBlank) with
  | none => none
  | some (handle, next) =>
    if handle ≠ ['!'] ∧ isFullHandle handle = false then none
    else if (next.rest.head?.map isBlank).getD false then
      match readTagTail? true 0 (next.skipWhile isBlank) with
      | none => none
      | some (lead, next) => if next.endsAt 0 then some (.tagDirective handle lead, next) else none
    else none

/-- The directive behind the `%` that stands here, with its line. -/
def readDirective? (cursor : Cursor) : Option (Token × Cursor) :=
  let (name, next) := (cursor.skip 1).span isWordChar
  let found :=
    if !next.endsAt 0 then none
    else if name = "YAML".toList then readVersion? next
    else if name = "TAG".toList then readTagDeclaration? next
    else none
  match found with
  | none => none
  | some (token, next) =>
    let next := next.skipWhile isBlank
    let next := if next.rest.head? = some '#' then next.skipWhile (!isBreak ·) else next
    if next.atLineEnd then some (token, (next.takeBreak?.getD ([], next)).2) else none

end Yaml
end SchemaMigration
