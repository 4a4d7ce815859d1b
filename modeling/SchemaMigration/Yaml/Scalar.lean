import SchemaMigration.Yaml.Cursor

/-!
# SchemaMigration.Yaml.Scalar

Scalars in their three styles. Each reader starts at the scalar's first character and gives its
text with the place after it, or nothing where the scalar is malformed. The readers count down
from the number of characters that are left, which bounds their steps.

* `readQuoted?` : between single or double quotes.
* `readPlain?` : without quotes.
* `readBlock?` : below a `|` or `>`.
-/

namespace SchemaMigration
namespace Yaml

/-- The escapes that stand for one character. -/
def simpleEscapes : List (Char × Nat) :=
  [('0', 0), ('a', 7), ('b', 8), ('t', 9), ('\t', 9), ('n', 10), ('v', 11), ('f', 12), ('r', 13),
    ('e', 27), (' ', 32), ('"', 34), ('/', 47), ('\\', 92), ('N', 0x85), ('_', 0xA0),
    ('L', 0x2028), ('P', 0x2029)]

def hexWidth? : Char → Option Nat
  | 'x' => some 2
  | 'u' => some 4
  | 'U' => some 8
  | _ => none

def hexDigit? (c : Char) : Option Nat :=
  if c.isDigit then some (c.toNat - 48)
  else if 'a' ≤ c ∧ c ≤ 'f' then some (c.toNat - 87)
  else if 'A' ≤ c ∧ c ≤ 'F' then some (c.toNat - 55)
  else none

def hexNumber? (digits : List Char) : Option Nat :=
  digits.foldlM (fun n c => (hexDigit? c).map (16 * n + ·)) 0

/-- The character that an escape stands for and the number of characters after the backslash. -/
def readEscape? : List Char → Option (Char × Nat)
  | [] => none
  | c :: rest =>
    match simpleEscapes.lookup c, hexWidth? c with
    | some code, _ => some (Char.ofNat code, 1)
    | none, none => none
    | none, some width =>
      if (rest.take width).length < width then none
      else
        match hexNumber? (rest.take width) with
        | none => none
        | some code => if code.isValidChar then some (Char.ofNat code, 1 + width) else none

/-- A quoted scalar from inside its quotes on; `text` is what was read before, reversed. Line
breaks are folded, and a backslash before a line break joins the lines. -/
def readQuotedFrom (mark : Char) : (fuel : Nat) → Cursor → Gap → (text : List Char) →
    Option (List Char × Cursor)
  | 0, _, _, _ => none
  | fuel + 1, cursor, gap, text =>
    match cursor.rest with
    | [] => none
    | c :: after =>
      if cursor.atDocumentMark then none
      else if isBlank c then readQuotedFrom mark fuel (cursor.skip 1) (gap.addBlank c) text
      else
        match cursor.takeBreak? with
        | some (lineBreak, next) => readQuotedFrom mark fuel next (gap.addBreak lineBreak) text
        | none =>
          let text := gap.text.reverse ++ text
          if c = mark then
            if mark = '\'' ∧ after.head? = some '\'' then
              readQuotedFrom mark fuel (cursor.skip 2) {} ('\'' :: text)
            else some (text.reverse, cursor.skip 1)
          else if mark = '"' ∧ c = '\\' then
            match (cursor.skip 1).takeBreak? with
            | some (_, next) => readQuotedFrom mark fuel next { broken := true } text
            | none =>
              match readEscape? after with
              | none => none
              | some (escaped, width) =>
                readQuotedFrom mark fuel (cursor.skip (1 + width)) {} (escaped :: text)
          else readQuotedFrom mark fuel (cursor.skip 1) {} (c :: text)

/-- The scalar between quotes `mark` that begins here. -/
def readQuoted? (mark : Char) (cursor : Cursor) : Option (List Char × Cursor) :=
  readQuotedFrom mark (cursor.rest.length + 1) (cursor.skip 1) {} []

/-- The characters that structure flow collections. -/
def isFlowIndicator (c : Char) : Bool :=
  c == ',' || c == '[' || c == ']' || c == '\x7b' || c == '\x7d'

def endsPlain (cursor : Cursor) (inFlow : Bool) (c : Char) : Bool :=
  (c == ':' && cursor.endsAt 1) || (inFlow && isFlowIndicator c)

/-- A colon directly before a flow indicator, which a plain scalar must not hold in a flow. -/
def isStrayColon (cursor : Cursor) (inFlow : Bool) (c : Char) : Bool :=
  inFlow && c == ':' &&
    match cursor.ahead? 1 with
    | some next => isFlowIndicator next || next == '?'
    | none => false

/-- A plain scalar from some place on. Outside flows a line that is indented by less than `indent`
ends it. The last component is whether a line ended after the scalar. -/
def readPlainFrom (indent : Nat) (inFlow : Bool) : (fuel : Nat) → Cursor → Gap →
    (text : List Char) → Option (List Char × Cursor × Bool)
  | 0, _, _, _ => none
  | fuel + 1, cursor, gap, text =>
    let done : Option (List Char × Cursor × Bool) := some (text.reverse, cursor, gap.broken)
    match cursor.rest with
    | [] => done
    | c :: _ =>
      if isBlank c then
        if gap.broken ∧ cursor.column < indent ∧ c = '\t' then none
        else readPlainFrom indent inFlow fuel (cursor.skip 1) (gap.addBlank c) text
      else
        match cursor.takeBreak? with
        | some (lineBreak, next) =>
          readPlainFrom indent inFlow fuel next (gap.addBreak lineBreak) text
        | none =>
          if !gap.isEmpty && !inFlow && cursor.column < indent then done
          else if cursor.atDocumentMark then done
          else if !gap.isEmpty && c == '#' then done
          else if isStrayColon cursor inFlow c then none
          else if endsPlain cursor inFlow c then done
          else readPlainFrom indent inFlow fuel (cursor.skip 1) {} (c :: (gap.text.reverse ++ text))

/-- The plain scalar that begins here. -/
def readPlain? (indent : Nat) (inFlow : Bool) (cursor : Cursor) :
    Option (List Char × Cursor × Bool) :=
  readPlainFrom indent inFlow (cursor.rest.length + 1) cursor {} []

/-- What becomes of the line breaks at the end of a block scalar. -/
inductive Chomping where
  | strip
  | clip
  | keep
deriving DecidableEq, Repr

/-- The line after the `|` or `>`. -/
structure BlockHeader where
  chomping : Chomping := .clip
  /-- How much deeper than its surroundings the text is indented, if that is said. -/
  increment : Option Nat := none

def chomping? : Char → Option Chomping
  | '+' => some .keep
  | '-' => some .strip
  | _ => none

/-- A digit that says an indentation; zero says none. -/
def readIncrement? (cursor : Cursor) : Option (Option Nat × Cursor) :=
  match cursor.rest with
  | c :: _ =>
    if c = '0' then none
    else if c.isDigit then some (some (c.toNat - 48), cursor.skip 1)
    else some (none, cursor)
  | [] => some (none, cursor)

/-- The sign that says a chomping, if one stands here. -/
def readChomping (cursor : Cursor) : Option Chomping × Cursor :=
  match cursor.rest with
  | c :: _ =>
    match chomping? c with
    | some found => (some found, cursor.skip 1)
    | none => (none, cursor)
  | [] => (none, cursor)

/-- Chomping and increment in either order, and the place of the next line. -/
def readBlockHeader? (cursor : Cursor) : Option (BlockHeader × Cursor) :=
  let (before, cursor) := readChomping cursor
  match readIncrement? cursor with
  | none => none
  | some (increment, cursor) =>
    let (after, cursor) :=
      match before, increment with
      | none, some _ => readChomping cursor
      | _, _ => (none, cursor)
    let cursor := cursor.skipWhile isBlank
    let cursor :=
      if cursor.rest.head? = some '#' then cursor.skipWhile (!isBreak ·) else cursor
    let header : BlockHeader := { chomping := (before.or after).getD .clip, increment }
    match cursor.rest with
    | [] => some (header, cursor)
    | _ :: _ =>
      match cursor.takeBreak? with
      | some (_, next) => some (header, next)
      | none => none

/-- Whether indentation may still be eaten: its depth is not known, or not reached. -/
def beforeIndent (indent : Option Nat) (cursor : Cursor) : Bool :=
  match indent with
  | none => true
  | some depth => cursor.column < depth

/-- Empty lines and the indentation of the next line: the breaks, the place after them, and the
deepest indentation that was met. A tab in the indentation is an error. -/
def readBreaks (indent : Option Nat) : (fuel : Nat) → Cursor → (deepest : Nat) →
    (breaks : List Char) → Option (List Char × Cursor × Nat)
  | 0, _, _, _ => none
  | fuel + 1, cursor, deepest, breaks =>
    let spaces := (cursor.rest.takeWhile (· == ' ')).length
    let cursor := cursor.skip
      (match indent with
        | none => spaces
        | some depth => min spaces (depth - cursor.column))
    let deepest := max deepest cursor.column
    if beforeIndent indent cursor && cursor.rest.head? == some '\t' then none
    else
      match cursor.takeBreak? with
      | some (lineBreak, next) => readBreaks indent fuel next deepest (breaks ++ lineBreak)
      | none => some (breaks, cursor, deepest)

/-- The lines of a block scalar. `lastBreak` ended the line before, `breaks` are the empty lines
since then, and `wasIndented` is whether that line began with a blank. -/
def readLines (folded : Bool) (chomping : Chomping) (indent : Nat) : (fuel : Nat) → Cursor →
    (lastBreak breaks : List Char) → (wasIndented : Bool) → (text : List Char) →
    Option (List Char × Cursor)
  | 0, _, _, _, _, _ => none
  | fuel + 1, cursor, lastBreak, breaks, wasIndented, text =>
    match cursor.rest with
    | c :: _ =>
      if cursor.column = indent then
        let isIndented := isBlank c
        let joint :=
          if folded && lastBreak == ['\n'] && !wasIndented && !isIndented then
            if breaks.isEmpty then [' '] else breaks
          else lastBreak ++ breaks
        let (line, cursor) := cursor.span (!isBreak ·)
        let (ending, cursor) := cursor.takeBreak?.getD ([], cursor)
        match readBreaks (some indent) (cursor.rest.length + 1) cursor 0 [] with
        | none => none
        | some (breaks, cursor, _) =>
          readLines folded chomping indent fuel cursor ending breaks isIndented
            (text ++ joint ++ line)
      else some (chomped text lastBreak breaks, cursor)
    | [] => some (chomped text lastBreak breaks, cursor)
where
  /-- The text with the line breaks at its end that stay. -/
  chomped (text lastBreak breaks : List Char) : List Char :=
    match chomping with
    | .strip => text
    | .clip => text ++ lastBreak
    | .keep => text ++ lastBreak ++ breaks

/-- The block scalar that begins here, inside a collection whose entries stand at column
`level - 1`; level 0 is the document itself. -/
def readBlock? (folded : Bool) (level : Nat) (cursor : Cursor) : Option (List Char × Cursor) :=
  match readBlockHeader? (cursor.skip 1) with
  | none => none
  | some (header, cursor) =>
    let fuel := cursor.rest.length + 1
    let asked := header.increment.map (level - 1 + ·)
    match readBreaks asked fuel cursor 0 [] with
    | none => none
    | some (breaks, cursor, deepest) =>
      let indent := asked.getD (max deepest (max level 1))
      readLines folded header.chomping indent fuel cursor [] breaks false []

end Yaml
end SchemaMigration
