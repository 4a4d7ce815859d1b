import SchemaMigration.Yaml.Token

/-!
# SchemaMigration.Yaml.TokenStream

The tokens of a text. A key shows as such only by the colon after it, so the place of each token
that may begin a key is kept until the colon comes or cannot come any more; the tokens that the
key asks for are then put in at that place.

* `TokenStream` : the tokens so far and what is open.
* `TokenStream.fetch?` : the next token.
* `Token.ofText?` : all tokens of a text, or nothing where it is malformed.
-/

namespace SchemaMigration
namespace Yaml

/-- A token that may turn out to begin a key. -/
structure Candidate where
  /-- How many tokens stand before it. -/
  position : Nat
  /-- Whether nothing but a key can stand there. -/
  isRequired : Bool
  place : Cursor
deriving Repr

/-- Whether the colon would come too late: on another line, or too far away. -/
def Candidate.isStale (candidate : Candidate) (cursor : Cursor) : Bool :=
  candidate.place.line < cursor.line || candidate.place.index + 1024 < cursor.index

structure TokenStream where
  cursor : Cursor
  /-- The tokens so far, the last one first. -/
  reversed : List Token := []
  /-- For each open block collection one more than its column, the innermost first. -/
  levels : List Nat := []
  /-- The candidate in the innermost flow collection, or outside all of them. -/
  candidate : Option Candidate := none
  /-- For each open flow collection the candidate around it, the innermost first. -/
  outer : List (Option Candidate) := []
  keyAllowed : Bool := true

namespace TokenStream

def inFlow (stream : TokenStream) : Bool := !stream.outer.isEmpty

/-- One more than the column of the innermost block collection; 0 outside all of them. -/
def level (stream : TokenStream) : Nat := stream.levels.headD 0

def add (stream : TokenStream) (token : Token) : TokenStream :=
  { stream with reversed := token :: stream.reversed }

/-- Put a token behind the first `position` ones. -/
def insert (stream : TokenStream) (position : Nat) (token : Token) : TokenStream :=
  { stream with
    reversed := stream.reversed.insertIdx (stream.reversed.length - position) token }

/-- Add a token, go on at `cursor`, and say whether a key may begin there. -/
def advance (stream : TokenStream) (token : Token) (cursor : Cursor) (keyAllowed : Bool) :
    TokenStream :=
  { stream.add token with cursor, keyAllowed }

/-- Give up the candidate; one that has to be a key cannot be given up. -/
def dropCandidate? (stream : TokenStream) : Option TokenStream :=
  match stream.candidate with
  | none => some stream
  | some candidate => if candidate.isRequired then none else some { stream with candidate := none }

/-- Make the next token the candidate, if a key may begin here. -/
def saveCandidate? (stream : TokenStream) : Option TokenStream :=
  if stream.keyAllowed then
    let isRequired := !stream.inFlow && stream.level == stream.cursor.column + 1
    stream.dropCandidate?.map fun stream =>
      { stream with
        candidate := some ⟨stream.reversed.length, isRequired, stream.cursor⟩ }
  else some stream

/-- Give up the candidates for which it is too late. -/
def dropStale? (stream : TokenStream) : Option TokenStream :=
  let isLate (candidate : Candidate) : Bool := candidate.isStale stream.cursor
  let all := (stream.candidate :: stream.outer).filterMap id
  if all.any fun candidate => candidate.isRequired && isLate candidate then none
  else
    some { stream with
      candidate := stream.candidate.filter (!isLate ·)
      outer := stream.outer.map (·.filter (!isLate ·)) }

/-- Begin a block collection at a column, if one does not stand there already. -/
def openBlock (stream : TokenStream) (column position : Nat) (token : Token) : TokenStream :=
  if !stream.inFlow && stream.level ≤ column then
    { stream.insert position token with levels := (column + 1) :: stream.levels }
  else stream

/-- End the block collections whose level is above `limit`. -/
def closeBlocks (stream : TokenStream) (limit : Nat) : TokenStream :=
  if stream.inFlow then stream
  else
    let ended := stream.levels.takeWhile (limit < ·)
    { stream with
      reversed := List.replicate ended.length .blockEnd ++ stream.reversed
      levels := stream.levels.drop ended.length }

/-- Pass over blanks, comments and line breaks. Tabs count as blanks only where no key may
begin. -/
def skipGap : (fuel : Nat) → TokenStream → TokenStream
  | 0, stream => stream
  | fuel + 1, stream =>
    let tabs := stream.inFlow || !stream.keyAllowed
    let cursor := stream.cursor.skipWhile fun c => c == ' ' || (tabs && c == '\t')
    let cursor := if cursor.rest.head? = some '#' then cursor.skipWhile (!isBreak ·) else cursor
    match cursor.takeBreak? with
    | some (_, next) =>
      skipGap fuel { stream with cursor := next, keyAllowed := stream.keyAllowed || !stream.inFlow }
    | none => { stream with cursor }

/-- A byte order mark at the very beginning takes a column. -/
def skipByteOrderMark (stream : TokenStream) : TokenStream :=
  if stream.cursor.index = 0 ∧ (stream.cursor.rest.head?.map Char.toNat) = some 0xFEFF then
    { stream with cursor := stream.cursor.skip 1 }
  else stream

/-- Go to the next token, and end what cannot reach that far. -/
def approach? (stream : TokenStream) : Option TokenStream :=
  let stream := stream.skipByteOrderMark
  (stream.skipGap (stream.cursor.rest.length + 1)).dropStale?.map fun stream =>
    stream.closeBlocks (stream.cursor.column + 1)

/-- Leave all block collections, for a token between documents. -/
def leaveBlocks? (stream : TokenStream) : Option TokenStream :=
  (stream.closeBlocks 0).dropCandidate?

def fetchDirective? (stream : TokenStream) : Option TokenStream :=
  match stream.leaveBlocks?, readDirective? stream.cursor with
  | some stream, some (token, next) => some (stream.advance token next false)
  | _, _ => none

def fetchDocumentMark? (stream : TokenStream) (token : Token) : Option TokenStream :=
  stream.leaveBlocks?.map fun stream => stream.advance token (stream.cursor.skip 3) false

def openFlow? (stream : TokenStream) (token : Token) : Option TokenStream :=
  stream.saveCandidate?.map fun stream =>
    { stream.advance token (stream.cursor.skip 1) true with
      candidate := none, outer := stream.candidate :: stream.outer }

def closeFlow? (stream : TokenStream) (token : Token) : Option TokenStream :=
  stream.dropCandidate?.map fun stream =>
    let stream := stream.advance token (stream.cursor.skip 1) false
    match stream.outer with
    | [] => stream
    | candidate :: outer => { stream with candidate, outer }

def fetchFlowEntry? (stream : TokenStream) : Option TokenStream :=
  stream.dropCandidate?.map fun stream =>
    stream.advance .flowEntry (stream.cursor.skip 1) true

/-- Begin the block collection that an indicator here belongs to; outside flow collections the
indicator has to stand where a key may. -/
def beginBlock? (stream : TokenStream) (token : Token) : Option TokenStream :=
  if stream.inFlow then some stream
  else if stream.keyAllowed then
    some (stream.openBlock stream.cursor.column stream.reversed.length token)
  else none

def fetchBlockEntry? (stream : TokenStream) : Option TokenStream :=
  match stream.beginBlock? .blockSequenceStart with
  | none => none
  | some stream =>
    stream.dropCandidate?.map fun stream =>
      stream.advance .blockEntry (stream.cursor.skip 1) true

def fetchKey? (stream : TokenStream) : Option TokenStream :=
  match stream.beginBlock? .blockMappingStart with
  | none => none
  | some stream =>
    stream.dropCandidate?.map fun stream =>
      stream.advance .key (stream.cursor.skip 1) (!stream.inFlow)

/-- A colon makes the candidate a key. Without one it belongs to a key that was announced by a
question mark, or to an empty one. -/
def fetchValue? (stream : TokenStream) : Option TokenStream :=
  match stream.candidate with
  | some candidate =>
    let stream := stream.insert candidate.position .key
    let stream :=
      stream.openBlock candidate.place.column candidate.position .blockMappingStart
    some { stream.advance .value (stream.cursor.skip 1) false with candidate := none }
  | none =>
    (stream.beginBlock? .blockMappingStart).map fun stream =>
      stream.advance .value (stream.cursor.skip 1) (!stream.inFlow)

/-- Add a token that may begin a key, with the place after it. -/
def fetchContent? (stream : TokenStream) (found : Option (Token × Cursor)) :
    Option TokenStream :=
  match stream.saveCandidate?, found with
  | some stream, some (token, next) => some (stream.advance token next false)
  | _, _ => none

def fetchQuoted? (stream : TokenStream) (mark : Char) : Option TokenStream :=
  stream.fetchContent?
    ((readQuoted? mark stream.cursor).map fun (text, next) => (.scalar false text, next))

def fetchPlain? (stream : TokenStream) : Option TokenStream :=
  match stream.saveCandidate?, readPlain? stream.level stream.inFlow stream.cursor with
  | some stream, some (text, next, broken) => some (stream.advance (.scalar true text) next broken)
  | _, _ => none

def fetchBlockScalar? (stream : TokenStream) (folded : Bool) : Option TokenStream :=
  match stream.dropCandidate?, readBlock? folded stream.level stream.cursor with
  | some stream, some (text, next) => some (stream.advance (.scalar false text) next true)
  | _, _ => none

/-- The characters that begin no plain scalar. A hyphen, a question mark or a colon begins one
where it stands for nothing else. -/
def isIndicator (c : Char) : Bool :=
  isFlowIndicator c || isBlank c || "#&*!|>\x27\"%@".toList.contains c || c.toNat == 0x60

/-- The next token; it begins right here. -/
def fetch? (stream : TokenStream) : Option TokenStream :=
  let cursor := stream.cursor
  let isWord := stream.inFlow || cursor.endsAt 1
  match cursor.rest with
  | [] => none
  | c :: _ =>
    if cursor.column = 0 ∧ c = '%' then stream.fetchDirective?
    else if cursor.atMark '-' then stream.fetchDocumentMark? .documentStart
    else if cursor.atMark '.' then stream.fetchDocumentMark? .documentEnd
    else
      match c with
      | '[' => stream.openFlow? .flowSequenceStart
      | '\x7b' => stream.openFlow? .flowMappingStart
      | ']' => stream.closeFlow? .flowSequenceEnd
      | '\x7d' => stream.closeFlow? .flowMappingEnd
      | ',' => stream.fetchFlowEntry?
      | '-' => if cursor.endsAt 1 then stream.fetchBlockEntry? else stream.fetchPlain?
      | '?' => if isWord then stream.fetchKey? else stream.fetchPlain?
      | ':' => if isWord then stream.fetchValue? else stream.fetchPlain?
      | '*' => stream.fetchContent? ((readAnchorName? cursor).map fun (n, k) => (.alias n, k))
      | '&' => stream.fetchContent? ((readAnchorName? cursor).map fun (n, k) => (.anchor n, k))
      | '!' => stream.fetchContent? (readTag? stream.inFlow cursor)
      | '\'' => stream.fetchQuoted? '\''
      | '"' => stream.fetchQuoted? '"'
      | '|' => if stream.inFlow then none else stream.fetchBlockScalar? false
      | '>' => if stream.inFlow then none else stream.fetchBlockScalar? true
      | _ => if isIndicator c then none else stream.fetchPlain?

/-- The tokens up to the end. Each one takes a character at least, which bounds their number. -/
def toEnd? : (fuel : Nat) → TokenStream → Option TokenStream
  | 0, _ => none
  | fuel + 1, stream =>
    match stream.approach? with
    | none => none
    | some stream =>
      if stream.cursor.rest.isEmpty then stream.leaveBlocks?
      else
        match stream.fetch? with
        | none => none
        | some stream => toEnd? fuel stream

end TokenStream

/-- The tokens of a text. -/
def Token.ofText? (text : List Char) : Option (List Token) :=
  if text.all isAllowed then
    (TokenStream.toEnd? (text.length + 1) { cursor := { rest := text } }).map
      (·.reversed.reverse)
  else none

end Yaml
end SchemaMigration
