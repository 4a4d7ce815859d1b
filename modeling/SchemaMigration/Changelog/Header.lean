import SchemaMigration.Migration.Basic

/-!
# SchemaMigration.Changelog.Header

The line that introduces a migration in a migration file:

`--migration alice:create_users run:onchange runAfter:create_schema #ticket:OPS-1`

The author ends at the first colon, the title at the first blank; the tokens that follow set
parameters, or free parameters when they begin with `#`. The last token for a key wins.

* `Header.split?` : author, title and the text with the tokens.
* `Header.applyToken` : what one token does to a draft.
* `Header.read` : the draft that a header line describes.
-/

namespace SchemaMigration
namespace Header

open Text

/-- What a header line begins with. -/
def keyword : List Char := "--migration".toList

/-- A line that opens a section: the keyword alone or followed by a blank, with blanks around
all of it. -/
def opensSection (line : List Char) : Bool :=
  match dropStart? keyword (trim line) with
  | none => false
  | some [] => true
  | some (c :: _) => isBlank c

/-- The author, the title and the rest of a header line; none for a line of another form. A
header is one line, so the rest holds no line feed. -/
def split? (line : List Char) : Option (List Char × List Char × List Char) :=
  match dropStart? keyword line with
  | none => none
  | some afterKeyword =>
    if (afterKeyword.takeWhile isBlank).isEmpty then none
    else
      let start := trimStart afterKeyword
      let author := start.takeWhile fun c => !isBlank c && c != ':'
      match start.dropWhile fun c => !isBlank c && c != ':' with
      | ':' :: afterColon =>
        let title := afterColon.takeWhile (!isBlank ·)
        let rest := afterColon.dropWhile (!isBlank ·)
        if author.isEmpty || title.isEmpty || rest.contains '\n' then none
        else some (author, title, rest)
      | _ => none

/-- A token `key:value` sets a parameter, `#key:value` a free one. -/
def applyToken (file : Path) (draft : Draft) (token : List Char) : Except InputError Draft :=
  match cutFirst? ':' token with
  | none => .error (.invalidChangelog file (.notKeyValue (String.ofList token)))
  | some (key, value) =>
    match key with
    | '#' :: userKey => .ok (draft.withUserParameter (String.ofList userKey) (String.ofList value))
    | _ =>
      match Parameter.Value.read (String.ofList key) (String.ofList value) with
      | .error e => .error e
      | .ok value => .ok (draft.withParameter value)

/-- Tokens from the first on; the first that is wrong is the error. -/
def applyTokens (file : Path) : Draft → List (List Char) → Except InputError Draft
  | draft, [] => .ok draft
  | draft, token :: rest =>
    match applyToken file draft token with
    | .error e => .error e
    | .ok draft => applyTokens file draft rest

/-- The draft that a header line of `file` describes. -/
def read (file : Path) (line : String) : Except InputError Draft :=
  match split? line.toList with
  | none => .error (.invalidChangelog file (.malformedHeader line))
  | some (author, title, rest) =>
    applyTokens file { author := String.ofList author, title := String.ofList title } (words rest)

end Header
end SchemaMigration
