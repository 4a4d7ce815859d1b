import SchemaMigration.Time.Instant
import SchemaMigration.Text.Blank
import SchemaMigration.Text.Split

/-!
# SchemaMigration.Time.Reading

Reading instants from text. Three forms are tried in turn:

1. the internet form `2024-05-01T12:30:00.5+02:00`, with `Z` for universal time, exact digit
   counts, and `t` or a blank allowed for `T`;
2. the database form `2024-05-01 12:30:00.5 +02`, where numbers may be shorter and follow blanks,
   and the offset's minutes may be missing;
3. the database form without an offset, which is universal time.

`Instant.ofText?` is the reader. A reading step takes the rest of the text and gives a value with
what is left.
-/

namespace SchemaMigration
namespace Time

open Text

/-- A step of a reader. -/
abbrev Step (α : Type) := List Char → Option (α × List Char)

def number (digits : List Char) : Nat := digits.foldl (fun n c => 10 * n + (c.toNat - 48)) 0

/-- At least `least` and at most `most` digits. -/
def digits (least most : Nat) : Step (List Char) := fun text =>
  let found := (text.take most).takeWhile Char.isDigit
  if found.length < least then none else some (found, text.drop found.length)

/-- A number of at least `least` and at most `most` digits. -/
def natural (least most : Nat) : Step Nat := fun text =>
  match digits least most text with
  | none => none
  | some (found, rest) => some (number found, rest)

def literal (c : Char) : List Char → Option (List Char)
  | [] => none
  | d :: rest => if c = d then some rest else none

/-- The nanoseconds of an optional fraction: a point and one digit or more, of which the first
nine count. -/
def fraction : Step Nat
  | '.' :: text =>
    match digits 1 9 text with
    | none => none
    | some (found, rest) =>
      some (number found * Nat.pow 10 (9 - found.length), rest.dropWhile Char.isDigit)
  | text => some (0, text)

/-- How the offset's parts are written. -/
structure OffsetForm where
  /-- What stands between hours and minutes. -/
  gap : List Char → Option (List Char)
  /-- Whether the minutes may be missing. -/
  minutesOptional : Bool

/-- The two digits of an offset's minutes, if any stand there. -/
def offsetMinutes (optional : Bool) : Step Nat
  | [] => if optional then some (0, []) else none
  | [_] => none
  | m :: n :: rest =>
    if '0' ≤ m && m ≤ '5' && n.isDigit then some (number [m, n], rest) else none

/-- The seconds that local time is ahead of universal time: `Z` or `z`, or a sign, two digits of
hours, the gap and two digits of minutes. U+2212 is a minus sign too. -/
def offset (form : OffsetForm) : Step Int
  | [] => none
  | sign :: text =>
    if sign = 'Z' ∨ sign = 'z' then some (0, text)
    else if sign = '+' ∨ sign = '-' ∨ sign = Char.ofNat 0x2212 then
      match natural 2 2 text with
      | none => none
      | some (hours, afterHours) =>
        match form.gap afterHours with
        | none => none
        | some afterGap =>
          match offsetMinutes form.minutesOptional afterGap with
          | none => none
          | some (minutes, rest) =>
            let seconds : Int := hours * 3600 + minutes * 60
            some (if sign = '+' then seconds else -seconds, rest)
    else none

structure Clock where
  date : Date
  hour : Nat
  minute : Nat
  second : Nat
  nanos : Nat

/-- The instant at which a clock that is `offset` seconds ahead shows the reading. Second 60 is a
leap second; an offset of a day or more does not exist. -/
def Clock.instant? (clock : Clock) (offset : Int) : Option Instant :=
  if clock.date.isValid && clock.hour < 24 && clock.minute < 60 && clock.second ≤ 60 &&
      offset.natAbs < 86400 then
    let second := min clock.second 59
    let leap := if clock.second = 60 then 1000000000 else 0
    let seconds :=
      clock.date.days * 86400 + clock.hour * 3600 + clock.minute * 60 + second - offset
    if Instant.inRange seconds then some ⟨seconds, clock.nanos + leap⟩ else none
  else none

/-- A number after blanks, of one digit up to `most`. -/
def spacedNatural (most : Nat) : Step Nat := fun text => natural 1 most (trimStart text)

/-- A year after blanks: up to four digits, or a sign and any number of digits. -/
def spacedYear : Step Int := fun text =>
  match trimStart text with
  | '-' :: rest =>
    match natural 1 rest.length rest with
    | none => none
    | some (n, rest) => some (-n, rest)
  | '+' :: rest =>
    match natural 1 rest.length rest with
    | none => none
    | some (n, rest) => some (n, rest)
  | rest =>
    match natural 1 4 rest with
    | none => none
    | some (n, rest) => some (n, rest)

/-- The reading of the internet form, up to the fraction. -/
def internetClock : Step Clock := fun text => do
  let (year, text) ← natural 4 4 text
  let text ← literal '-' text
  let (month, text) ← natural 2 2 text
  let text ← literal '-' text
  let (day, text) ← natural 2 2 text
  let text ← match text with
    | c :: rest => if c = 'T' ∨ c = 't' ∨ c = ' ' then some rest else none
    | [] => none
  let (hour, text) ← natural 2 2 text
  let text ← literal ':' text
  let (minute, text) ← natural 2 2 text
  let text ← literal ':' text
  let (second, text) ← natural 2 2 text
  let (nanos, text) ← fraction text
  some (⟨⟨year, month, day⟩, hour, minute, second, nanos⟩, text)

/-- The reading of the database form, up to the fraction. -/
def databaseClock : Step Clock := fun text => do
  let (year, text) ← spacedYear text
  let text ← literal '-' text
  let (month, text) ← spacedNatural 2 text
  let text ← literal '-' text
  let (day, text) ← spacedNatural 2 text
  let (hour, text) ← spacedNatural 2 text
  let text ← literal ':' text
  let (minute, text) ← spacedNatural 2 text
  let text ← literal ':' text
  let (second, text) ← spacedNatural 2 text
  let (nanos, text) ← fraction text
  some (⟨⟨year, month, day⟩, hour, minute, second, nanos⟩, text)

def internetOffset : OffsetForm := ⟨literal ':', false⟩

def databaseOffset : OffsetForm :=
  ⟨fun text => some (text.dropWhile fun c => c = ':' || isBlank c), true⟩

def internetForm? (text : List Char) : Option Instant :=
  match internetClock text with
  | none => none
  | some (clock, text) =>
    match offset internetOffset text with
    | some (ahead, []) => clock.instant? ahead
    | _ => none

def databaseForm? (text : List Char) : Option Instant :=
  match databaseClock text with
  | none => none
  | some (clock, text) =>
    match offset databaseOffset (trimStart text) with
    | some (ahead, []) => clock.instant? ahead
    | _ => none

def databaseFormWithoutOffset? (text : List Char) : Option Instant :=
  match databaseClock text with
  | some (clock, []) => clock.instant? 0
  | _ => none

end Time

/-- The instant that a text gives in one of the three forms. -/
def Instant.ofText? (text : String) : Option Instant :=
  let chars := text.toList
  (Time.internetForm? chars).or ((Time.databaseForm? chars).or
    (Time.databaseFormWithoutOffset? chars))

end SchemaMigration
