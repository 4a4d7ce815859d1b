import SchemaMigration.Time.Instant

/-!
# SchemaMigration.Time.Span

Spans of time in whole milliseconds, as messages show them.
-/

namespace SchemaMigration
namespace Time

/-- Drop the zeros at the end. -/
def dropZeros (digits : List Char) : List Char := (digits.reverse.dropWhile (· = '0')).reverse

/-- A span in the largest unit that it reaches: seconds with the fraction's last digit not zero,
or milliseconds; `0ns` for no time at all. -/
def spanText (milliseconds : Nat) : String :=
  if milliseconds = 0 then "0ns"
  else if milliseconds < 1000 then toString milliseconds ++ "ms"
  else
    let fraction := dropZeros (Instant.padded 3 (milliseconds % 1000)).toList
    toString (milliseconds / 1000) ++
      (if fraction.isEmpty then "" else "." ++ String.ofList fraction) ++ "s"

end Time
end SchemaMigration
