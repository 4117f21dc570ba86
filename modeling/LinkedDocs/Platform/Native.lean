import LinkedDocs.Platform.Basic
import LinkedDocs.Regex.Pattern

/-!
The platform of the command line. Patterns know general categories of characters but no scripts, and
there is no limit on how large or how deeply nested they are.
-/

namespace LinkedDocs

/-- An id with a number: twelve hexadecimal digits after a part that all ids share. -/
def Store.generatedId (number : Nat) : String :=
  let digits := Nat.toDigits 16 number
  "7c0ffee0-d0c5-4000-8000-" ++ String.ofList (List.replicate (12 - digits.length) '0' ++ digits)

instance : Platform where
  compile? flags pattern := (Regex.read? { toPatternFlags := flags } pattern).map Regex.matchesIn
  newId := Store.generatedId

end LinkedDocs
