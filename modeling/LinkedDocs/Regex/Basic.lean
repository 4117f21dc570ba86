import LinkedDocs.Text.Category

/-!
Regular expressions as sets of matches. `advance` takes the positions at which a match may start to
all the positions at which it may end, so a text matches anywhere when no starting position is lost.
-/

namespace LinkedDocs

inductive Assertion where
  | textStart
  | textEnd
  | lineStart
  | lineEnd
  /-- Line boundaries for lines that end with a carriage return, a line feed or both. -/
  | lineStartCrlf
  | lineEndCrlf
  /-- A boundary between a word character and another one, or the opposite. -/
  | wordBoundary (negated : Bool) (isWord : Char → Bool)
  | wordStart (isWord : Char → Bool)
  | wordEnd (isWord : Char → Bool)
  | wordStartHalf (isWord : Char → Bool)
  | wordEndHalf (isWord : Char → Bool)

inductive Regex where
  | empty
  | charIn (holds : Char → Bool)
  | assertion (condition : Assertion)
  | sequence (first second : Regex)
  | either (first second : Regex)
  /-- Between `least` and `greatest` times, or any number from `least` on. -/
  | repeated (body : Regex) (least : Nat) (greatest : Option Nat)

namespace Assertion

def before? (text : Array Char) (position : Nat) : Option Char :=
  if position = 0 then none else text[position - 1]?

def holdsFor (condition : Assertion) (before after : Option Char) : Bool :=
  match condition with
  | .textStart => before.isNone
  | .textEnd => after.isNone
  | .lineStart => before.isNone || before == some '\n'
  | .lineEnd => after.isNone || after == some '\n'
  | .lineStartCrlf =>
    before.isNone || before == some '\n' || (before == some '\r' && after != some '\n')
  | .lineEndCrlf =>
    after.isNone || after == some '\r' || (after == some '\n' && before != some '\r')
  | .wordBoundary negated isWord => (before.any isWord != after.any isWord) != negated
  | .wordStart isWord => !before.any isWord && after.any isWord
  | .wordEnd isWord => before.any isWord && !after.any isWord
  | .wordStartHalf isWord => !before.any isWord
  | .wordEndHalf isWord => !after.any isWord

def holdsAt (condition : Assertion) (text : Array Char) (position : Nat) : Bool :=
  condition.holdsFor (before? text position) text[position]?

end Assertion

namespace Regex

/-- Positions of the second list that the first one lacks. -/
def newPositions (known found : List Nat) : List Nat :=
  (found.filter fun position => !known.contains position).eraseDups

def union (known found : List Nat) : List Nat :=
  known ++ newPositions known found

def iterate (step : List Nat → List Nat) : Nat → List Nat → List Nat
  | 0, positions => positions
  | count + 1, positions =>
    if positions.isEmpty then [] else iterate step count (step positions)

/-- Collects what at most `count` steps reach; stops as soon as a step reaches nothing new. -/
def closure (step : List Nat → List Nat) : Nat → List Nat → List Nat → List Nat
  | 0, known, _ => known
  | count + 1, known, frontier =>
    let fresh := newPositions known (step frontier)
    if fresh.isEmpty then known else closure step count (known ++ fresh) fresh

def advance (text : Array Char) : Regex → List Nat → List Nat
  | .empty, positions => positions
  | .charIn holds, positions =>
    (positions.filter fun position => text[position]?.any holds).map (· + 1)
  | .assertion condition, positions =>
    positions.filter fun position => condition.holdsAt text position
  | .sequence first second, positions => second.advance text (first.advance text positions)
  | .either first second, positions =>
    union (first.advance text positions) (second.advance text positions)
  | .repeated body least greatest, positions =>
    let start := iterate (body.advance text) least positions
    let further :=
      match greatest with
      | some greatest => greatest - least
      | none => text.size + 1
    closure (body.advance text) further start start

def matchesIn (regex : Regex) (text : String) : Bool :=
  let characters := text.toList.toArray
  !(regex.advance characters (List.range (characters.size + 1))).isEmpty

def sequenceOf (parts : List Regex) : Regex :=
  parts.foldr .sequence .empty

def eitherOf : List Regex → Regex
  | [] => .empty
  | [only] => only
  | first :: rest => .either first (eitherOf rest)

end Regex

end LinkedDocs
