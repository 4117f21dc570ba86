namespace LinkedDocs

/-- First code, last code and step. -/
abbrev CodeRange := Nat × Nat × Nat

def CodeRange.contains (range : CodeRange) (code : Nat) : Bool :=
  range.1 ≤ code && code ≤ range.2.1 && (code - range.1) % range.2.2 == 0

def inRanges (ranges : List CodeRange) (character : Char) : Bool :=
  ranges.any fun range => range.contains character.toNat

end LinkedDocs
