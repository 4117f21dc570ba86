namespace LinkedDocs

/-- The switches with which a pattern is compiled. -/
structure PatternFlags where
  ignoreCase : Bool := false
  multiLine : Bool := false
  dotMatchesNewLine : Bool := false
  /-- Blanks and comments of the pattern are skipped. -/
  verbose : Bool := false
deriving DecidableEq, Repr

/-- What is not decided here: the language of patterns and the ids of new documents. Nothing is
assumed of either, so documents may even get the same id, which is then refused as a duplicate. -/
class Platform where
  /-- The test for the texts in which a pattern is found. A text that is no pattern has none. -/
  compile? : PatternFlags → String → Option (String → Bool)
  /-- The ids that are given out, in turn. -/
  newId : Nat → String

end LinkedDocs
