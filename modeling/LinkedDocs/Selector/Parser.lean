import LinkedDocs.Path
import LinkedDocs.Selector.Lexeme
import LinkedDocs.Selector.Symbol

namespace LinkedDocs.Selector

/-- What surrounds the lexemes: the meaning of their symbols, and the length of the text. -/
structure Source where
  symbols : SymbolTable
  ending : Nat

namespace Source

def position (source : Source) : List Lexeme → Nat
  | [] => source.ending
  | lexeme :: _ => lexeme.offset

def fail {α : Type} (source : Source) (lexemes : List Lexeme) (fault : ParseFault) :
    Except ParseError α :=
  .error ⟨fault, source.position lexemes⟩

end Source

/-- The character at the front of the lexemes. -/
def frontChar? : List Lexeme → Option Char
  | [] => none
  | lexeme :: _ => lexeme.token.toChars.head?

/-- Lexemes that are left over, no more than there were. -/
abbrev Rest (lexemes : List Lexeme) := { rest : List Lexeme // rest.length ≤ lexemes.length }

namespace Rest

variable {lexemes following : List Lexeme} {lexeme : Lexeme}

def all (lexemes : List Lexeme) : Rest lexemes :=
  ⟨lexemes, Nat.le_refl _⟩

def widen (lexeme : Lexeme) (rest : Rest lexemes) : Rest (lexeme :: lexemes) :=
  ⟨rest.1, Nat.le_succ_of_le rest.2⟩

theorem length_lt (rest : Rest lexemes) (h : rest.1 = lexeme :: following) :
    following.length < lexemes.length := by
  have hlength := rest.2
  rw [h] at hlength
  exact hlength

/-- What is left over after a lexeme that was itself left over. -/
def skip (rest : Rest lexemes) (h : rest.1 = lexeme :: following) (last : Rest following) :
    Rest lexemes :=
  ⟨last.1, Nat.le_trans last.2 (Nat.le_of_lt (rest.length_lt h))⟩

end Rest

mutual

/-- Reads the longest selector at the front; there always is one, the identity at least. -/
def readSelector (source : Source) (lexemes : List Lexeme) :
    Except ParseError (Selector × Rest lexemes) :=
  match lexemes with
  | [] => .ok (.identity, .all [])
  | lexeme :: following =>
    match lexeme.token with
    | .field name => do
      let (next, rest) ← readSelector source following
      return (.field name next, rest.widen lexeme)
    | .index digits =>
      match decimalValue? digits.toList with
      | none => source.fail (lexeme :: following) (.indexOutOfRange digits)
      | some position => do
        let (next, rest) ← readSelector source following
        return (.index position next, rest.widen lexeme)
    | .shortcut => do
      let (next, rest) ← readSelector source following
      return (.shortcut next, rest.widen lexeme)
    | .map => do
      let (next, rest) ← readSelector source following
      return (.map next, rest.widen lexeme)
    | .hardMap => do
      let (next, rest) ← readSelector source following
      return (.hardMap next, rest.widen lexeme)
    | .symbol token =>
      match source.symbols.get? token with
      | some (.selector nested) => do
        let (next, rest) ← readSelector source following
        match nested.chain next with
        | some selector => return (selector, rest.widen lexeme)
        | none => source.fail following .terminalContinued
      | some (.predicate name) => do
        let (selector, rest) ← readPredicate source name following
        return (selector, rest.widen lexeme)
      | some (.query query) =>
        if query.isObject then do
          let (next, rest) ← readSelector source following
          return (.filterQuery query next, rest.widen lexeme)
        else
          source.fail (lexeme :: following) (.invalidArgument token)
      | none => source.fail (lexeme :: following) (.invalidArgument token)
    | .openBracket => do
      let (items, rest) ← readItems source following
      return (.tuple items, rest.widen lexeme)
    | .openBrace => do
      let (entries, rest) ← readEntries source following
      return (.ofEntries entries, rest.widen lexeme)
    | _ => .ok (.identity, .all _)
termination_by (lexemes.length, 0)

/-- Reads what follows a predicate: the branches of a switch, or what to do with the items that a
filter keeps. -/
def readPredicate (source : Source) (name : PredicateName) (lexemes : List Lexeme) :
    Except ParseError (Selector × Rest lexemes) :=
  match lexemes with
  | ⟨.question, offset⟩ :: branches => do
    let (accepted, rest) ← readSelector source branches
    match hcolon : rest.1 with
    | ⟨.colon, _⟩ :: following => do
      have := rest.length_lt hcolon
      let (otherwise, last) ← readSelector source following
      return (.switch name accepted otherwise, (rest.skip hcolon last).widen ⟨.question, offset⟩)
    | _ => return (.switch name accepted .identity, rest.widen ⟨.question, offset⟩)
  | lexemes => do
    let (next, rest) ← readSelector source lexemes
    return (.filter name next, rest)
termination_by (lexemes.length, 1)

def readItems (source : Source) (lexemes : List Lexeme) :
    Except ParseError (List Selector × Rest lexemes) := do
  let (item, rest) ← readSelector source lexemes
  match hrest : rest.1 with
  | ⟨.comma, _⟩ :: following => do
    have := rest.length_lt hrest
    let (items, last) ← readItems source following
    return (item :: items, rest.skip hrest last)
  | ⟨.closeBracket, _⟩ :: following => return ([item], rest.skip hrest (.all following))
  | other => source.fail other (.unexpected (frontChar? other) .bracket)
termination_by (lexemes.length, 1)

def readEntries (source : Source) (lexemes : List Lexeme) :
    Except ParseError (List (ObjectKey × Selector) × Rest lexemes) :=
  match lexemes with
  | ⟨.field name, offset⟩ :: following => do
    let (entries, rest) ← readEntry source (.field name) following
    return (entries, rest.widen ⟨.field name, offset⟩)
  | ⟨.star, offset⟩ :: following => do
    let (entries, rest) ← readEntry source .wildcard following
    return (entries, rest.widen ⟨.star, offset⟩)
  | other => source.fail other .entryExpected
termination_by (lexemes.length, 0)

/-- Reads the selector of an entry, the other entries and the closing brace. -/
def readEntry (source : Source) (key : ObjectKey) (lexemes : List Lexeme) :
    Except ParseError (List (ObjectKey × Selector) × Rest lexemes) := do
  let (selector, rest) ← readSelector source lexemes
  match hrest : rest.1 with
  | ⟨.comma, _⟩ :: following => do
    have := rest.length_lt hrest
    let (entries, last) ← readEntries source following
    return ((key, selector) :: entries, rest.skip hrest last)
  | ⟨.closeBrace, _⟩ :: following => return ([(key, selector)], rest.skip hrest (.all following))
  | other => source.fail other (.unexpected (frontChar? other) .brace)
termination_by (lexemes.length, 1)

end

/-- Reads a whole text whose tokens refer to a table. -/
def parseWith (symbols : SymbolTable) (text : String) : Except ParseError Selector := do
  let source : Source := ⟨symbols, byteCount text.toList⟩
  let (selector, rest) ← readSelector source (lex text)
  match rest.1 with
  | [] => return selector
  | lexeme :: others =>
    source.fail (lexeme :: others) (.trailing ((frontChar? [lexeme]).getD ' '))

def parse (text : String) : Except ParseError Selector :=
  parseWith .empty text

end LinkedDocs.Selector
