import LinkedDocs.Selector.Basic

namespace LinkedDocs.Selector

inductive Symbol where
  | selector (selector : Selector)
  | predicate (name : PredicateName)
  | query (query : Json)
deriving Repr

abbrev SymbolTable := NameMap Symbol

/-- The token of a numbered place in a template. -/
def slotToken (slot : Nat) : String :=
  String.ofList ('@' :: Nat.toDigits 10 slot)

inductive Closing where
  | bracket
  | brace
deriving DecidableEq, Repr

def Closing.character : Closing → Char
  | .bracket => ']'
  | .brace => '}'

/-- Why a text is no selector. -/
inductive ParseFault where
  | trailing (character : Char)
  | unexpected (character : Option Char) (closing : Closing)
  | indexOutOfRange (digits : String)
  | terminalContinued
  | invalidArgument (token : String)
  | entryExpected
  | missingArgument (chunk : Nat)
  | extraArguments
deriving DecidableEq, Repr

structure ParseError where
  fault : ParseFault
  /-- The number of bytes of the text before the offending place. -/
  position : Nat
deriving DecidableEq, Repr

def ParseFault.message : ParseFault → String
  | .trailing character =>
    "Incomplete selector parsing, unexpected character <" ++ character.toString ++ ">"
  | .unexpected character closing =>
    (match character with
    | some character => "Unexpected character <" ++ character.toString ++ ">"
    | none => "Unexpected end of selector") ++
      ", expected <,> or <" ++ closing.character.toString ++ ">"
  | .indexOutOfRange digits => "Index <" ++ digits ++ "> is out of range"
  | .terminalContinued =>
    "A tuple or object selector cannot be followed by another selector"
  | .invalidArgument token =>
    "Invalid template argument <" ++ token ++ "> in selector string"
  | .entryExpected => "Object subselections must start with a field or wildcard selector"
  | .missingArgument chunk => "Missing template argument before chunk " ++ toString chunk
  | .extraArguments => "Too many template arguments for the given chunks"

def ParseError.message (error : ParseError) : String :=
  error.fault.message

def ParseError.display (error : ParseError) : String :=
  "Selector parse error at position " ++ toString error.position ++ ": " ++ error.message

end LinkedDocs.Selector
