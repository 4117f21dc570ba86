import LinkedDocs.Text.Category

namespace LinkedDocs.Selector

inductive Token where
  | field (name : String)
  | index (digits : String)
  | shortcut
  | map
  | hardMap
  | symbol (token : String)
  | openBracket
  | closeBracket
  | openBrace
  | closeBrace
  | comma
  | star
  | question
  | colon
  /-- A character that begins no lexeme. -/
  | other (character : Char)
deriving DecidableEq, Repr

def Token.toChars : Token → List Char
  | .field name => name.toList
  | .index digits => digits.toList
  | .shortcut => ['>']
  | .map => ['$']
  | .hardMap => ['$', '$']
  | .symbol token => token.toList
  | .openBracket => ['[']
  | .closeBracket => [']']
  | .openBrace => ['{']
  | .closeBrace => ['}']
  | .comma => [',']
  | .star => ['*']
  | .question => ['?']
  | .colon => [':']
  | .other character => [character]

structure Lexeme where
  token : Token
  /-- The number of bytes before the lexeme. -/
  offset : Nat
deriving DecidableEq, Repr

def isSeparator (character : Char) : Bool :=
  isBlank character || character == '.'

/-- Names are spelled with ASCII letters, digits, underscores and hyphens. -/
def isNameStart (character : Char) : Bool :=
  character.isAlpha || character == '_' || character == '-'

def isNameChar (character : Char) : Bool :=
  character.isAlphanum || character == '_' || character == '-'

/-- The number of bytes of a text in UTF-8. -/
def byteCount : List Char → Nat
  | [] => 0
  | character :: rest => character.utf8Size + byteCount rest

def lexAt (character : Char) (rest : List Char) : Token × List Char :=
  if isNameStart character then
    (.field (String.ofList (character :: rest.takeWhile isNameChar)), rest.dropWhile isNameChar)
  else if character.isDigit then
    (.index (String.ofList (character :: rest.takeWhile Char.isDigit)),
      rest.dropWhile Char.isDigit)
  else
    match character, rest with
    | '>', rest => (.shortcut, rest)
    | '$', '$' :: rest => (.hardMap, rest)
    | '$', rest => (.map, rest)
    | '[', rest => (.openBracket, rest)
    | ']', rest => (.closeBracket, rest)
    | '{', rest => (.openBrace, rest)
    | '}', rest => (.closeBrace, rest)
    | ',', rest => (.comma, rest)
    | '*', rest => (.star, rest)
    | '?', rest => (.question, rest)
    | ':', rest => (.colon, rest)
    | '@', rest =>
      if rest.head?.any Char.isDigit then
        (.symbol (String.ofList ('@' :: rest.takeWhile Char.isDigit)),
          rest.dropWhile Char.isDigit)
      else
        (.other '@', rest)
    | character, rest => (.other character, rest)

theorem length_dropWhile_le (holds : Char → Bool) (text : List Char) :
    (text.dropWhile holds).length ≤ text.length :=
  (List.dropWhile_suffix holds).length_le

theorem length_lexAt_le (character : Char) (rest : List Char) :
    (lexAt character rest).2.length ≤ rest.length := by
  unfold lexAt
  split
  · exact length_dropWhile_le _ _
  · split
    · exact length_dropWhile_le _ _
    · split <;> try simp
      split
      · exact length_dropWhile_le _ _
      · simp

def lexFrom (offset : Nat) (text : List Char) : List Lexeme :=
  match text with
  | [] => []
  | character :: rest =>
    if isSeparator character then
      lexFrom (offset + character.utf8Size) rest
    else
      ⟨(lexAt character rest).1, offset⟩ ::
        lexFrom (offset + byteCount (lexAt character rest).1.toChars) (lexAt character rest).2
termination_by text.length
decreasing_by
  · simp
  · have := length_lexAt_le character rest
    simp
    omega

def lex (text : String) : List Lexeme :=
  lexFrom 0 text.toList

end LinkedDocs.Selector
