import LinkedDocs.Platform.Basic
import LinkedDocs.Regex.Basic
import LinkedDocs.Text.CaseFolding

namespace LinkedDocs.Regex

structure Flags extends PatternFlags where
  unicode : Bool := true
  crlf : Bool := false

abbrev CharSet := Char → Bool

/-- Skips blanks, and comments up to the end of their line. -/
def skipBlanks (inComment : Bool) : List Char → List Char
  | [] => []
  | character :: rest =>
    if inComment then skipBlanks (character != '\n') rest
    else if isBlank character then skipBlanks false rest
    else if character = '#' then skipBlanks true rest
    else character :: rest

def Flags.skip (flags : Flags) (text : List Char) : List Char :=
  if flags.verbose then skipBlanks false text else text

def isAscii (character : Char) : Bool :=
  character.toNat < 128

def asciiVariants (character : Char) : List Char :=
  [character, character.toLower, character.toUpper]

/-- The set with all case variants of its characters, when case is ignored. -/
def Flags.fold (flags : Flags) (set : CharSet) : CharSet :=
  if !flags.ignoreCase then set
  else if flags.unicode then fun character => (CaseFolding.variants character).any set
  else fun character => (asciiVariants character).any set

def Flags.isWord (flags : Flags) : CharSet :=
  if flags.unicode then Category.isWord
  else fun character => character.isAlphanum || character == '_'

def Flags.isDigit (flags : Flags) : CharSet :=
  if flags.unicode then Category.isDigit else Char.isDigit

def Flags.isSpace (flags : Flags) : CharSet :=
  if flags.unicode then isBlank else fun character => isAscii character && isBlank character

/-- The complement of a set. Without Unicode it would match parts of characters, which is
refused. -/
def Flags.complement? (flags : Flags) (set : CharSet) : Option CharSet :=
  if flags.unicode then some fun character => !set character else none

/-- What an escape or a plain character stands for. -/
inductive Primitive where
  | literal (character : Char)
  | set (holds : CharSet)
  | assertion (condition : Assertion)

/-- A code as a character, unless it is none. -/
def charOfCode? (code : Nat) : Option Char :=
  if h : code.isValidChar then some (Char.ofNatAux code h) else none

def hexDigit? (character : Char) : Option Nat :=
  if character.isDigit then some (character.toNat - '0'.toNat)
  else if 'a' ≤ character ∧ character ≤ 'f' then some (character.toNat - 'a'.toNat + 10)
  else if 'A' ≤ character ∧ character ≤ 'F' then some (character.toNat - 'A'.toNat + 10)
  else none

def readHexDigits? (flags : Flags) : Nat → Nat → List Char → Option (Nat × List Char)
  | 0, code, text => some (code, text)
  | count + 1, code, text =>
    match flags.skip text with
    | [] => none
    | character :: rest => do
      readHexDigits? flags count (code * 16 + (← hexDigit? character)) rest

/-- The text up to a closing brace, without what is skipped. -/
def readBraced? (flags : Flags) (text : List Char) : Option (List Char × List Char) :=
  let body := text.takeWhile (· != '}')
  match text.dropWhile (· != '}') with
  | _ :: rest =>
    some (if flags.verbose then body.filter fun character => !isBlank character else body, rest)
  | [] => none

/-- Reads the code after `\x`, `\u` or `\U`, given the number of digits of its unbraced form. -/
def readCode? (flags : Flags) (count : Nat) (text : List Char) : Option (Char × List Char) :=
  match flags.skip text with
  | '{' :: rest => do
    let (digits, rest) ← readBraced? flags rest
    if digits.isEmpty then none
    else
      let code ← digits.foldlM (fun code digit => (hexDigit? digit).map (code * 16 + ·)) 0
      return (← charOfCode? code, rest)
  | text => do
    let (code, rest) ← readHexDigits? flags count 0 text
    return (← charOfCode? code, rest)

/-- Class names are compared without case, blanks, hyphens, underscores and a leading `is`. -/
def normalizeName (name : List Char) : String :=
  let plain := (name.filter fun character =>
    character.isAlphanum || character == '=' || character == ':' || character == '!').map
      Char.toLower
  match plain with
  | 'i' :: 's' :: rest => String.ofList rest
  | plain => String.ofList plain

def namedClass? (name : String) : Option CharSet :=
  match name with
  | "any" => some fun _ => true
  | "ascii" => some isAscii
  | "assigned" => some fun character => !Category.isUnassigned character
  | "whitespace" => some isBlank
  | "space" => some isBlank
  | name => Category.class? name

/-- A class given by its name, or by the property of general categories and a value. -/
def propertyClass? (name : List Char) : Option CharSet :=
  let operator := fun character => character == '=' || character == ':' || character == '!'
  let property := normalizeName (name.takeWhile (!operator ·))
  let general := property == "gc" || property == "generalcategory"
  match name.dropWhile (!operator ·) with
  | [] => namedClass? property
  | '!' :: '=' :: value =>
    if general then
      (namedClass? (normalizeName value)).map fun set character => !set character
    else
      none
  | '!' :: _ => none
  | _ :: value => if general then namedClass? (normalizeName value) else none

/-- Reads the name after `\p`: one letter, or a name in braces. -/
def readProperty? (flags : Flags) (negated : Bool) (text : List Char) :
    Option (CharSet × List Char) := do
  if !flags.unicode then none
  else
    let (name, rest) ←
      match flags.skip text with
      | '{' :: rest => readBraced? flags rest
      | '\\' :: _ => none
      | letter :: rest => some ([letter], rest)
      | [] => none
    let set := flags.fold (← propertyClass? name)
    if negated then return (fun character => !set character, rest) else return (set, rest)

/-- Characters that stand for themselves after a backslash. -/
def isEscapable (character : Char) : Bool :=
  isAscii character && !character.isAlphanum && character != '<' && character != '>'

/-- The characters in the name of a word boundary. -/
def isBoundaryChar (character : Char) : Bool :=
  character.isAlpha || character == '-'

/-- Reads what may follow `\b` in braces: the name of a one-sided boundary. Braces that do not begin
like a name are left to be read as a repetition. -/
def readBoundary? (flags : Flags) (text : List Char) : Option (Assertion × List Char) :=
  let plain := Assertion.wordBoundary false flags.isWord
  match text with
  | '{' :: rest =>
    match flags.skip rest with
    | [] => none
    | first :: inner =>
      if !isBoundaryChar first then some (plain, text)
      else do
        let (name, rest) ← readBraced? flags (first :: inner)
        match String.ofList name with
        | "start" => return (.wordStart flags.isWord, rest)
        | "end" => return (.wordEnd flags.isWord, rest)
        | "start-half" => return (.wordStartHalf flags.isWord, rest)
        | "end-half" => return (.wordEndHalf flags.isWord, rest)
        | _ => none
  | text => some (plain, text)

/-- Reads what follows a backslash. -/
def readEscape? (flags : Flags) (text : List Char) : Option (Primitive × List Char) :=
  match text with
  | [] => none
  | character :: rest =>
    let set (holds : CharSet) := some (Primitive.set holds, rest)
    let complement (holds : CharSet) :=
      (flags.complement? holds).map fun holds => (Primitive.set holds, rest)
    let literal (meant : Char) := some (Primitive.literal meant, rest)
    let assertion (condition : Assertion) := some (Primitive.assertion condition, rest)
    match character with
    | 'd' => set flags.isDigit
    | 'D' => complement flags.isDigit
    | 's' => set flags.isSpace
    | 'S' => complement flags.isSpace
    | 'w' => set flags.isWord
    | 'W' => complement flags.isWord
    | 'p' => (readProperty? flags false rest).map fun (holds, rest) => (.set holds, rest)
    | 'P' => (readProperty? flags true rest).map fun (holds, rest) => (.set holds, rest)
    | 'x' => (readCode? flags 2 rest).map fun (meant, rest) => (.literal meant, rest)
    | 'u' => (readCode? flags 4 rest).map fun (meant, rest) => (.literal meant, rest)
    | 'U' => (readCode? flags 8 rest).map fun (meant, rest) => (.literal meant, rest)
    | 'a' => literal '\x07'
    | 'f' => literal '\x0c'
    | 't' => literal '\t'
    | 'n' => literal '\n'
    | 'r' => literal '\r'
    | 'v' => literal '\x0b'
    | 'A' => assertion .textStart
    | 'z' => assertion .textEnd
    | 'b' =>
      (readBoundary? flags rest).map fun (condition, rest) => (.assertion condition, rest)
    | 'B' => assertion (.wordBoundary true flags.isWord)
    | '<' => assertion (.wordStart flags.isWord)
    | '>' => assertion (.wordEnd flags.isWord)
    | other => if isEscapable other then literal other else none

/-- The classes that are named inside brackets. -/
def bracketClass? (name : String) : Option CharSet :=
  match name with
  | "alnum" => some Char.isAlphanum
  | "alpha" => some Char.isAlpha
  | "ascii" => some isAscii
  | "blank" => some fun character => character == ' ' || character == '\t'
  | "cntrl" => some fun character => character.toNat < 0x20 || character.toNat == 0x7F
  | "digit" => some Char.isDigit
  | "graph" => some fun character => 0x20 < character.toNat && character.toNat < 0x7F
  | "lower" => some Char.isLower
  | "print" => some fun character => 0x20 ≤ character.toNat && character.toNat < 0x7F
  | "punct" => some fun character =>
      0x20 < character.toNat && character.toNat < 0x7F && !character.isAlphanum
  | "space" => some fun character => isAscii character && isBlank character
  | "upper" => some Char.isUpper
  | "word" => some fun character => character.isAlphanum || character == '_'
  | "xdigit" => some fun character => (hexDigit? character).isSome
  | _ => none

/-- Reads a class such as `[:alpha:]` or `[:^alpha:]`, whose opening bracket is already read. -/
def readBracketClass? (flags : Flags) (text : List Char) : Option (CharSet × List Char) :=
  match text with
  | ':' :: rest =>
    let (negated, rest) :=
      match rest with
      | '^' :: rest => (true, rest)
      | rest => (false, rest)
    match rest.dropWhile (· != ':') with
    | ':' :: ']' :: after => do
      let set := flags.fold (← bracketClass? (String.ofList (rest.takeWhile (· != ':'))))
      if negated then return (← flags.complement? set, after) else return (set, after)
    | _ => none
  | _ => none

/-- Reads one member of a class, a character or an escape. -/
def readMember? (flags : Flags) (text : List Char) : Option (Primitive × List Char) :=
  match text with
  | '\\' :: rest => readEscape? flags rest
  | character :: rest => some (.literal character, rest)
  | [] => none

def Primitive.set? (flags : Flags) : Primitive → Option CharSet
  | .literal character =>
    if flags.unicode || isAscii character then some (flags.fold (· == character)) else none
  | .set holds => some holds
  | .assertion _ => none

/-- Reads a member or a range of a class. A hyphen before a closing bracket or another hyphen makes
no range. -/
def readRange? (flags : Flags) (text : List Char) : Option (CharSet × List Char) := do
  let (first, rest) ← readMember? flags text
  let single (rest : List Char) := (first.set? flags).map fun set => (set, rest)
  match flags.skip rest with
  | [] => none
  | '-' :: after =>
    match flags.skip after with
    | [] => none
    | next :: more =>
      if next = ']' || next = '-' then single ('-' :: after)
      else
        let (last, rest) ← readMember? flags (next :: more)
        match first, last with
        | .literal low, .literal high =>
          if high < low || !(flags.unicode || isAscii high) then none
          else some (flags.fold fun character => low ≤ character && character ≤ high, rest)
        | _, _ => none
  | rest => single rest

inductive SetOperator where
  | intersection
  | difference
  | symmetricDifference

def SetOperator.apply (operator : SetOperator) (left right : CharSet) : CharSet :=
  fun character =>
    match operator with
    | .intersection => left character && right character
    | .difference => left character && !right character
    | .symmetricDifference => left character != right character

/-- The operands read so far: the left side of an operator, and the union that is being read. -/
structure ClassState where
  left : Option (CharSet × SetOperator) := none
  current : CharSet := fun _ => false

def ClassState.add (state : ClassState) (set : CharSet) : ClassState :=
  { state with current := fun character => state.current character || set character }

def ClassState.value (state : ClassState) : CharSet :=
  match state.left with
  | some (left, operator) => operator.apply left state.current
  | none => state.current

def ClassState.operate (state : ClassState) (operator : SetOperator) : ClassState :=
  { left := some (state.value, operator) }

/-- Skips hyphens that open a class; the first result tells whether there were any. -/
def skipHyphens (flags : Flags) (found : Bool) : Nat → List Char → Bool × List Char
  | 0, text => (found, text)
  | fuel + 1, text =>
    match flags.skip text with
    | '-' :: rest => skipHyphens flags true fuel rest
    | rest => (found, rest)

/-- Reads the opening of a class after its bracket: the negation, and hyphens or a closing bracket
that stand for themselves. -/
def openClass (flags : Flags) (text : List Char) : Bool × ClassState × List Char :=
  let (negated, text) :=
    match flags.skip text with
    | '^' :: rest => (true, rest)
    | rest => (false, rest)
  let (hyphen, text) := skipHyphens flags false text.length text
  if hyphen then (negated, ClassState.add {} (flags.fold (· == '-')), text)
  else
    match text with
    | ']' :: rest => (negated, ClassState.add {} (flags.fold (· == ']')), rest)
    | text => (negated, {}, text)

/-- Reads a class up to its closing bracket. -/
def readClass? (flags : Flags) : Nat → Bool → ClassState → List Char →
    Option (CharSet × List Char)
  | 0, _, _, _ => none
  | fuel + 1, negated, state, text =>
    match flags.skip text with
    | [] => none
    | ']' :: rest =>
      if negated then (flags.complement? state.value).map fun set => (set, rest)
      else some (state.value, rest)
    | '[' :: rest =>
      match readBracketClass? flags rest with
      | some (set, rest) => readClass? flags fuel negated (state.add set) rest
      | none => do
        let (innerNegated, inner, rest) := openClass flags rest
        let (set, rest) ← readClass? flags fuel innerNegated inner rest
        readClass? flags fuel negated (state.add set) rest
    | '&' :: '&' :: rest => readClass? flags fuel negated (state.operate .intersection) rest
    | '-' :: '-' :: rest => readClass? flags fuel negated (state.operate .difference) rest
    | '~' :: '~' :: rest =>
      readClass? flags fuel negated (state.operate .symmetricDifference) rest
    | text => do
      let (set, rest) ← readRange? flags text
      readClass? flags fuel negated (state.add set) rest

end LinkedDocs.Regex
