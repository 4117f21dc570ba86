import LinkedDocs.Regex.Class

namespace LinkedDocs.Regex

/-- An element of a sequence. Flags that were set in between cannot be repeated. -/
inductive Piece where
  | part (regex : Regex)
  | flagsSet

def Piece.regex? : Piece → Option Regex
  | .part regex => some regex
  | .flagsSet => none

/-- The sequence of pieces that were read last first. -/
def sequenceOfPieces (pieces : List Piece) : Regex :=
  sequenceOf (pieces.reverse.filterMap Piece.regex?)

/-- The letter of a flag in a pattern; swapping greed changes no set of matches. -/
def Flags.set? (flags : Flags) (letter : Char) (value : Bool) : Option Flags :=
  match letter with
  | 'i' => some { flags with ignoreCase := value }
  | 'm' => some { flags with multiLine := value }
  | 's' => some { flags with dotMatchesNewLine := value }
  | 'x' => some { flags with verbose := value }
  | 'u' => some { flags with unicode := value }
  | 'R' => some { flags with crlf := value }
  | 'U' => some flags
  | _ => none

/-- Reads flags up to a colon or closing parenthesis. No flag may occur twice, and a hyphen, which
clears the flags after it, must have some after it. -/
def readFlags? (flags : Flags) (seen : List Char) (cleared : Bool) :
    List Char → Option (Flags × List Char)
  | [] => none
  | character :: rest =>
    if character = ':' || character = ')' then
      if seen.head? == some '-' then none else some (flags, character :: rest)
    else if seen.contains character then none
    else if character = '-' then readFlags? flags ('-' :: seen) true rest
    else do
      let flags ← flags.set? character !cleared
      readFlags? flags (character :: seen) cleared rest

def isNameStart (character : Char) : Bool :=
  character == '_' || Category.isLetter character

def isNameChar (character : Char) : Bool :=
  isNameStart character || Category.isNumeral character || character == '.' ||
    character == '[' || character == ']'

def readName? (text : List Char) : Option (String × List Char) :=
  let name := text.takeWhile isNameChar
  match text.dropWhile isNameChar with
  | '>' :: rest =>
    if name.head?.any isNameStart then some (String.ofList name, rest) else none
  | _ => none

/-- Reads a count; blanks around it are skipped. -/
def readCount? (flags : Flags) (text : List Char) : Option (Nat × List Char) :=
  let rec digits (value : Option Nat) : Nat → List Char → Option (Nat × List Char)
    | 0, _ => none
    | fuel + 1, text =>
      match flags.skip text with
      | character :: rest =>
        if character.isDigit then
          digits (some (value.getD 0 * 10 + (character.toNat - '0'.toNat))) fuel rest
        else
          value.bind fun value =>
            if value < UInt32.size then
              some (value, flags.skip ((character :: rest).dropWhile isBlank))
            else
              none
      | [] => none
  let text := text.dropWhile isBlank
  digits none (text.length + 1) text

/-- Reads the bounds of a repetition after its opening brace. -/
def readBounds? (flags : Flags) (text : List Char) :
    Option (Nat × Option Nat × List Char) := do
  let (least, rest) ← readCount? flags (flags.skip text)
  match rest with
  | '}' :: rest => return (least, some least, rest)
  | ',' :: rest =>
    match flags.skip rest with
    | '}' :: rest => return (least, none, rest)
    | rest =>
      let (greatest, rest) ← readCount? flags rest
      match rest with
      | '}' :: rest => if greatest < least then none else return (least, some greatest, rest)
      | _ => none
  | _ => none

/-- Drops the mark of a lazy repetition, which changes no set of matches. -/
def skipLazyMark : List Char → List Char
  | '?' :: rest => rest
  | rest => rest

def repeatLast? (least : Nat) (greatest : Option Nat) : List Piece → Option (List Piece)
  | .part regex :: others => some (.part (.repeated regex least greatest) :: others)
  | _ => none

def Flags.dot? (flags : Flags) : Option Regex :=
  if !flags.unicode then none
  else if flags.dotMatchesNewLine then some (.charIn fun _ => true)
  else if flags.crlf then
    some (.charIn fun character => character != '\n' && character != '\r')
  else some (.charIn (· != '\n'))

def Flags.caret (flags : Flags) : Assertion :=
  if !flags.multiLine then .textStart else if flags.crlf then .lineStartCrlf else .lineStart

def Flags.dollar (flags : Flags) : Assertion :=
  if !flags.multiLine then .textEnd else if flags.crlf then .lineEndCrlf else .lineEnd

def Primitive.regex (flags : Flags) : Primitive → Regex
  | .literal character => .charIn (flags.fold (· == character))
  | .set holds => .charIn holds
  | .assertion condition => .assertion condition

/-- Whether the text after an opening parenthesis asks for look-around. -/
def isLookAround : List Char → Bool
  | '?' :: '=' :: _ => true
  | '?' :: '!' :: _ => true
  | '?' :: '<' :: '=' :: _ => true
  | '?' :: '<' :: '!' :: _ => true
  | _ => false

/-- What was read up to the end of a group: its expression, the names of all groups so far, and the
rest. -/
structure GroupRead where
  regex : Regex
  names : List String
  rest : List Char

/-- What opens a group: a name for it, flags for its body, or flags for what follows it. -/
inductive GroupOpening where
  | body (name : Option String) (flags : Flags) (rest : List Char)
  | setFlags (flags : Flags) (rest : List Char)

def openGroup? (flags : Flags) (text : List Char) : Option GroupOpening :=
  let text := flags.skip text
  if isLookAround text then none
  else
    match text with
    | '?' :: 'P' :: '<' :: rest =>
      (readName? rest).map fun (name, rest) => .body (some name) flags rest
    | '?' :: '<' :: rest => (readName? rest).map fun (name, rest) => .body (some name) flags rest
    | '?' :: ')' :: _ => none
    | '?' :: rest => do
      let (inner, rest) ← readFlags? flags [] false rest
      match rest with
      | ':' :: rest => return .body none inner rest
      | ')' :: rest => return .setFlags inner rest
      | _ => none
    | text => some (.body none flags text)

/-- Reads alternatives up to a closing parenthesis or the end of the pattern. -/
def readGroup? : Nat → Flags → List String → List Regex → List Piece → List Char →
    Option GroupRead
  | 0, _, _, _, _, _ => none
  | fuel + 1, flags, names, branches, pieces, text =>
    let add (regex : Regex) (rest : List Char) :=
      readGroup? fuel flags names branches (.part regex :: pieces) rest
    let repeatLast (least : Nat) (greatest : Option Nat) (rest : List Char) := do
      readGroup? fuel flags names branches (← repeatLast? least greatest pieces)
        (skipLazyMark rest)
    let finish := eitherOf (branches ++ [sequenceOfPieces pieces])
    match flags.skip text with
    | [] => some ⟨finish, names, []⟩
    | ')' :: rest => some ⟨finish, names, ')' :: rest⟩
    | '|' :: rest =>
      readGroup? fuel flags names (branches ++ [sequenceOfPieces pieces]) [] rest
    | '(' :: rest => do
      match ← openGroup? flags rest with
      | .setFlags flags rest =>
        readGroup? fuel flags names branches (.flagsSet :: pieces) rest
      | .body name inner rest =>
        if name.any names.contains then none
        else
          let group ← readGroup? fuel inner (name.toList ++ names) [] [] rest
          match group.rest with
          | ')' :: rest =>
            readGroup? fuel flags group.names branches (.part group.regex :: pieces) rest
          | _ => none
    | '[' :: rest => do
      let (negated, state, rest) := openClass flags rest
      let (set, rest) ← readClass? flags (rest.length + 1) negated state rest
      add (.charIn set) rest
    | '?' :: rest => repeatLast 0 (some 1) rest
    | '*' :: rest => repeatLast 0 none rest
    | '+' :: rest => repeatLast 1 none rest
    | '{' :: rest => do
      let (least, greatest, rest) ← readBounds? flags rest
      repeatLast least greatest (flags.skip rest)
    | '.' :: rest => do add (← flags.dot?) rest
    | '^' :: rest => add (.assertion flags.caret) rest
    | '$' :: rest => add (.assertion flags.dollar) rest
    | '\\' :: rest => do
      let (primitive, rest) ← readEscape? flags rest
      add (primitive.regex flags) rest
    | character :: rest => add ((Primitive.literal character).regex flags) rest

/-- The number of steps of the expression with its repetitions written out. -/
def expandedSize : Regex → Nat
  | .empty => 1
  | .charIn _ => 1
  | .assertion _ => 1
  | .sequence first second => expandedSize first + expandedSize second
  | .either first second => expandedSize first + expandedSize second
  | .repeated body least greatest => expandedSize body * max 1 (max least (greatest.getD 0))

/-- Larger expressions are refused. -/
def sizeLimit : Nat := 300000

/-- Reads a whole pattern; `none` when it is invalid. -/
def read? (flags : Flags) (pattern : String) : Option Regex := do
  let text := pattern.toList
  let group ← readGroup? (text.length + 1) flags [] [] [] text
  if group.rest.isEmpty && group.regex.expandedSize ≤ sizeLimit then some group.regex else none

end LinkedDocs.Regex
