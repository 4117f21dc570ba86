import LinkedDocs.Yaml.Cursor

namespace LinkedDocs.Yaml

structure Scalar where
  text : String
  plain : Bool
deriving DecidableEq, Repr

/-- A scalar that was read, whether it runs over several lines, and the place after it. -/
structure ScalarReading where
  scalar : Scalar
  spansLines : Bool
  after : Cursor

/-- What blanks and line ends inside a scalar stand for. -/
def foldGap (blanks : List Char) : Nat → List Char
  | 0 => blanks
  | 1 => [' ']
  | lines + 2 => List.replicate (lines + 1) '\n'

def isFlowMark (character : Char) : Bool :=
  character == ',' || character == '[' || character == ']' || character == '{' || character == '}'

/-- Reads a plain scalar; `done` and `blanks` are reversed. -/
def plainFrom (flow : Bool) (indent : Nat) (done blanks : List Char) (lines : Nat)
    (spansLines : Bool) (column : Nat) (text : List Char) : Option ScalarReading :=
  let finish : ScalarReading :=
    ⟨⟨String.ofList done.reverse, true⟩, spansLines, ⟨text, column, lines != 0⟩⟩
  match text with
  | [] => some finish
  | character :: rest =>
    if character = '\n' then plainFrom flow indent done [] (lines + 1) spansLines 0 rest
    else if character = ' ' || character = '\t' then
      if lines = 0 then
        plainFrom flow indent done (character :: blanks) lines spansLines (column + 1) rest
      else if character = '\t' && column < indent then none
      else plainFrom flow indent done [] lines spansLines (column + 1) rest
    else if lines != 0 && ((!flow && column < indent) ||
        Cursor.isAtDocumentEnd ⟨character :: rest, column, true⟩) then
      some finish
    else if character = '#' && (lines != 0 || !blanks.isEmpty) then some finish
    else if flow && character = ':' &&
        rest.head?.any fun next => isFlowMark next || next == '?' then
      none
    else if (character = ':' && isGap rest.head?) || (flow && isFlowMark character) then some finish
    else
      plainFrom flow indent (character :: (foldGap blanks lines ++ done)) [] 0
        (spansLines || lines != 0) (column + 1) rest

/-- Characters with a meaning of their own at the start of a scalar. -/
def indicators : List Char :=
  ['#', '&', '*', '!', '|', '>', '\'', '"', '%', '@', '\x60']

/-- Whether a plain scalar may begin with a character. -/
def startsPlain (flow : Bool) (character : Char) (next : Option Char) : Bool :=
  if character == '-' then !isGap next
  else if character == '?' || character == ':' then !flow && !isGap next
  else !isGap (some character) && !isFlowMark character && !indicators.contains character

def hexNumber? (digits : List Char) : Option Nat :=
  digits.foldlM (fun value digit =>
    if digit.isDigit then some (value * 16 + (digit.toNat - '0'.toNat))
    else if 'a' ≤ digit ∧ digit ≤ 'f' then some (value * 16 + (digit.toNat - 'a'.toNat + 10))
    else if 'A' ≤ digit ∧ digit ≤ 'F' then some (value * 16 + (digit.toNat - 'A'.toNat + 10))
    else none) 0

/-- The character that a number stands for. -/
def character? (code : Nat) : Option Char :=
  if code.isValidChar then some (Char.ofNat code) else none

/-- The character after a backslash, and how many characters spell it. -/
def escaped? (text : List Char) : Option (Char × Nat) :=
  match text with
  | [] => none
  | character :: rest =>
    let numbered (count : Nat) : Option (Char × Nat) :=
      if rest.length < count then none
      else do return (← character? (← hexNumber? (rest.take count)), count + 1)
    match character with
    | '0' => some ('\x00', 1)
    | 'a' => some ('\x07', 1)
    | 'b' => some ('\x08', 1)
    | 't' => some ('\t', 1)
    | '\t' => some ('\t', 1)
    | 'n' => some ('\n', 1)
    | 'v' => some ('\x0b', 1)
    | 'f' => some ('\x0c', 1)
    | 'r' => some ('\r', 1)
    | 'e' => some ('\x1b', 1)
    | ' ' => some (' ', 1)
    | '"' => some ('"', 1)
    | '/' => some ('/', 1)
    | '\\' => some ('\\', 1)
    | 'N' => some ('\u0085', 1)
    | '_' => some ('\u00a0', 1)
    | 'L' => some ('\u2028', 1)
    | 'P' => some ('\u2029', 1)
    | 'x' => numbered 2
    | 'u' => numbered 4
    | 'U' => numbered 8
    | _ => none

/-- Reads a quoted scalar after its opening mark; `done` and `blanks` are reversed, and the first
`escape` characters belong to an escape that is read already. -/
def quotedFrom (double : Bool) (done blanks : List Char) (lines escape : Nat) (spansLines : Bool)
    (column : Nat) (text : List Char) : Option ScalarReading :=
  match text with
  | [] => none
  | character :: rest =>
    let filled := foldGap blanks lines ++ done
    let spans := spansLines || lines != 0
    match escape with
    | skipped + 1 => quotedFrom double done blanks lines skipped spansLines (column + 1) rest
    | 0 =>
      if Cursor.isAtMark ⟨text, column, false⟩ '-' || Cursor.isAtMark ⟨text, column, false⟩ '.' then
        none
      else if character = '\n' then quotedFrom double done [] (lines + 1) 0 spansLines 0 rest
      else if character = ' ' || character = '\t' then
        if lines = 0 then
          quotedFrom double done (character :: blanks) lines 0 spansLines (column + 1) rest
        else
          quotedFrom double done [] lines 0 spansLines (column + 1) rest
      else if double && character = '\\' then
        if rest.head? = some '\n' then
          -- The gap after an escaped line end stands for nothing.
          let gap := rest.takeWhile fun next => isGap (some next)
          quotedFrom double filled [] 0 gap.length true (column + 1) rest
        else
          match escaped? rest with
          | some (meant, count) =>
            quotedFrom double (meant :: filled) [] 0 count spans (column + 1) rest
          | none => none
      else if double && character = '"' then
        some ⟨⟨String.ofList filled.reverse, false⟩, spans, ⟨rest, column + 1, false⟩⟩
      else if !double && character = '\'' then
        if rest.head? = some '\'' then
          quotedFrom double ('\'' :: filled) [] 0 1 spans (column + 1) rest
        else
          some ⟨⟨String.ofList filled.reverse, false⟩, spans, ⟨rest, column + 1, false⟩⟩
      else
        quotedFrom double (character :: filled) [] 0 0 spans (column + 1) rest

/-- Reads a scalar that begins at a place; a plain one goes on as long as its lines are indented. -/
def readScalar? (flow : Bool) (indent : Nat) (cursor : Cursor) : Option ScalarReading :=
  match cursor.rest with
  | '\'' :: rest => quotedFrom false [] [] 0 0 false (cursor.column + 1) rest
  | '"' :: rest => quotedFrom true [] [] 0 0 false (cursor.column + 1) rest
  | character :: rest =>
    if startsPlain flow character rest.head? then
      plainFrom flow indent [] [] 0 false cursor.column cursor.rest
    else none
  | [] => none

end LinkedDocs.Yaml
