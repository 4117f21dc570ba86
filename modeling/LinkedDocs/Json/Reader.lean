import LinkedDocs.Json.Basic

/-!
Reading JSON text. `readRaw?` keeps repeated fields of an object; `read?` merges them. Each reading
function returns what it read and the characters after it. Values run on fuel, of which every call
uses one unit: of two nested calls at least one consumes a character, so twice the length of the text
is enough.
-/

namespace LinkedDocs.Json

/-- Arrays and objects may be nested less deep than this. -/
def nestingLimit : Nat := 128

def isSpace (character : Char) : Bool :=
  character == ' ' || character == '\n' || character == '\t' || character == '\r'

def skipSpace (text : List Char) : List Char :=
  text.dropWhile isSpace

def digitValue (character : Char) : Nat :=
  character.toNat - '0'.toNat

/-- The digits at the start of a text, and the rest. -/
def readDigits (text : List Char) : List Nat × List Char :=
  ((text.takeWhile Char.isDigit).map digitValue, text.dropWhile Char.isDigit)

/-- The largest unsigned integer of 64 bits. -/
def largestNat : Nat := UInt64.size - 1

/-- Appends digits to a number as long as it fits 64 bits; the second result counts the digits left
over. -/
def appendDigits (number : Nat) : List Nat → Nat × Nat
  | [] => (number, 0)
  | digit :: rest =>
    if number * 10 + digit ≤ largestNat then appendDigits (number * 10 + digit) rest
    else (number, rest.length + 1)

/-- The value of a number with a point or an exponent, or with too many digits for an integer. -/
def decimalNumber? (negative : Bool) (whole fraction : List Nat) (exponent : Int) :
    Option Number :=
  let (leading, dropped) := appendDigits 0 whole
  let (digits, unread) := appendDigits leading fraction
  let places := (fraction.length : Int) - unread
  (Double.ofDecimal? negative digits (dropped - places + exponent)).map .double

/-- The value of a number without point and exponent. -/
def integerNumber? (negative : Bool) (whole : List Nat) : Option Number :=
  match appendDigits 0 whole with
  | (value, 0) =>
    if !negative then some (.int value)
    else if value = 0 then some (.double ⟨true, 0⟩)
    else if value ≤ UInt64.size / 2 then some (.int (-value))
    else some (.double { Double.ofInt value with negative := true })
  | _ => decimalNumber? negative whole [] 0

def readFraction? (text : List Char) : Option (Option (List Nat) × List Char) :=
  match text with
  | '.' :: rest =>
    match readDigits rest with
    | ([], _) => none
    | (digits, rest) => some (some digits, rest)
  | rest => some (none, rest)

def natOfDigits (digits : List Nat) : Nat :=
  digits.foldl (fun number digit => number * 10 + digit) 0

def readExponent? (text : List Char) : Option (Option Int × List Char) :=
  match text with
  | mark :: rest =>
    if mark == 'e' || mark == 'E' then
      let (negative, rest) :=
        match rest with
        | '-' :: rest => (true, rest)
        | '+' :: rest => (false, rest)
        | rest => (false, rest)
      match readDigits rest with
      | ([], _) => none
      | (digits, rest) =>
        let value : Int := natOfDigits digits
        some (some (if negative then -value else value), rest)
    else
      some (none, text)
  | [] => some (none, [])

def readNumber? (text : List Char) : Option (Number × List Char) := do
  let (negative, text) :=
    match text with
    | '-' :: rest => (true, rest)
    | text => (false, text)
  let (whole, text) := readDigits text
  if whole.isEmpty || (whole.head? == some 0 && whole.length != 1) then none
  else
    let (fraction, text) ← readFraction? text
    let (exponent, text) ← readExponent? text
    let value ←
      if fraction.isNone && exponent.isNone then integerNumber? negative whole
      else decimalNumber? negative whole (fraction.getD []) (exponent.getD 0)
    return (value, text)

def hexValue? (character : Char) : Option Nat :=
  if '0' ≤ character ∧ character ≤ '9' then some (character.toNat - '0'.toNat)
  else if 'a' ≤ character ∧ character ≤ 'f' then some (character.toNat - 'a'.toNat + 10)
  else if 'A' ≤ character ∧ character ≤ 'F' then some (character.toNat - 'A'.toNat + 10)
  else none

def readHex? (text : List Char) : Option (Nat × List Char) :=
  match text with
  | a :: b :: c :: d :: rest => do
    return (((← hexValue? a) * 16 + (← hexValue? b)) * 256 + (← hexValue? c) * 16 + (← hexValue? d),
      rest)
  | _ => none

/-- Reads the unit after `\u`. A leading surrogate needs a trailing one after it. -/
def readUnit? (text : List Char) : Option (Char × List Char) := do
  let (unit, rest) ← readHex? text
  if 0xD800 ≤ unit ∧ unit < 0xDC00 then
    match rest with
    | '\\' :: 'u' :: rest =>
      let (trail, rest) ← readHex? rest
      if 0xDC00 ≤ trail ∧ trail < 0xE000 then
        some (Char.ofNat (0x10000 + (unit - 0xD800) * 1024 + (trail - 0xDC00)), rest)
      else
        none
    | _ => none
  else if 0xDC00 ≤ unit ∧ unit < 0xE000 then none
  else some (Char.ofNat unit, rest)

def simpleEscape? (character : Char) : Option Char :=
  match character with
  | '"' => some '"'
  | '\\' => some '\\'
  | '/' => some '/'
  | 'b' => some '\x08'
  | 'f' => some '\x0c'
  | 'n' => some '\n'
  | 'r' => some '\r'
  | 't' => some '\t'
  | _ => none

/-- Reads a string up to its closing quote. -/
def readString? : Nat → List Char → Option (List Char × List Char)
  | 0, _ => none
  | _ + 1, [] => none
  | fuel + 1, character :: rest =>
    if character = '"' then
      some ([], rest)
    else if character = '\\' then
      match rest with
      | 'u' :: rest => do
        let (character, rest) ← readUnit? rest
        let (characters, rest) ← readString? fuel rest
        return (character :: characters, rest)
      | escaped :: rest => do
        let character ← simpleEscape? escaped
        let (characters, rest) ← readString? fuel rest
        return (character :: characters, rest)
      | [] => none
    else if character.toNat < 0x20 then
      none
    else do
      let (characters, rest) ← readString? fuel rest
      return (character :: characters, rest)

mutual

/-- Reads a value that may hold `depth - 1` further levels of arrays and objects. -/
def readValue? (fuel depth : Nat) (text : List Char) : Option (Json × List Char) :=
  match fuel with
  | 0 => none
  | fuel + 1 =>
    match skipSpace text with
    | 'n' :: 'u' :: 'l' :: 'l' :: rest => some (.null, rest)
    | 't' :: 'r' :: 'u' :: 'e' :: rest => some (.bool true, rest)
    | 'f' :: 'a' :: 'l' :: 's' :: 'e' :: rest => some (.bool false, rest)
    | '"' :: rest =>
      (readString? fuel rest).map fun (characters, rest) =>
        (.string (String.ofList characters), rest)
    | '[' :: rest =>
      if depth ≤ 1 then none
      else
        match skipSpace rest with
        | ']' :: rest => some (.array [], rest)
        | rest => (readItems? fuel (depth - 1) rest).map fun (items, rest) => (.array items, rest)
    | '{' :: rest =>
      if depth ≤ 1 then none
      else
        match skipSpace rest with
        | '}' :: rest => some (.object [], rest)
        | rest =>
          (readFields? fuel (depth - 1) rest).map fun (fields, rest) => (.object fields, rest)
    | text => (readNumber? text).map fun (value, rest) => (.number value, rest)
termination_by structural fuel

def readItems? (fuel depth : Nat) (text : List Char) : Option (List Json × List Char) :=
  match fuel with
  | 0 => none
  | fuel + 1 => do
    let (item, rest) ← readValue? fuel depth text
    match skipSpace rest with
    | ',' :: rest =>
      let (items, rest) ← readItems? fuel depth rest
      return (item :: items, rest)
    | ']' :: rest => return ([item], rest)
    | _ => none
termination_by structural fuel

def readFields? (fuel depth : Nat) (text : List Char) :
    Option (List (String × Json) × List Char) :=
  match fuel with
  | 0 => none
  | fuel + 1 =>
    match skipSpace text with
    | '"' :: rest => do
      let (name, rest) ← readString? fuel rest
      match skipSpace rest with
      | ':' :: rest =>
        let (value, rest) ← readValue? fuel depth rest
        match skipSpace rest with
        | ',' :: rest =>
          let (fields, rest) ← readFields? fuel depth rest
          return ((String.ofList name, value) :: fields, rest)
        | '}' :: rest => return ([(String.ofList name, value)], rest)
        | _ => none
      | _ => none
    | _ => none
termination_by structural fuel

end

/-- Reads a whole text, keeping the repeated fields of its objects. -/
def readRaw? (text : String) : Option Json := do
  let characters := text.toList
  let (value, rest) ← readValue? (2 * characters.length + 1) nestingLimit characters
  if (skipSpace rest).isEmpty then some value else none

def read? (text : String) : Option Json :=
  (readRaw? text).map collapse

end LinkedDocs.Json
