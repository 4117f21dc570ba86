import LinkedDocs.Json.Basic

namespace LinkedDocs.Json

def hexDigit (value : Nat) : Char :=
  (Nat.toDigits 16 value).headD '0'

/-- A character inside a quoted string. -/
def escape (character : Char) : List Char :=
  match character with
  | '"' => ['\\', '"']
  | '\\' => ['\\', '\\']
  | '\x08' => ['\\', 'b']
  | '\x0c' => ['\\', 'f']
  | '\n' => ['\\', 'n']
  | '\r' => ['\\', 'r']
  | '\t' => ['\\', 't']
  | other =>
    if other.toNat < 0x20 then
      ['\\', 'u', '0', '0', hexDigit (other.toNat / 16), hexDigit (other.toNat % 16)]
    else
      [other]

def quote (text : String) : List Char :=
  '"' :: text.toList.flatMap escape ++ ['"']

def boolChars (value : Bool) : List Char :=
  if value then "true".toList else "false".toList

mutual

def toChars (value : Json) : List Char :=
  match value with
  | .null => "null".toList
  | .bool value => boolChars value
  | .number value => value.toChars
  | .string value => quote value
  | .array items => '[' :: itemChars true items ++ [']']
  | .object fields => '{' :: fieldChars true fields ++ ['}']
termination_by structural value

def itemChars (first : Bool) (items : List Json) : List Char :=
  match items with
  | [] => []
  | item :: rest => (if first then [] else [',']) ++ toChars item ++ itemChars false rest
termination_by structural items

def fieldChars (first : Bool) (fields : List (String × Json)) : List Char :=
  match fields with
  | [] => []
  | (name, value) :: rest =>
    (if first then [] else [',']) ++ quote name ++ ':' :: toChars value ++ fieldChars false rest
termination_by structural fields

end

def toText (value : Json) : String :=
  String.ofList value.toChars

def newLine (level : Nat) : List Char :=
  '\n' :: List.replicate (2 * level) ' '

mutual

/-- The indented text of a value that starts at a level of nesting. -/
def indented (level : Nat) (value : Json) : List Char :=
  match value with
  | .null => "null".toList
  | .bool value => boolChars value
  | .number value => value.toChars
  | .string value => quote value
  | .array items =>
    if items.isEmpty then ['[', ']']
    else '[' :: indentedItems (level + 1) true items ++ newLine level ++ [']']
  | .object fields =>
    if fields.isEmpty then ['{', '}']
    else '{' :: indentedFields (level + 1) true fields ++ newLine level ++ ['}']
termination_by structural value

def indentedItems (level : Nat) (first : Bool) (items : List Json) : List Char :=
  match items with
  | [] => []
  | item :: rest =>
    (if first then [] else [',']) ++ newLine level ++ indented level item ++
      indentedItems level false rest
termination_by structural items

def indentedFields (level : Nat) (first : Bool) (fields : List (String × Json)) : List Char :=
  match fields with
  | [] => []
  | (name, value) :: rest =>
    (if first then [] else [',']) ++ newLine level ++ quote name ++ ':' :: ' ' ::
      indented level value ++ indentedFields level false rest
termination_by structural fields

end

def toIndentedText (value : Json) : String :=
  String.ofList (value.indented 0)

instance : ToString Json := ⟨toText⟩

end LinkedDocs.Json
