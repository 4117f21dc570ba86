import LinkedDocs.Yaml.Scalar

/-!
Reading YAML text of one document: block and flow mappings and sequences, scalars and comments.
Anchors, tags, complex keys and block scalars are not read. Nodes run on fuel, of which a call uses
one unit; no more than a few calls nest before a character is consumed.
-/

namespace LinkedDocs

inductive Yaml where
  | scalar (scalar : Yaml.Scalar)
  | sequence (items : List Yaml)
  | mapping (entries : List (Yaml × Yaml))
deriving Inhabited

namespace Yaml

/-- The scalar that stands for what is left out. -/
def nothing : Yaml := .scalar ⟨"", true⟩

mutual

def readFlow? (fuel : Nat) (cursor : Cursor) : Option (Yaml × Cursor) :=
  match fuel with
  | 0 => none
  | fuel + 1 =>
    let cursor := cursor.skip true
    match cursor.rest with
    | '[' :: _ =>
      (readFlowItems? fuel (cursor.advance 1)).map fun (items, cursor) => (.sequence items, cursor)
    | '{' :: _ =>
      (readFlowEntries? fuel (cursor.advance 1)).map fun (entries, cursor) =>
        (.mapping entries, cursor)
    | ',' :: _ => some (nothing, cursor)
    | ']' :: _ => some (nothing, cursor)
    | '}' :: _ => some (nothing, cursor)
    | ':' :: _ => some (nothing, cursor)
    | _ =>
      (readScalar? true 0 cursor).map fun reading =>
        (.scalar reading.scalar, reading.after)
termination_by structural fuel

/-- Reads what follows a key between flow marks. -/
def readFlowValue? (fuel : Nat) (cursor : Cursor) : Option (Yaml × Cursor) :=
  match fuel with
  | 0 => none
  | fuel + 1 =>
    let cursor := cursor.skip true
    match cursor.rest with
    | ':' :: _ => readFlow? fuel (cursor.advance 1)
    | _ => some (nothing, cursor)
termination_by structural fuel

def readFlowItems? (fuel : Nat) (cursor : Cursor) : Option (List Yaml × Cursor) :=
  match fuel with
  | 0 => none
  | fuel + 1 =>
    let cursor := cursor.skip true
    match cursor.rest with
    | ']' :: _ => some ([], cursor.advance 1)
    | ',' :: _ => none
    | _ => do
      let (item, cursor) ← readFlow? fuel cursor
      let cursor := cursor.skip true
      let (item, cursor) ←
        match cursor.rest with
        | ':' :: _ =>
          (readFlowValue? fuel cursor).map fun (value, cursor) =>
            (Yaml.mapping [(item, value)], cursor.skip true)
        | _ => some (item, cursor)
      match cursor.rest with
      | ',' :: _ =>
        let (items, cursor) ← readFlowItems? fuel (cursor.advance 1)
        return (item :: items, cursor)
      | ']' :: _ => return ([item], cursor.advance 1)
      | _ => none
termination_by structural fuel

def readFlowEntries? (fuel : Nat) (cursor : Cursor) : Option (List (Yaml × Yaml) × Cursor) :=
  match fuel with
  | 0 => none
  | fuel + 1 =>
    let cursor := cursor.skip true
    match cursor.rest with
    | '}' :: _ => some ([], cursor.advance 1)
    | ',' :: _ => none
    | _ => do
      let (key, cursor) ← readFlow? fuel cursor
      let (value, cursor) ← readFlowValue? fuel cursor
      let cursor := cursor.skip true
      match cursor.rest with
      | ',' :: _ =>
        let (entries, cursor) ← readFlowEntries? fuel (cursor.advance 1)
        return ((key, value) :: entries, cursor)
      | '}' :: _ => return ([(key, value)], cursor.advance 1)
      | _ => none
termination_by structural fuel

end

def opensFlow (cursor : Cursor) : Bool :=
  cursor.rest.head? == some '[' || cursor.rest.head? == some '{'

/-- The place after the colon that makes a scalar a key. -/
def afterColon? (reading : ScalarReading) : Option Cursor :=
  let cursor := reading.after.skipBlanks
  if !reading.spansLines && !reading.after.fresh && cursor.isAtIndicator ':' then
    some (cursor.advance 1)
  else
    none

mutual

/-- Reads a block node that is indented at least so far. Below a key, the dashes of a sequence need
no indentation. -/
def readBlock? (fuel indent : Nat) (belowKey : Bool) (cursor : Cursor) : Option (Yaml × Cursor) :=
  match fuel with
  | 0 => none
  | fuel + 1 =>
    let cursor := cursor.skip false
    let column := cursor.column
    if cursor.isAtDocumentEnd then some (nothing, cursor)
    else if cursor.fresh && column < indent &&
        !(belowKey && column + 1 = indent && cursor.isAtIndicator '-') then
      some (nothing, cursor)
    else if cursor.isAtIndicator '-' then
      if cursor.fresh then
        (readBlockItems? fuel column cursor).map fun (items, cursor) => (.sequence items, cursor)
      else
        none
    else if opensFlow cursor then
      readFlow? (cursor.rest.length * 2 + 2) cursor
    else do
      let reading ← readScalar? false indent cursor
      match afterColon? reading with
      | none => return (.scalar reading.scalar, reading.after)
      | some after =>
        if cursor.fresh then
          let (entries, cursor) ← readBlockEntry? fuel column reading.scalar after
          return (.mapping entries, cursor)
        else
          none
termination_by structural fuel

def readBlockItems? (fuel column : Nat) (cursor : Cursor) : Option (List Yaml × Cursor) :=
  match fuel with
  | 0 => none
  | fuel + 1 => do
    let dash := cursor.advance 1
    let (item, cursor) ← readBlock? fuel (column + 1) false { dash with fresh := true }
    let cursor := cursor.skip false
    if !cursor.isAtDocumentEnd && cursor.fresh && cursor.column = column &&
        cursor.isAtIndicator '-' then
      let (items, cursor) ← readBlockItems? fuel column cursor
      return (item :: items, cursor)
    else
      return ([item], cursor)
termination_by structural fuel

/-- Reads the value of a key in a column, and the entries after it. -/
def readBlockEntry? (fuel column : Nat) (key : Scalar) (cursor : Cursor) :
    Option (List (Yaml × Yaml) × Cursor) :=
  match fuel with
  | 0 => none
  | fuel + 1 => do
    let (value, cursor) ← readBlock? fuel (column + 1) true cursor
    let cursor := cursor.skip false
    if cursor.isAtDocumentEnd || (cursor.fresh && cursor.column < column) ||
        (cursor.fresh && cursor.isAtIndicator '-') then
      return ([(.scalar key, value)], cursor)
    else if cursor.fresh && cursor.column = column then
      let reading ← readScalar? false (column + 1) cursor
      let after ← afterColon? reading
      let (entries, cursor) ← readBlockEntry? fuel column reading.scalar after
      return ((.scalar key, value) :: entries, cursor)
    else
      none
termination_by structural fuel

end

/-- The place after the mark that may open a document. -/
def skipOpening (cursor : Cursor) : Cursor :=
  let cursor := cursor.skip false
  if cursor.isAtMark '-' then cursor.advance 3 else cursor

def read? (text : String) : Option Yaml := do
  let characters := unifyLineEnds (text.toList.dropWhile (· == '\ufeff'))
  if !characters.all isPrintable then none
  let (value, cursor) ←
    readBlock? (4 * characters.length + 4) 0 false (skipOpening { rest := characters })
  let cursor := cursor.skip false
  let cursor := if cursor.isAtMark '.' then (cursor.advance 3).skip false else cursor
  if cursor.isAtEnd then some value else none

end Yaml

end LinkedDocs
