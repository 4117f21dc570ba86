import LinkedDocs.Selector.Basic
import LinkedDocs.Json.Text

namespace LinkedDocs.Selector

def outlineBreak (level : Nat) : String :=
  String.ofList ('\n' :: List.replicate (4 * level) ' ')

/-- A block with a head, its lines one level further in, each followed by a comma. -/
def outlineBlock (level : Nat) (opening closing : String) (lines : List String) : String :=
  opening ++ String.join (lines.map fun line => outlineBreak (level + 1) ++ line ++ ",") ++
    outlineBreak level ++ closing

def outlineRecord (level : Nat) (name : String) (fields : List (String × String)) : String :=
  outlineBlock level (name ++ " \x7b") "\x7d" (fields.map fun field => field.1 ++ ": " ++ field.2)

def outlineTuple (level : Nat) (name : String) (parts : List String) : String :=
  outlineBlock level (name ++ "(") ")" parts

def outlineList (level : Nat) (items : List String) : String :=
  if items.isEmpty then "[]" else outlineBlock level "[" "]" items

def quotedText (text : String) : String :=
  String.ofList (Json.quote text)

def outlineKey (level : Nat) : ObjectKey → String
  | .field name => outlineTuple level "Field" [quotedText name]
  | .wildcard => "Wildcard"

mutual

def outlineAt (level : Nat) (selector : Selector) : String :=
  match selector with
  | .identity => "Identity"
  | .field name next =>
    outlineRecord level "Field" [("name", quotedText name), ("next", outlineAt (level + 1) next)]
  | .index position next =>
    outlineRecord level "Index"
      [("index", toString position), ("next", outlineAt (level + 1) next)]
  | .shortcut next => outlineTuple level "Shortcut" [outlineAt (level + 1) next]
  | .map next => outlineTuple level "Map" [outlineAt (level + 1) next]
  | .hardMap next => outlineTuple level "HardMap" [outlineAt (level + 1) next]
  | .filter predicate next =>
    outlineRecord level "Filter"
      [("predicate", predicate), ("next", outlineAt (level + 1) next)]
  | .switch predicate accepted otherwise =>
    outlineRecord level "Switch"
      [("predicate", predicate), ("then", outlineAt (level + 1) accepted),
        ("otherwise", outlineAt (level + 1) otherwise)]
  | .filterQuery query next =>
    outlineRecord level "FilterQuery"
      [("query", query.toText), ("next", outlineAt (level + 1) next)]
  | .tuple items =>
    outlineTuple level "Tuple" [outlineList (level + 1) (outlineItems (level + 2) items)]
  | .object entries =>
    outlineTuple level "Object" [outlineList (level + 1) (outlineEntries (level + 2) entries)]
termination_by structural selector

def outlineItems (level : Nat) (items : List Selector) : List String :=
  match items with
  | [] => []
  | item :: rest => outlineAt level item :: outlineItems level rest
termination_by structural items

def outlineEntries (level : Nat) (entries : List (ObjectKey × Selector)) : List String :=
  match entries with
  | [] => []
  | (key, selector) :: rest =>
    outlineTuple level "" [outlineKey (level + 1) key, outlineAt (level + 1) selector] ::
      outlineEntries level rest
termination_by structural entries

end

def outline (selector : Selector) : String :=
  selector.outlineAt 0

end LinkedDocs.Selector
