import LinkedDocs.Proofs.Json.NamesOnce
import LinkedDocs.Proofs.Json.Reaching

namespace LinkedDocs

/-- What a value contains, without the order of its fields: an object is a function from names. -/
inductive Content where
  | atom (value : Json)
  | array (items : List Content)
  | object (fields : String → Option Content)

namespace Json

mutual

def content (value : Json) : Content :=
  match value with
  | .array items => .array (contentItems items)
  | .object fields => .object fun name => contentField name fields
  | .null => .atom .null
  | .bool value => .atom (.bool value)
  | .number value => .atom (.number value)
  | .string value => .atom (.string value)
termination_by structural value

def contentItems (items : List Json) : List Content :=
  match items with
  | [] => []
  | item :: rest => content item :: contentItems rest
termination_by structural items

def contentField (name : String) (fields : List (String × Json)) : Option Content :=
  match fields with
  | [] => none
  | (first, value) :: rest => if first = name then some (content value) else contentField name rest
termination_by structural fields

end

@[simp]
theorem content_array (items : List Json) : (array items).content = .array (items.map content) := by
  rw [content]
  congr 1
  induction items with
  | nil => rfl
  | cons item rest ih => rw [contentItems, List.map_cons, ih]

@[simp]
theorem content_object (fields : List (String × Json)) :
    (object fields).content = .object fun name => (lookupName name fields).map content := by
  rw [content]
  congr 1
  funext name
  induction fields with
  | nil => rfl
  | cons field rest ih =>
    obtain ⟨first, value⟩ := field
    rw [contentField, lookupName]
    split
    case isTrue => rfl
    case isFalse => exact ih

theorem content_of_isScalar {value : Json} (h : value.isScalar) : value.content = .atom value := by
  cases value <;> first | rfl | cases h

theorem content_putField (name : String) (value : Json) (fields : List (String × Json)) :
    (object (putField name value fields)).content = .object fun other =>
      if other = name then some value.content else (lookupName other fields).map content := by
  rw [content_object]
  congr 1
  funext other
  rw [lookupName_putField]
  split
  case isTrue => rfl
  case isFalse => rfl

theorem content_removeField {name : String} {fields : List (String × Json)}
    (hnames : (object fields).namesOnce) (hname : name ∈ fields.map Prod.fst) :
    (object (removeField name fields)).content = .object fun other =>
      if other = name then none else (lookupName other fields).map content := by
  rw [content_object]
  congr 1
  funext other
  rw [lookupName_removeField (namesOnce_object_iff.1 hnames).1 hname]
  split
  case isTrue => rfl
  case isFalse => rfl

end Json

end LinkedDocs
