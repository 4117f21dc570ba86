import LinkedDocs.Proofs.Json.NamesOnce
import LinkedDocs.Proofs.Json.Reaching
import LinkedDocs.Proofs.Json.SameValue

namespace LinkedDocs.Json

/-- Changes each value that a foreign key path reaches. -/
def mapAt (value : Json) (change : Json → Json) : List String → Json
  | [] => change value
  | segment :: rest =>
    match value with
    | .array items =>
      if segment = wildcard then .array (items.map fun item => item.mapAt change rest) else value
    | .object fields =>
      if segment = wildcard then value
      else
        match lookupName segment fields with
        | some child => .object (putField segment (child.mapAt change rest) fields)
        | none => value
    | _ => value

/-- Replaces a value by null if it has the value of one of some keys. -/
def nullAmong (keys : List Json) (value : Json) : Json :=
  if holds keys value then .null else value

section MapAt

variable {change : Json → Json} {segment : String} {rest : List String}

theorem mapAt_nil (value : Json) : value.mapAt change [] = change value := rfl

theorem mapAt_array (items : List Json) :
    (array items).mapAt change (segment :: rest) =
      if segment = wildcard then .array (items.map fun item => item.mapAt change rest)
      else .array items := rfl

theorem mapAt_object (fields : List (String × Json)) :
    (object fields).mapAt change (segment :: rest) =
      if segment = wildcard then .object fields
      else
        match lookupName segment fields with
        | some child => .object (putField segment (child.mapAt change rest) fields)
        | none => .object fields := rfl

theorem mapAt_wildcard_array (items : List Json) :
    (array items).mapAt change (wildcard :: rest) =
      .array (items.map fun item => item.mapAt change rest) := by
  rw [mapAt_array, if_pos rfl]

theorem mapAt_name_object (hsegment : segment ≠ wildcard) {fields : List (String × Json)}
    {child : Json} (hlookup : lookupName segment fields = some child) :
    (object fields).mapAt change (segment :: rest) =
      .object (putField segment (child.mapAt change rest) fields) := by
  rw [mapAt_object, if_neg hsegment, hlookup]

theorem mapAt_missing (hsegment : segment ≠ wildcard) {fields : List (String × Json)}
    (hlookup : lookupName segment fields = none) :
    (object fields).mapAt change (segment :: rest) = .object fields := by
  rw [mapAt_object, if_neg hsegment, hlookup]

/-- A change of nothing that the path reaches changes nothing. -/
theorem mapAt_eq_self {path : List String} {value : Json}
    (h : ∀ found, value.Reaches path found → change found = found) :
    value.mapAt change path = value := by
  induction path generalizing value with
  | nil => exact h value (.here value)
  | cons segment rest ih =>
    cases value with
    | array items =>
      by_cases hsegment : segment = wildcard
      · subst hsegment
        have hitems : ∀ item ∈ items, item.mapAt change rest = item :=
          fun item hitem => ih fun found hfound => h found (.element hitem hfound)
        rw [mapAt_wildcard_array, List.map_congr_left hitems, List.map_id']
      · rw [mapAt_array, if_neg hsegment]
    | object fields =>
      by_cases hsegment : segment = wildcard
      · rw [mapAt_object, if_pos hsegment]
      · cases hlookup : lookupName segment fields with
        | none => exact mapAt_missing hsegment hlookup
        | some child =>
          have hchild : child.mapAt change rest = child :=
            ih fun found hfound => h found (.field hsegment hlookup hfound)
          rw [mapAt_name_object hsegment hlookup, hchild, putField_eq_self hlookup]
    | _ => rfl

end MapAt

end LinkedDocs.Json
