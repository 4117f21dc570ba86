import LinkedDocs.Json.Comparison
import LinkedDocs.Proofs.Json.Reaching
import Mathlib.Data.List.Basic
import Mathlib.Data.List.Flatten
import Mathlib.Data.List.Forall2

namespace LinkedDocs.Json

/-- The values to which a foreign key path leads, in order, with nulls and arrays as they are. -/
def endsAt (value : Json) : List String → List Json
  | [] => [value]
  | segment :: rest =>
    if segment = wildcard then
      match value with
      | .array items => items.flatMap fun item => item.endsAt rest
      | _ => []
    else
      match value with
      | .object fields =>
        match lookupName segment fields with
        | some child => child.endsAt rest
        | none => []
      | _ => []

/-- The values that are left of a field when it is cleared as a whole for each of some keys. -/
def valuesLeft (keys : List Json) (field : Json) : List Json :=
  if (field.valuesAt []).any (holds keys) then [] else field.valuesAt []

section EndsAt

variable {segment : String} {rest : List String}

theorem endsAt_nil (value : Json) : value.endsAt [] = [value] := rfl

theorem endsAt_wildcard (value : Json) :
    value.endsAt (wildcard :: rest) =
      match value with
      | .array items => items.flatMap fun item => item.endsAt rest
      | _ => [] :=
  if_pos rfl

theorem endsAt_name (hsegment : segment ≠ wildcard) (value : Json) :
    value.endsAt (segment :: rest) =
      match value with
      | .object fields =>
        match lookupName segment fields with
        | some child => child.endsAt rest
        | none => []
      | _ => [] :=
  if_neg hsegment

theorem endsAt_wildcard_array (items : List Json) :
    (array items).endsAt (wildcard :: rest) = items.flatMap fun item => item.endsAt rest :=
  endsAt_wildcard _

theorem endsAt_wildcard_of_not_array {value : Json} (hvalue : value.isArray = false) :
    value.endsAt (wildcard :: rest) = [] := by
  rw [endsAt_wildcard]
  cases value <;> first | rfl | cases hvalue

theorem endsAt_name_object (hsegment : segment ≠ wildcard) (fields : List (String × Json)) :
    (object fields).endsAt (segment :: rest) =
      match lookupName segment fields with
      | some child => child.endsAt rest
      | none => [] :=
  endsAt_name hsegment _

theorem endsAt_name_of_not_object (hsegment : segment ≠ wildcard) {value : Json}
    (hvalue : value.isObject = false) : value.endsAt (segment :: rest) = [] := by
  rw [endsAt_name hsegment]
  cases value <;> first | rfl | cases hvalue

/-- A path ends at what it reaches. -/
theorem mem_endsAt_iff {path : List String} {value found : Json} :
    found ∈ value.endsAt path ↔ value.Reaches path found := by
  constructor
  · intro h
    induction path generalizing value with
    | nil =>
      rw [endsAt_nil, List.mem_singleton] at h
      exact reaches_nil_iff.2 h
    | cons segment rest ih =>
      by_cases hsegment : segment = wildcard
      · subst hsegment
        cases value with
        | array items =>
          rw [endsAt_wildcard_array, List.mem_flatMap] at h
          obtain ⟨item, hitem, hfound⟩ := h
          exact .element hitem (ih hfound)
        | _ => cases h
      · cases value with
        | object fields =>
          rw [endsAt_name_object hsegment] at h
          cases hlookup : lookupName segment fields with
          | none =>
            rw [hlookup] at h
            cases h
          | some child =>
            rw [hlookup] at h
            exact .field hsegment hlookup (ih h)
        | _ =>
          rw [endsAt_name_of_not_object hsegment rfl] at h
          cases h
  · intro h
    induction h with
    | here value => exact List.mem_singleton_self value
    | field hsegment hlookup _ ih =>
      rw [endsAt_name_object hsegment, hlookup]
      exact ih
    | element hmem _ ih =>
      rw [endsAt_wildcard_array]
      exact List.mem_flatMap.2 ⟨_, hmem, ih⟩

/-- The values at a path are those of the fields at which it ends. -/
theorem valuesAt_eq_flatMap (value : Json) (path : List String) :
    value.valuesAt path = (value.endsAt path).flatMap fun field => field.valuesAt [] := by
  induction path generalizing value with
  | nil => simp [endsAt_nil]
  | cons segment rest ih =>
    rw [valuesAt.eq_def, endsAt.eq_def]
    dsimp only
    split
    case isTrue =>
      cases value with
      | array items =>
        dsimp only
        rw [List.flatMap_assoc, List.flatMap_congr fun item _ => ih item]
      | _ => rfl
    case isFalse =>
      cases value with
      | object fields =>
        dsimp only
        cases lookupName segment fields with
        | none => rfl
        | some child => exact ih child
      | _ => rfl

theorem valuesAt_name_object (hsegment : segment ≠ wildcard) (fields : List (String × Json)) :
    (object fields).valuesAt (segment :: rest) =
      match lookupName segment fields with
      | some child => child.valuesAt rest
      | none => [] := by
  rw [valuesAt.eq_def]
  exact if_neg hsegment

/-- What is not an object has no values at a name. -/
theorem valuesAt_name_of_not_objects {left : Json → List Json} (hsegment : segment ≠ wildcard)
    {value other : Json} (hvalue : value.isObject = false) (hother : other.isObject = false) :
    other.valuesAt (segment :: rest) = (value.endsAt (segment :: rest)).flatMap left := by
  rw [valuesAt_eq_flatMap, endsAt_name_of_not_object hsegment hother,
    endsAt_name_of_not_object hsegment hvalue, List.flatMap_nil, List.flatMap_nil]

/-- What is not an array has no values at a wildcard. -/
theorem valuesAt_wildcard_of_not_arrays {left : Json → List Json} {value other : Json}
    (hvalue : value.isArray = false) (hother : other.isArray = false) :
    other.valuesAt (wildcard :: rest) = (value.endsAt (wildcard :: rest)).flatMap left := by
  rw [valuesAt_eq_flatMap, endsAt_wildcard_of_not_array hother,
    endsAt_wildcard_of_not_array hvalue, List.flatMap_nil, List.flatMap_nil]

theorem endsAt_emptyObject {path : List String} (hpath : path ≠ []) :
    (object []).endsAt path = [] := by
  cases path with
  | nil => exact absurd rfl hpath
  | cons segment rest =>
    by_cases hsegment : segment = wildcard
    · subst hsegment
      exact endsAt_wildcard_of_not_array rfl
    · exact endsAt_name_object hsegment []

theorem valuesAt_wildcard_of_forall₂ {left : Json → List Json} {items others : List Json}
    (h : List.Forall₂ (fun item other => other.valuesAt rest = (item.endsAt rest).flatMap left)
      items others) :
    (array others).valuesAt (wildcard :: rest) =
      ((array items).endsAt (wildcard :: rest)).flatMap left := by
  rw [endsAt_wildcard_array, valuesAt.eq_def]
  dsimp only
  rw [if_pos rfl]
  induction h with
  | nil => rfl
  | cons hitem _ ih =>
    rw [List.flatMap_cons, List.flatMap_cons, List.flatMap_append, hitem, ih]

end EndsAt

/-- Where lists made of the elements of a list are sublists of others, the lists are the same after
they are put together exactly if they are the same one by one. -/
theorem flatMap_eq_iff_of_sublist {α β : Type} {items : List α} {less more : α → List β}
    (h : ∀ item ∈ items, (less item).Sublist (more item)) :
    items.flatMap less = items.flatMap more ↔ ∀ item ∈ items, less item = more item := by
  refine ⟨fun hsame => ?_, List.flatMap_congr⟩
  induction items with
  | nil => exact fun _ hmem => absurd hmem List.not_mem_nil
  | cons item rest ih =>
    obtain ⟨hitem, hrest⟩ := List.forall_mem_cons.1 h
    have hrestLess : (rest.flatMap less).length ≤ (rest.flatMap more).length :=
      (List.Sublist.flatMap_right rest hrest).length_le
    rw [List.flatMap_cons, List.flatMap_cons] at hsame
    have hlengths := congrArg List.length hsame
    rw [List.length_append, List.length_append] at hlengths
    have hitemLess := hitem.length_le
    have hfirst : less item = more item := hitem.eq_of_length (by omega)
    rw [hfirst, List.append_cancel_left_eq] at hsame
    exact List.forall_mem_cons.2 ⟨hfirst, ih hrest hsame⟩

section ValuesLeft

variable {keys : List Json}

theorem valuesLeft_of_any {field : Json} (h : (field.valuesAt []).any (holds keys)) :
    valuesLeft keys field = [] :=
  if_pos h

theorem valuesLeft_of_not_any {field : Json} (h : (field.valuesAt []).any (holds keys) = false) :
    valuesLeft keys field = field.valuesAt [] :=
  if_neg (Bool.eq_false_iff.1 h)

theorem filter_not_holds_of_not_any {values : List Json} (h : values.any (holds keys) = false) :
    values.filter (fun value => !holds keys value) = values := by
  rw [List.filter_eq_self]
  intro value hvalue
  simpa using List.any_eq_false.1 h value hvalue

/-- Clearing leaves no more of a field than leaving out its keys. -/
theorem valuesLeft_sublist (keys : List Json) (field : Json) :
    (valuesLeft keys field).Sublist
      ((field.valuesAt []).filter fun value => !holds keys value) := by
  cases h : (field.valuesAt []).any (holds keys) with
  | true =>
    rw [valuesLeft_of_any h]
    exact List.nil_sublist _
  | false => rw [valuesLeft_of_not_any h, filter_not_holds_of_not_any h]

theorem valuesLeft_eq_filter_iff (keys : List Json) (field : Json) :
    valuesLeft keys field = (field.valuesAt []).filter (fun value => !holds keys value) ↔
      ((field.valuesAt []).any (holds keys) → (field.valuesAt []).all (holds keys)) := by
  cases h : (field.valuesAt []).any (holds keys) with
  | true =>
    rw [valuesLeft_of_any h, eq_comm, List.filter_eq_nil_iff, List.all_eq_true]
    simp
  | false =>
    rw [valuesLeft_of_not_any h, filter_not_holds_of_not_any h]
    simp

/-- Clearing leaves out the keys alone exactly where no field holds another value beside one of
them. -/
theorem flatMap_valuesLeft_eq_filter_iff (keys : List Json) (value : Json) (path : List String) :
    (value.endsAt path).flatMap (valuesLeft keys) =
        (value.valuesAt path).filter (fun found => !holds keys found) ↔
      ∀ field ∈ value.endsAt path,
        (field.valuesAt []).any (holds keys) → (field.valuesAt []).all (holds keys) := by
  rw [valuesAt_eq_flatMap, List.filter_flatMap,
    flatMap_eq_iff_of_sublist fun field _ => valuesLeft_sublist keys field]
  exact forall₂_congr fun field _ => valuesLeft_eq_filter_iff keys field

end ValuesLeft

end LinkedDocs.Json
