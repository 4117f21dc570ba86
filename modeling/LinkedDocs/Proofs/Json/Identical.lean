import LinkedDocs.Json.Comparison
import LinkedDocs.Proofs.Json.NamesOnce

namespace LinkedDocs

theorem length_putField {α : Type} {name : String} {value : α} {fields : List (String × α)}
    (hlookup : lookupName name fields = none) :
    (putField name value fields).length = fields.length + 1 := by
  induction fields with
  | nil => rfl
  | cons head rest ih =>
    obtain ⟨first, existing⟩ := head
    rw [lookupName] at hlookup
    split at hlookup
    case isTrue => cases hlookup
    case isFalse hname => rw [putField, if_neg hname, List.length_cons, List.length_cons, ih hlookup]

theorem length_replaceByLast {α : Type} (name : String) (last : String × α)
    (fields : List (String × α)) : (replaceByLast name last fields).length = fields.length := by
  induction fields with
  | nil => rfl
  | cons field rest ih =>
    rw [replaceByLast]
    split
    · rfl
    · rw [List.length_cons, List.length_cons, ih]

theorem length_removeField {α : Type} (name : String) (fields : List (String × α)) :
    (removeField name fields).length = fields.length - 1 := by
  unfold removeField
  split
  case h_1 hnone => rw [List.getLast?_eq_none_iff.1 hnone, List.length_nil]
  case h_2 =>
    split
    · exact List.length_dropLast
    · rw [length_replaceByLast, List.length_dropLast]

namespace Json

section Fields

variable {name : String} {child updated : Json} {fields others : List (String × Json)}

theorem identicalFields_iff :
    identicalFields fields others ↔ ∀ field ∈ fields, ∃ other,
      lookupName field.1 others = some other ∧ field.2.identical other := by
  induction fields with
  | nil => simp [identicalFields]
  | cons field rest ih =>
    obtain ⟨name, value⟩ := field
    rw [identicalFields, List.forall_mem_cons, ← ih]
    cases lookupName name others <;> simp

theorem identical_object_iff :
    (object fields).identical (object others) ↔ fields.length = others.length ∧
      ∀ field ∈ fields, ∃ other,
        lookupName field.1 others = some other ∧ field.2.identical other := by
  rw [identical, Bool.and_eq_true, beq_iff_eq, identicalFields_iff]

theorem not_identical_of_length_ne (h : fields.length ≠ others.length) :
    (object fields).identical (object others) = false :=
  Bool.eq_false_iff.2 fun hidentical => h (identical_object_iff.1 hidentical).1

theorem not_identical_addField (value : Json) (hlookup : lookupName name fields = none) :
    (object fields).identical (object (putField name value fields)) = false :=
  not_identical_of_length_ne (by rw [length_putField hlookup]; omega)

theorem not_identical_removeField (hlookup : lookupName name fields = some child) :
    (object fields).identical (object (removeField name fields)) = false := by
  have hpositive : 0 < fields.length := List.length_pos_of_mem (NameMap.mem_of_lookupName hlookup)
  exact not_identical_of_length_ne (by rw [length_removeField]; omega)

theorem not_identical_putField (hlookup : lookupName name fields = some child)
    (h : child.identical updated = false) :
    (object fields).identical (object (putField name updated fields)) = false := by
  refine Bool.eq_false_iff.2 fun hidentical => ?_
  obtain ⟨other, hother, hsame⟩ :=
    (identical_object_iff.1 hidentical).2 _ (NameMap.mem_of_lookupName hlookup)
  rw [lookupName_putField, if_pos rfl] at hother
  cases hother
  rw [h] at hsame
  cases hsame

end Fields

theorem length_eq_of_identical {items others : List Json}
    (h : (array items).identical (array others)) : items.length = others.length := by
  rw [identical] at h
  induction items generalizing others with
  | nil =>
    cases others with
    | nil => rfl
    | cons => cases h
  | cons item rest ih =>
    cases others with
    | nil => cases h
    | cons other others =>
      rw [identicalItems, Bool.and_eq_true] at h
      rw [List.length_cons, List.length_cons, ih h.2]

theorem identicalItems_refl {items : List Json} (h : ∀ item ∈ items, item.identical item) :
    identicalItems items items := by
  induction items with
  | nil => rfl
  | cons item rest ih =>
    obtain ⟨hitem, hrest⟩ := List.forall_mem_cons.1 h
    rw [identicalItems, Bool.and_eq_true]
    exact ⟨hitem, ih hrest⟩

theorem identical_refl (value : Json) (hnames : value.namesOnce) : value.identical value := by
  induction value using Json.induction_on with
  | scalar value harray hobject =>
    cases value with
    | null => rfl
    | bool flag => simp [identical]
    | number number => cases number <;> simp [identical, Number.identical, Double.sameValue]
    | string text => simp [identical]
    | array items => cases harray
    | object fields => cases hobject
  | array items ih =>
    rw [identical]
    exact identicalItems_refl fun item hitem =>
      ih item hitem (namesOnce_array_iff.1 hnames item hitem)
  | object fields ih =>
    obtain ⟨hnodup, hfields⟩ := namesOnce_object_iff.1 hnames
    refine identical_object_iff.2 ⟨rfl, fun field hfield => ⟨field.2, ?_, ?_⟩⟩
    · exact NameMap.lookupName_of_mem hnodup hfield
    · exact ih field hfield (hfields field hfield)

end Json

end LinkedDocs
