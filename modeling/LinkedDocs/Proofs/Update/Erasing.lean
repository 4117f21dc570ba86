import LinkedDocs.Proofs.Json.Shrinking
import LinkedDocs.Proofs.Path
import LinkedDocs.Proofs.Update.Steps

namespace LinkedDocs.Update

open Json

/-- The operators, with their arguments, by which documents lose values. -/
inductive Erases : UpdateOperator → Json → Prop
  | set : Erases .set .null
  | unset (argument : Json) : Erases .unset argument
  | pull (condition : Json) : Erases .pull condition

theorem setTo_null_cases (current : Json) :
    (setTo .null current = .keep ∧ current = .null) ∨ setTo .null current = .put .null := by
  rw [setTo]
  cases current <;> simp [identical]

theorem mem_names_of_lookupName {fields : List (String × Json)} {name : String}
    (h : lookupName name fields ≠ none) : name ∈ fields.map Prod.fst := by
  by_contra hmem
  exact h (NameMap.lookupName_eq_none_iff.2 hmem)

theorem namesOnce_getD {fields : List (String × Json)} (hnames : (Json.object fields).namesOnce)
    (name : String) : ((lookupName name fields).getD .null).namesOnce := by
  cases hlookup : lookupName name fields with
  | none => rfl
  | some child => exact namesOnce_of_lookupName hnames hlookup

theorem ofSegment?_eq_none {name : String} (hname : Identifier.isValid name) :
    Positional.ofSegment? name = none := by
  obtain ⟨first, rest, hlist, hstart, -⟩ := Identifier.isValid_iff.1 hname
  have hfirst : first ≠ '$' := by
    rintro rfl
    exact absurd hstart (by decide)
  unfold Positional.ofSegment?
  rw [hlist]
  split
  case h_1 heq => exact absurd (List.cons.inj heq).1 hfirst
  case h_2 heq => exact absurd (List.cons.inj heq).1 hfirst
  case h_3 => rw [Identifier.index?_eq_none hname, Option.map_none]

variable [Platform]
variable {arrayFilters : List Json} {operator : UpdateOperator} {argument : Json}

theorem unpulled_eq_ok {condition : Json} {items kept : List Json}
    (h : unpulled condition items = .ok kept) :
    kept.Sublist items ∧ ∀ item ∈ kept, pulls condition item = .ok false := by
  induction items generalizing kept with
  | nil =>
    cases h
    exact ⟨.slnil, fun _ hmem => absurd hmem List.not_mem_nil⟩
  | cons item rest ih =>
    rw [unpulled] at h
    obtain ⟨pulled, hpulled, h⟩ := bind_eq_ok_iff.1 h
    obtain ⟨others, hothers, h⟩ := bind_eq_ok_iff.1 h
    obtain ⟨hsublist, hnone⟩ := ih hothers
    cases pulled with
    | true =>
      cases h
      exact ⟨hsublist.cons item, hnone⟩
    | false =>
      cases h
      exact ⟨hsublist.cons_cons item, List.forall_mem_cons.2 ⟨hpulled, hnone⟩⟩

/-- After pulling from a value it is an array without the elements that meet the condition. -/
theorem elementChange_pullFrom {condition value : Json} {change : Change}
    (h : pullFrom condition value = .ok change) :
    ∃ items kept, value = .array items ∧ kept.Sublist items ∧
      (∀ item ∈ kept, pulls condition item = .ok false) ∧
      (elementChange value change).1 = .array kept ∧
      (change = .keep ∨ change = .put (.array kept)) := by
  obtain ⟨items, kept, rfl, hkept, hchange⟩ := pullFrom_cases h
  obtain ⟨hsublist, hnone⟩ := unpulled_eq_ok hkept
  refine ⟨items, kept, rfl, hsublist, hnone, ?_⟩
  obtain ⟨hlength, rfl⟩ | ⟨-, rfl⟩ := hchange
  · rw [hsublist.eq_of_length hlength]
    exact ⟨rfl, .inl rfl⟩
  · exact ⟨rfl, .inr rfl⟩

theorem shrinks_pullFrom {condition value : Json} (hnames : value.namesOnce) {change : Change}
    (h : pullFrom condition value = .ok change) : Shrinks value (elementChange value change).1 := by
  obtain ⟨items, kept, rfl, hsublist, -, hchange, -⟩ := elementChange_pullFrom h
  rw [hchange]
  refine .ofItems fun item hitem => ⟨item, hsublist.subset hitem, .refl ?_⟩
  exact namesOnce_array_iff.1 hnames item (hsublist.subset hitem)

theorem shrinks_changeElement (h : Erases operator argument) {item : Json} (hnames : item.namesOnce)
    {change : Change} (hchange : changeElement operator argument item = .ok change) :
    Shrinks item (elementChange item change).1 := by
  have hset : Shrinks item (elementChange item (setTo .null item)).1 := by
    rcases setTo_null_cases item with ⟨hkeep, -⟩ | hput
    · rw [hkeep]
      exact .refl hnames
    · rw [hput]
      exact .null item
  cases h with
  | set =>
    cases hchange
    exact hset
  | unset =>
    cases hchange
    exact hset
  | pull => exact shrinks_pullFrom hnames hchange

/-- What may become of a field: it stays, it gets a value to which it shrinks, or it was there and
is removed. -/
theorem changeField_cases (h : Erases operator argument) {current : Option Json}
    (hnames : (current.getD .null).namesOnce) {change : Change}
    (hchange : changeField operator argument current = .ok change) :
    change = .keep ∨ (∃ value, change = .put value ∧ Shrinks (current.getD .null) value) ∨
      (change = .remove ∧ current ≠ none) := by
  cases h with
  | set =>
    cases current with
    | none =>
      cases hchange
      exact .inr (.inl ⟨_, rfl, .null _⟩)
    | some value =>
      cases hchange
      rcases setTo_null_cases value with ⟨hkeep, -⟩ | hput
      · exact .inl hkeep
      · exact .inr (.inl ⟨_, hput, .null _⟩)
  | unset =>
    cases current with
    | none =>
      cases hchange
      exact .inl rfl
    | some value =>
      cases hchange
      exact .inr (.inr ⟨rfl, Option.some_ne_none value⟩)
  | pull condition =>
    cases current with
    | none =>
      cases hchange
      exact .inl rfl
    | some value =>
      have hshrinks := shrinks_pullFrom hnames hchange
      obtain ⟨_, kept, -, -, -, hafter, hkeep | hput⟩ := elementChange_pullFrom hchange
      · exact .inl hkeep
      · rw [Option.getD_some, hafter] at hshrinks
        exact .inr (.inl ⟨_, hput, hshrinks⟩)

theorem shrinks_putChange (h : Erases operator argument) {fields : List (String × Json)}
    (hnames : (Json.object fields).namesOnce) {name : String} {change : Change}
    (hchange : changeField operator argument (lookupName name fields) = .ok change) :
    Shrinks (.object fields) (putChange name fields change).1 := by
  rcases changeField_cases h (namesOnce_getD hnames name) hchange with
    rfl | ⟨value, rfl, hshrinks⟩ | ⟨rfl, hpresent⟩
  · exact .refl hnames
  · exact .putField hnames hshrinks
  · exact .removeField hnames (mem_names_of_lookupName hpresent)

theorem shrinks_elementStep (h : Erases operator argument) {rest : List String} {item : Json}
    (hnames : item.namesOnce)
    (hrest : ∀ {result}, updateAt arrayFilters operator argument rest item = .ok result →
      Shrinks item result.1)
    {result : Json × Bool}
    (hstep : elementStep arrayFilters operator argument rest item = .ok result) :
    Shrinks item result.1 := by
  by_cases hnil : rest = []
  · subst hnil
    obtain ⟨change, hchange, rfl⟩ := exists_of_elementStep_nil hstep
    exact shrinks_changeElement h hnames hchange
  · rw [elementStep_eq_updateAt hnil] at hstep
    exact hrest hstep

/-- A document shrinks under an update that erases, at whatever target. -/
theorem shrinks_updateAt (h : Erases operator argument) {path : List String} {value : Json}
    (hnames : value.namesOnce) {result : Json × Bool}
    (hupdate : updateAt arrayFilters operator argument path value = .ok result) :
    Shrinks value result.1 := by
  induction path generalizing value result with
  | nil =>
    cases hupdate
    exact .refl hnames
  | cons segment rest ih =>
    cases step_of_updateAt hupdate with
    | last _ hchange => exact shrinks_putChange h hnames hchange
    | child _ hlookup hchild =>
      refine .putField hnames ?_
      rw [hlookup]
      exact ih (namesOnce_of_lookupName hnames hlookup) hchild
    | created _ hlookup _ hchild =>
      refine .putField hnames ?_
      rw [hlookup]
      exact (Shrinks.emptyObject .null).trans (ih rfl hchild)
    | missing => exact .refl hnames
    | elements hchosen hitems =>
      refine .ofItems fun other hother => ?_
      obtain ⟨item, hitem, hcases⟩ := mem_updateItems hchosen hitems other hother
      have hitemNames := namesOnce_array_iff.1 hnames item hitem
      refine ⟨item, hitem, ?_⟩
      rcases hcases with ⟨-, rfl⟩ | ⟨-, changedItem, hstep⟩
      · exact .refl hitemNames
      · exact shrinks_elementStep h hitemNames (fun hchild => ih hitemNames hchild) hstep
    | other => exact .refl hnames

/-- An update at a target that begins with one name leaves alone what lies below another one. -/
theorem follow?_updateAt (h : Erases operator argument) {first : String}
    (hfirst : Identifier.isValid first) {rest : List String} {value : Json} {result : Json × Bool}
    (hnames : value.namesOnce)
    (hupdate : updateAt arrayFilters operator argument (first :: rest) value = .ok result)
    {other : String} (hother : other ≠ first) (path : List String) :
    result.1.follow? (other :: path) = value.follow? (other :: path) := by
  have hput (fields : List (String × Json)) (child : Json) :
      (Json.object (putField first child fields)).follow? (other :: path) =
        (Json.object fields).follow? (other :: path) := by
    simp only [follow?, step?, lookupName_putField, if_neg hother]
  cases step_of_updateAt hupdate with
  | @last fields change _ hchange =>
    rcases changeField_cases h (namesOnce_getD hnames first) hchange with
      rfl | ⟨child, rfl, -⟩ | ⟨rfl, hpresent⟩
    · rfl
    · exact hput fields child
    · have hnodup := (namesOnce_object_iff.1 hnames).1
      simp only [putChange, follow?, step?,
        lookupName_removeField hnodup (mem_names_of_lookupName hpresent), if_neg hother]
  | child => exact hput _ _
  | created => exact hput _ _
  | missing => rfl
  | elements hchosen hitems =>
    cases hchosen with
    | nil =>
      cases hitems
      rfl
    | cons hflag =>
      rw [Selects, ofSegment?_eq_none hfirst] at hflag
      cases hflag
  | other => rfl

end LinkedDocs.Update
