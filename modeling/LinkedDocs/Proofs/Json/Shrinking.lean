import LinkedDocs.Proofs.Json.NamesOnce
import LinkedDocs.Proofs.Json.Reaching

namespace LinkedDocs

namespace Json

/-- Whether a value reaches no scalars and no arrays but those of an earlier one. -/
structure Shrinks (old new : Json) : Prop where
  namesOnce : new.namesOnce
  scalar : ∀ {path found}, new.Reaches path found → found.isScalar → old.Reaches path found
  array : ∀ {path found}, new.Reaches path found → found.isArray →
    ∃ other, old.Reaches path other ∧ other.isArray

namespace Shrinks

variable {old middle new : Json}

theorem refl (h : old.namesOnce) : Shrinks old old where
  namesOnce := h
  scalar hreaches _ := hreaches
  array hreaches harray := ⟨_, hreaches, harray⟩

theorem trans (hfirst : Shrinks old middle) (hsecond : Shrinks middle new) : Shrinks old new where
  namesOnce := hsecond.namesOnce
  scalar hreaches hscalar := hfirst.scalar (hsecond.scalar hreaches hscalar) hscalar
  array hreaches harray := by
    obtain ⟨_, hmiddle, hmiddleArray⟩ := hsecond.array hreaches harray
    exact hfirst.array hmiddle hmiddleArray

theorem null (old : Json) : Shrinks old .null where
  namesOnce := rfl
  scalar hreaches hscalar := by
    cases hreaches
    cases hscalar
  array hreaches harray := by
    cases hreaches
    cases harray

theorem emptyObject (old : Json) : Shrinks old (.object []) where
  namesOnce := rfl
  scalar hreaches hscalar := by
    cases hreaches with
    | here => cases hscalar
    | field _ hlookup => cases hlookup
  array hreaches harray := by
    cases hreaches with
    | here => cases harray
    | field _ hlookup => cases hlookup

/-- An array shrinks when each of its elements comes from an earlier one that shrinks to it. -/
theorem ofItems {items others : List Json}
    (h : ∀ other ∈ others, ∃ item ∈ items, Shrinks item other) :
    Shrinks (.array items) (.array others) where
  namesOnce := namesOnce_array_iff.2 fun other hother =>
    have ⟨_, _, hshrinks⟩ := h other hother
    hshrinks.namesOnce
  scalar hreaches hscalar := by
    cases hreaches with
    | here => cases hscalar
    | element hmem hreaches =>
      obtain ⟨item, hitem, hshrinks⟩ := h _ hmem
      exact .element hitem (hshrinks.scalar hreaches hscalar)
  array hreaches harray := by
    cases hreaches with
    | here => exact ⟨_, .here _, rfl⟩
    | element hmem hreaches =>
      obtain ⟨item, hitem, hshrinks⟩ := h _ hmem
      obtain ⟨other, hother, hotherArray⟩ := hshrinks.array hreaches harray
      exact ⟨other, .element hitem hother, hotherArray⟩

/-- An object shrinks when each of its fields comes from an earlier one of that name, which may have
been missing, and shrinks to it. -/
theorem ofFields {fields others : List (String × Json)} (hnames : (Json.object others).namesOnce)
    (h : ∀ name child, lookupName name others = some child →
      Shrinks ((lookupName name fields).getD .null) child) :
    Shrinks (.object fields) (.object others) where
  namesOnce := hnames
  scalar hreaches hscalar := by
    cases hreaches with
    | here => cases hscalar
    | @field _ segment rest child found hsegment hlookup hreaches =>
      have hchild := (h segment child hlookup).scalar hreaches hscalar
      cases hbefore : lookupName segment fields with
      | some before =>
        rw [hbefore] at hchild
        exact .field hsegment hbefore hchild
      | none =>
        rw [hbefore] at hchild
        cases hchild
        cases hscalar
  array hreaches harray := by
    cases hreaches with
    | here => cases harray
    | @field _ segment rest child found hsegment hlookup hreaches =>
      obtain ⟨other, hother, hotherArray⟩ := (h segment child hlookup).array hreaches harray
      cases hbefore : lookupName segment fields with
      | some before =>
        rw [hbefore] at hother
        exact ⟨other, .field hsegment hbefore hother, hotherArray⟩
      | none =>
        rw [hbefore] at hother
        cases hother
        cases hotherArray

theorem getD_refl {fields : List (String × Json)} (hnames : (Json.object fields).namesOnce)
    {name : String} {child : Json} (hlookup : lookupName name fields = some child) :
    Shrinks ((lookupName name fields).getD .null) child := by
  rw [hlookup]
  exact .refl (namesOnce_of_lookupName hnames hlookup)

theorem putField {fields : List (String × Json)} (hnames : (Json.object fields).namesOnce)
    {name : String} {child : Json} (h : Shrinks ((lookupName name fields).getD .null) child) :
    Shrinks (.object fields) (.object (putField name child fields)) := by
  obtain ⟨hnodup, hchildren⟩ := namesOnce_object_iff.1 hnames
  refine ofFields (namesOnce_object_iff.2 ⟨nodup_putField hnodup, fun field hfield => ?_⟩)
    fun other found hfound => ?_
  · rcases mem_putField hfield with rfl | hfield
    · exact h.namesOnce
    · exact hchildren field hfield
  · rw [lookupName_putField] at hfound
    split at hfound
    case isTrue hother =>
      cases hfound
      exact hother ▸ h
    case isFalse => exact getD_refl hnames hfound

theorem removeField {fields : List (String × Json)} (hnames : (Json.object fields).namesOnce)
    {name : String} (hname : name ∈ fields.map Prod.fst) :
    Shrinks (.object fields) (.object (removeField name fields)) := by
  obtain ⟨hnodup, hchildren⟩ := namesOnce_object_iff.1 hnames
  refine ofFields (namesOnce_object_iff.2 ⟨nodup_removeField hnodup hname, fun field hfield => ?_⟩)
    fun other found hfound => ?_
  · have hmem := (removeField_perm hnodup hname).mem_iff.1 hfield
    exact hchildren field (List.mem_of_mem_filter hmem)
  · rw [lookupName_removeField hnodup hname] at hfound
    split at hfound
    case isTrue => cases hfound
    case isFalse => exact getD_refl hnames hfound

/-- No arrays come up where there were none. -/
theorem flat (h : Shrinks old new) {path : List String} (hflat : Flat path old) : Flat path new := by
  intro outer inner hpath hplace found hfound
  by_contra harray
  obtain ⟨other, hother, hotherArray⟩ := h.array hfound (by simpa using harray)
  rw [hflat outer inner hpath hplace other hother] at hotherArray
  cases hotherArray

end Shrinks

end Json

end LinkedDocs
