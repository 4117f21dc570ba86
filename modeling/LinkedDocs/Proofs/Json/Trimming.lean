import LinkedDocs.Proofs.Filter.Membership
import LinkedDocs.Proofs.Json.NamesOnce
import LinkedDocs.Proofs.Json.Reaching
import Mathlib.Data.List.Count

namespace LinkedDocs

namespace Json

/-- Whether a path fits a value and a field is missing only in front of a rest of the path for which
it may be. -/
def fitsWhere (mayMiss : List String → Bool) (value : Json) : List String → Bool
  | [] => value.isNull || value.isScalar
  | segment :: rest =>
    if segment = wildcard then
      match value with
      | .array items => items.all fun item => !item.isArray && item.fitsWhere mayMiss rest
      | _ => false
    else
      match value with
      | .object fields =>
        match lookupName segment fields with
        | some child => child.fitsWhere mayMiss rest
        | none => mayMiss rest
      | _ => false

section FitsWhere

variable {mayMiss : List String → Bool} {segment : String} {rest : List String}

theorem fitsWhere_wildcard_iff {value : Json} :
    value.fitsWhere mayMiss (wildcard :: rest) ↔
      ∃ items, value = .array items ∧
        ∀ item ∈ items, item.isArray = false ∧ item.fitsWhere mayMiss rest := by
  conv_lhs => rw [fitsWhere.eq_def]
  dsimp only
  rw [if_pos rfl]
  cases value <;> simp

theorem fitsWhere_name_iff (hsegment : segment ≠ wildcard) {value : Json} :
    value.fitsWhere mayMiss (segment :: rest) ↔
      ∃ fields, value = .object fields ∧
        (∀ child, lookupName segment fields = some child → child.fitsWhere mayMiss rest) ∧
        (lookupName segment fields = none → mayMiss rest) := by
  conv_lhs => rw [fitsWhere.eq_def]
  dsimp only
  rw [if_neg hsegment]
  cases value with
  | object fields => cases hlookup : lookupName segment fields <;> simp [hlookup]
  | _ => simp

/-- A path that fits a null or a scalar is empty. -/
theorem eq_nil_of_fitsWhere {value : Json} (hvalue : value.isNull || value.isScalar)
    {path : List String} (hfits : value.fitsWhere mayMiss path) : path = [] := by
  cases path with
  | nil => rfl
  | cons segment rest =>
    by_cases hsegment : segment = wildcard
    · subst hsegment
      obtain ⟨_, rfl, -⟩ := fitsWhere_wildcard_iff.1 hfits
      cases hvalue
    · obtain ⟨_, rfl, -⟩ := (fitsWhere_name_iff hsegment).1 hfits
      cases hvalue

/-- Only the rests of a path matter for what may be missing on it. -/
theorem fitsWhere_mono {others : List String → Bool} {path : List String} {value : Json}
    (h : ∀ rest, rest <:+ path.tail → mayMiss rest → others rest)
    (hfits : value.fitsWhere mayMiss path) : value.fitsWhere others path := by
  induction path generalizing value with
  | nil => exact hfits
  | cons segment rest ih =>
    have hrest : ∀ other, other <:+ rest.tail → mayMiss other → others other :=
      fun other hsuffix => h other (hsuffix.trans (List.tail_suffix rest))
    by_cases hsegment : segment = wildcard
    · subst hsegment
      obtain ⟨items, rfl, hitems⟩ := fitsWhere_wildcard_iff.1 hfits
      exact fitsWhere_wildcard_iff.2
        ⟨items, rfl, fun item hitem => ⟨(hitems item hitem).1, ih hrest (hitems item hitem).2⟩⟩
    · obtain ⟨fields, rfl, hchild, hmissing⟩ := (fitsWhere_name_iff hsegment).1 hfits
      exact (fitsWhere_name_iff hsegment).2 ⟨fields, rfl,
        fun child hlookup => ih hrest (hchild child hlookup),
        fun hlookup => h rest List.suffix_rfl (hmissing hlookup)⟩

/-- Where every field may be missing, nothing is asked of a document but that its path fits. -/
theorem fitsWhere_true_iff {path : List String} {value : Json} :
    value.fitsWhere (fun _ => true) path ↔ value.fits path := by
  induction path generalizing value with
  | nil => rfl
  | cons segment rest ih =>
    by_cases hsegment : segment = wildcard
    · subst hsegment
      simp only [fitsWhere_wildcard_iff, fits_wildcard_iff, ih]
    · simp [fitsWhere_name_iff hsegment, fits_name_iff hsegment, ih]

theorem fits_of_fitsWhere {path : List String} {value : Json}
    (hfits : value.fitsWhere mayMiss path) : value.fits path :=
  fitsWhere_true_iff.1 (fitsWhere_mono (fun _ _ _ => rfl) hfits)

theorem fitsWhere_of_fits (hmay : ∀ rest, mayMiss rest) {path : List String} {value : Json}
    (hfits : value.fits path) : value.fitsWhere mayMiss path :=
  fitsWhere_mono (fun rest _ _ => hmay rest) (fitsWhere_true_iff.2 hfits)

/-- Where a filter query finds a value at the names of a path, no field is missing in front of all
wildcards. -/
theorem fitsWhere_of_candidate {path : List String} {value found : Json}
    (hfound : some found ∈ Filter.candidates (path.filter fun segment => segment ≠ wildcard) value)
    (hfits : value.fitsWhere mayMiss path) :
    value.fitsWhere (fun rest => mayMiss rest && rest.count wildcard != path.count wildcard)
      path := by
  induction path generalizing value with
  | nil => exact hfits
  | cons segment rest ih =>
    by_cases hsegment : segment = wildcard
    · subst hsegment
      refine fitsWhere_mono (fun other hsuffix hmay => ?_) hfits
      have hle : other.count wildcard ≤ rest.count wildcard := hsuffix.sublist.count_le wildcard
      have hne : other.count wildcard ≠ (wildcard :: rest).count wildcard := by
        rw [List.count_cons_self]
        omega
      rw [hmay, Bool.true_and, bne_iff_ne]
      exact hne
    · obtain ⟨fields, rfl, hchild, -⟩ := (fitsWhere_name_iff hsegment).1 hfits
      rw [List.filter_cons_of_pos (by simpa using hsegment)] at hfound
      rw [List.count_cons_of_ne hsegment]
      refine (fitsWhere_name_iff hsegment).2 ⟨fields, rfl, fun child hlookup => ?_,
        fun hlookup => ?_⟩
      · simp only [Filter.candidates, hlookup] at hfound
        exact ih hfound (hchild child hlookup)
      · simp [Filter.candidates, hlookup] at hfound

end FitsWhere

/-- Whether every path that fits one value fits another one, with no more fields missing. -/
structure Trims (old new : Json) : Prop where
  isArray_eq : new.isArray = old.isArray
  fitsWhere : ∀ {mayMiss path}, mayMiss [] → old.fitsWhere mayMiss path →
    new.fitsWhere mayMiss path

namespace Trims

theorem refl (value : Json) : Trims value value := ⟨rfl, fun _ => id⟩

theorem null {old : Json} (h : old.isNull || old.isScalar) : Trims old .null where
  isArray_eq := by cases old <;> first | rfl | cases h
  fitsWhere _ hfits := by
    rw [eq_nil_of_fitsWhere h hfits]
    rfl

theorem ofItems {items others : List Json}
    (h : ∀ other ∈ others, ∃ item ∈ items, Trims item other) :
    Trims (.array items) (.array others) where
  isArray_eq := rfl
  fitsWhere {mayMiss path} hend hfits := by
    cases path with
    | nil => cases hfits
    | cons segment rest =>
      by_cases hsegment : segment = wildcard
      · subst hsegment
        obtain ⟨_, heq, hitems⟩ := fitsWhere_wildcard_iff.1 hfits
        cases heq
        refine fitsWhere_wildcard_iff.2 ⟨others, rfl, fun other hother => ?_⟩
        obtain ⟨item, hitem, htrims⟩ := h other hother
        obtain ⟨harray, hitemFits⟩ := hitems item hitem
        exact ⟨htrims.isArray_eq.trans harray, htrims.fitsWhere hend hitemFits⟩
      · obtain ⟨_, heq, -⟩ := (fitsWhere_name_iff hsegment).1 hfits
        cases heq

/-- An object is trimmed when each of its fields is kept and trimmed, or was a null or a scalar and
is missing. -/
theorem ofFields {fields others : List (String × Json)}
    (h : ∀ name child, lookupName name fields = some child →
      (∃ other, lookupName name others = some other ∧ Trims child other) ∨
        (lookupName name others = none ∧ (child.isNull || child.isScalar)))
    (hnone : ∀ name, lookupName name fields = none → lookupName name others = none) :
    Trims (.object fields) (.object others) where
  isArray_eq := rfl
  fitsWhere {mayMiss path} hend hfits := by
    cases path with
    | nil => cases hfits
    | cons segment rest =>
      by_cases hsegment : segment = wildcard
      · subst hsegment
        obtain ⟨_, heq, -⟩ := fitsWhere_wildcard_iff.1 hfits
        cases heq
      · obtain ⟨_, heq, hchild, hmissing⟩ := (fitsWhere_name_iff hsegment).1 hfits
        cases heq
        cases hlookup : lookupName segment fields with
        | none =>
          refine (fitsWhere_name_iff hsegment).2 ⟨others, rfl, fun other hother => ?_,
            fun _ => hmissing hlookup⟩
          rw [hnone segment hlookup] at hother
          cases hother
        | some child =>
          have hfitsChild := hchild child hlookup
          obtain ⟨other, hother, htrims⟩ | ⟨hremoved, hscalar⟩ := h segment child hlookup
          · refine (fitsWhere_name_iff hsegment).2 ⟨others, rfl, fun found hfound => ?_,
              fun hgone => ?_⟩
            · rw [hother] at hfound
              cases hfound
              exact htrims.fitsWhere hend hfitsChild
            · rw [hother] at hgone
              cases hgone
          · have hrest : rest = [] := eq_nil_of_fitsWhere hscalar hfitsChild
            refine (fitsWhere_name_iff hsegment).2 ⟨others, rfl, fun found hfound => ?_,
              fun _ => hrest ▸ hend⟩
            rw [hremoved] at hfound
            cases hfound

theorem putField {fields : List (String × Json)} {name : String} {child new : Json}
    (hlookup : lookupName name fields = some child) (h : Trims child new) :
    Trims (.object fields) (.object (putField name new fields)) := by
  refine ofFields (fun other found hfound => .inl ?_) fun other hnone => ?_
  · by_cases hother : other = name
    · subst hother
      rw [hlookup] at hfound
      cases hfound
      exact ⟨new, by rw [lookupName_putField, if_pos rfl], h⟩
    · exact ⟨found, by rw [lookupName_putField, if_neg hother, hfound], .refl found⟩
  · have hother : other ≠ name := by
      rintro rfl
      rw [hlookup] at hnone
      cases hnone
    rw [lookupName_putField, if_neg hother, hnone]

theorem removeField {fields : List (String × Json)} (hnames : (Json.object fields).namesOnce)
    {name : String} {child : Json} (hlookup : lookupName name fields = some child)
    (hchild : child.isNull || child.isScalar) :
    Trims (.object fields) (.object (removeField name fields)) := by
  have hnodup := (namesOnce_object_iff.1 hnames).1
  have hpresent : name ∈ fields.map Prod.fst :=
    List.mem_map_of_mem (NameMap.mem_of_lookupName hlookup)
  have hafter (other : String) : lookupName other (LinkedDocs.removeField name fields) =
      if other = name then none else lookupName other fields :=
    lookupName_removeField hnodup hpresent other
  refine ofFields (fun other found hfound => ?_) fun other hnone => ?_
  · by_cases hother : other = name
    · subst hother
      rw [hlookup] at hfound
      cases hfound
      exact .inr ⟨by rw [hafter, if_pos rfl], hchild⟩
    · exact .inl ⟨found, by rw [hafter, if_neg hother, hfound], .refl found⟩
  · rw [hafter, hnone, ite_self]

end Trims

end Json

end LinkedDocs
