import LinkedDocs.Proofs.Filter.Scalars
import LinkedDocs.Proofs.Json.Ends

/-!
What clearing leaves of the values at a foreign key path, in documents of any shape on which it
succeeds. The field at the end of the path is cleared as a whole where it holds a key, be it as one
of the elements of an array, and the values of the other fields stay.
-/

namespace LinkedDocs

open Json

variable {keys : List Json}

namespace Filter

theorem equalsTarget_iff_mem_valuesAt {key : Json} (hkey : key.isScalar) (field : Json) :
    equalsTarget key (some field) ↔ ∃ value ∈ field.valuesAt [], value.sameValue key := by
  have hscalar {value : Json} (hsame : value.sameValue key) : value.isScalar :=
    isScalar_of_sameValue hsame hkey
  cases field with
  | null =>
    constructor
    · intro hequals
      cases hscalar hequals
    · rintro ⟨_, hmem, _⟩
      exact absurd hmem List.not_mem_nil
  | array items =>
    have hwhole : (Json.array items).sameValue key = false :=
      Bool.eq_false_iff.2 fun hsame => by cases hscalar hsame
    rw [equalsTarget, hwhole, Bool.false_or, List.any_eq_true]
    refine exists_congr fun item => and_congr_left fun hsame => ?_
    have hnonnull : (!item.isNull) = true := by
      rw [isNull_eq_false_of_isScalar (hscalar hsame), Bool.not_false]
    exact ⟨fun hmem => List.mem_filter.2 ⟨hmem, hnonnull⟩, List.mem_of_mem_filter⟩
  | _ =>
    constructor
    · intro hequals
      exact ⟨_, List.mem_singleton_self _, hequals⟩
    · rintro ⟨value, hmem, hsame⟩
      rw [List.mem_singleton.1 hmem] at hsame
      exact hsame

/-- A field is found by the query for some keys exactly if it holds one of them. -/
theorem anyAmong_field_eq (hkeys : ∀ key ∈ keys, key.isScalar) (field : Json) :
    anyAmong [some field] keys = (field.valuesAt []).any (holds keys) := by
  refine Bool.eq_iff_iff.2 ?_
  rw [anyAmong_iff, List.any_eq_true]
  constructor
  · rintro ⟨key, hkey, hany⟩
    have hequals : equalsTarget key (some field) := by simpa [anyAmong] using hany
    obtain ⟨value, hvalue, hsame⟩ :=
      (equalsTarget_iff_mem_valuesAt (hkeys key hkey) field).1 hequals
    exact ⟨value, hvalue, holds_iff.2 ⟨key, hkey, sameValue_symm hsame⟩⟩
  · rintro ⟨value, hvalue, hholds⟩
    obtain ⟨key, hkey, hsame⟩ := holds_iff.1 hholds
    have hequals : equalsTarget key (some field) :=
      (equalsTarget_iff_mem_valuesAt (hkeys key hkey) field).2 ⟨value, hvalue, sameValue_symm hsame⟩
    exact ⟨key, hkey, by simpa [anyAmong] using hequals⟩

end Filter

namespace Json

/-- Where a query at some names finds none of the keys, clearing leaves all values. -/
theorem flatMap_valuesLeft_eq_valuesAt (hkeys : ∀ key ∈ keys, key.isScalar) {path : List String}
    (hpath : wildcard ∉ path) {value : Json}
    (hnone : Filter.anyAmong (Filter.candidates path value) keys = false) :
    (value.endsAt path).flatMap (valuesLeft keys) = value.valuesAt path := by
  rw [valuesAt_eq_flatMap]
  refine List.flatMap_congr fun field hfield => valuesLeft_of_not_any ?_
  have hcandidate := Filter.mem_candidates_of_reaches hpath (mem_endsAt_iff.1 hfield)
  rw [← Filter.anyAmong_field_eq hkeys, Filter.anyAmong, List.any_eq_false]
  intro candidate hmem
  rw [List.mem_singleton.1 hmem]
  exact List.any_eq_false.1 hnone _ hcandidate

end Json

namespace Update

variable [Platform]
variable {arrayFilters : List Json} {operator : UpdateOperator} {argument : Json}

/-- Clearing the field at a path of names that leads to a key leaves no value there. -/
theorem Clears.valuesAt_names (h : Clears operator argument) (hkeys : ∀ key ∈ keys, key.isScalar)
    {path : List String} (hpath : wildcard ∉ path) (hne : path ≠ []) {value : Json}
    (hnames : value.namesOnce) (hfound : Filter.anyAmong (Filter.candidates path value) keys)
    {result : Json × Bool}
    (hupdate : updateAt arrayFilters operator argument path value = .ok result) :
    result.1.valuesAt path = (value.endsAt path).flatMap (valuesLeft keys) := by
  induction path generalizing value result with
  | nil => exact absurd rfl hne
  | cons name rest ih =>
    have hname : name ≠ wildcard := fun heq => hpath (heq ▸ List.mem_cons_self)
    have hothers : wildcard ∉ rest := fun hmem => hpath (List.mem_cons_of_mem _ hmem)
    cases step_of_updateAt hupdate with
    | @last fields change hrest hchange =>
      subst hrest
      obtain ⟨others, hothers, hnull⟩ := h.exists_putChange hnames hchange
      have hafter : (Json.object others).valuesAt [name] = [] := by
        rw [valuesAt_name_object hname]
        cases hlookup : lookupName name others with
        | none => rfl
        | some child =>
          rw [hnull child hlookup]
          rfl
      rw [hothers, hafter, endsAt_name_object hname]
      cases hlookup : lookupName name fields with
      | none => rfl
      | some child =>
        simp only [Filter.candidates, hlookup] at hfound
        rw [Filter.anyAmong_field_eq hkeys] at hfound
        dsimp only
        rw [endsAt_nil, List.flatMap_singleton, valuesLeft_of_any hfound]
    | child hrest hlookup hupdated =>
      simp only [Filter.candidates, hlookup] at hfound
      rw [valuesAt_name_object hname, lookupName_putField, if_pos rfl, endsAt_name_object hname,
        hlookup]
      exact ih hothers hrest (namesOnce_of_lookupName hnames hlookup) hfound hupdated
    | created _ hlookup =>
      simp only [Filter.candidates, hlookup] at hfound
      rw [Filter.anyAmong_none hkeys] at hfound
      cases hfound
    | missing hlookup =>
      simp only [Filter.candidates, hlookup] at hfound
      rw [Filter.anyAmong_none hkeys] at hfound
      cases hfound
    | elements => exact valuesAt_name_of_not_objects hname rfl rfl
    | other hobject => exact valuesAt_name_of_not_objects hname hobject hobject

/-- Clearing the field behind a wildcard in the elements that hold a key. -/
theorem Clears.valuesAt_selected (h : Clears operator argument) (hkeys : ∀ key ∈ keys, key.isScalar)
    {inner : List String} (hinner : AreNames inner) (hne : inner ≠ []) {value : Json}
    (hnames : value.namesOnce) {result : Json × Bool}
    (hupdate : updateAt [.single (joinPath (Updater.filterIdentifier :: inner)) (.oneOf keys)]
      operator argument (Updater.filteredElement :: inner) value = .ok result) :
    result.1.valuesAt (wildcard :: inner) =
      (value.endsAt (wildcard :: inner)).flatMap (valuesLeft keys) := by
  have hsegment : Positional.ofSegment? Updater.filteredElement =
      some (.bound Updater.filterIdentifier) := by decide
  cases step_of_updateAt hupdate with
  | last hrest => exact absurd hrest hne
  | child => exact valuesAt_wildcard_of_not_arrays rfl rfl
  | created => exact valuesAt_wildcard_of_not_arrays rfl rfl
  | missing => exact valuesAt_wildcard_of_not_arrays rfl rfl
  | other _ harray => exact valuesAt_wildcard_of_not_arrays harray harray
  | @elements items others chosen changed hchosen hitems =>
    have hnamesOnce := namesOnce_array_iff.1 hnames
    refine valuesAt_wildcard_of_forall₂ (((List.forall₂_and_left items others).2
      ⟨hnamesOnce, forall₂_updateItems hchosen hitems⟩).imp ?_)
    rintro item other ⟨hitem, hcase⟩
    have hselects {flag : Bool}
        (hflag : Selects [.single (joinPath (Updater.filterIdentifier :: inner)) (.oneOf keys)]
          Updater.filteredElement item flag) :
        Filter.anyAmong (Filter.candidates inner item) keys = flag := by
      rw [Selects, hsegment] at hflag
      dsimp only at hflag
      rwa [selected_condition hinner hne, Except.ok.injEq] at hflag
    obtain ⟨hflag, rfl⟩ | ⟨hflag, changedItem, hstep⟩ := hcase
    · exact (flatMap_valuesLeft_eq_valuesAt hkeys hinner.wildcard_notMem (hselects hflag)).symm
    · rw [elementStep_eq_updateAt hne] at hstep
      exact h.valuesAt_names hkeys hinner.wildcard_notMem hne hitem (hselects hflag) hstep

/-- An update follows the part of its target that was opened, so what is left of the values there is
what is left of them behind it. -/
theorem valuesAt_openWildcards {below tail : List String} (htail : tail ≠ []) (hbelow : below ≠ [])
    {left : Json → List Json}
    (hbase : ∀ {value result}, value.namesOnce →
      updateAt arrayFilters operator argument tail value = .ok result →
      result.1.valuesAt below = (value.endsAt below).flatMap left)
    {outer : List String} {value : Json} {result : Json × Bool} (hnames : value.namesOnce)
    (h : updateAt arrayFilters operator argument (Updater.openWildcards outer ++ tail) value =
      .ok result) :
    result.1.valuesAt (outer ++ below) = (value.endsAt (outer ++ below)).flatMap left := by
  induction outer generalizing value result with
  | nil => exact hbase hnames h
  | cons segment rest ih =>
    have hrest : Updater.openWildcards rest ++ tail ≠ [] :=
      List.append_ne_nil_of_right_ne_nil _ htail
    change updateAt arrayFilters operator argument ((if segment = wildcard then _ else segment) ::
      (Updater.openWildcards rest ++ tail)) value = _ at h
    rw [List.cons_append]
    by_cases hsegment : segment = wildcard
    case pos =>
      subst hsegment
      rw [if_pos rfl] at h
      cases step_of_updateAt h with
      | last hnil => exact absurd hnil hrest
      | child => exact valuesAt_wildcard_of_not_arrays rfl rfl
      | created => exact valuesAt_wildcard_of_not_arrays rfl rfl
      | missing => exact valuesAt_wildcard_of_not_arrays rfl rfl
      | other _ harray => exact valuesAt_wildcard_of_not_arrays harray harray
      | @elements items others chosen changed hchosen hitems =>
        refine valuesAt_wildcard_of_forall₂ (((List.forall₂_and_left items others).2
          ⟨namesOnce_array_iff.1 hnames, forall₂_updateItems hchosen hitems⟩).imp ?_)
        rintro item other ⟨hitem, ⟨hflag, -⟩ | ⟨-, changedItem, hstep⟩⟩
        · cases hflag
        · rw [elementStep_eq_updateAt hrest] at hstep
          exact ih hitem hstep
    case neg =>
      rw [if_neg hsegment] at h
      cases step_of_updateAt h with
      | last hnil => exact absurd hnil hrest
      | child _ hlookup hupdated =>
        rw [valuesAt_name_object hsegment, lookupName_putField, if_pos rfl,
          endsAt_name_object hsegment, hlookup]
        exact ih (namesOnce_of_lookupName hnames hlookup) hupdated
      | created _ hlookup _ hupdated =>
        rw [valuesAt_name_object hsegment, lookupName_putField, if_pos rfl,
          endsAt_name_object hsegment, hlookup]
        -- what was created comes from an object without fields, at which no path ends
        refine (ih rfl hupdated).trans ?_
        rw [endsAt_emptyObject (List.append_ne_nil_of_right_ne_nil _ hbelow)]
      | missing hlookup =>
        rw [valuesAt_name_object hsegment, endsAt_name_object hsegment, hlookup]
        rfl
      | elements => exact valuesAt_name_of_not_objects hsegment rfl rfl
      | other hobject => exact valuesAt_name_of_not_objects hsegment hobject hobject

end Update

end LinkedDocs
