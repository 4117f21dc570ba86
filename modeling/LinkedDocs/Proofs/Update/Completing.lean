import LinkedDocs.Proofs.Json.Trimming
import LinkedDocs.Proofs.Update.Detaching

namespace LinkedDocs

open Json

namespace Filter

/-- A key that is not null is not found in a missing field. -/
theorem exists_candidate_of_anyAmong {candidates : List Candidate} {keys : List Json}
    (hkeys : ∀ key ∈ keys, key.isNull = false) (h : anyAmong candidates keys) :
    ∃ found, some found ∈ candidates := by
  rw [anyAmong, List.any_eq_true] at h
  obtain ⟨candidate, hcandidate, h⟩ := h
  obtain ⟨key, hkey, hequals⟩ := List.any_eq_true.1 h
  cases candidate with
  | some found => exact ⟨found, hcandidate⟩
  | none =>
    have hnull : key.isNull = true := hequals
    rw [hkeys key hkey] at hnull
    cases hnull

end Filter

namespace Update

theorem filter_ne_wildcard {path : List String} (hpath : wildcard ∉ path) :
    path.filter (fun segment => segment ≠ wildcard) = path := by
  refine List.filter_eq_self.2 fun segment hsegment => decide_eq_true ?_
  rintro rfl
  exact hpath hsegment

/-- On a path of names to a value that a filter query finds, no field is missing. -/
theorem fitsWhere_names {path : List String} (hpath : wildcard ∉ path) {mayMiss : List String → Bool}
    {value found : Json} (hfound : some found ∈ Filter.candidates path value)
    (hfits : value.fitsWhere mayMiss path) : value.fitsWhere (fun _ => false) path := by
  rw [← filter_ne_wildcard hpath] at hfound
  have hthere := fitsWhere_of_candidate hfound hfits
  refine fitsWhere_mono (fun rest hsuffix hmay => ?_) hthere
  have hrest : wildcard ∉ rest := fun hmem => hpath (List.mem_of_mem_tail (hsuffix.mem hmem))
  simp [List.count_eq_zero.2 hpath, List.count_eq_zero.2 hrest] at hmay

variable [Platform]
variable {arrayFilters : List Json} {operator : UpdateOperator} {argument : Json}

/-- Whether an update at a target succeeds on a value and trims it. -/
def Completes (arrayFilters : List Json) (operator : UpdateOperator) (argument : Json)
    (target : List String) (value : Json) : Prop :=
  ∃ result, updateAt arrayFilters operator argument target value = .ok result ∧
    Trims value result.1

section Step

variable {segment : String} {rest : List String} {fields : List (String × Json)}

theorem completes_child (hrest : rest ≠ []) {child : Json}
    (hlookup : lookupName segment fields = some child)
    (h : Completes arrayFilters operator argument rest child) :
    Completes arrayFilters operator argument (segment :: rest) (.object fields) := by
  obtain ⟨⟨updated, changed⟩, hupdate, htrims⟩ := h
  refine ⟨(.object (putField segment updated fields), changed), ?_, .putField hlookup htrims⟩
  rw [updateAt]
  simp only [List.isEmpty_iff, hrest, if_false, hlookup, hupdate, ok_bind, pure_eq_ok]

theorem completes_missing (hrest : rest ≠ []) (hlookup : lookupName segment fields = none)
    (hcreates : operator.creates = false) :
    Completes arrayFilters operator argument (segment :: rest) (.object fields) := by
  refine ⟨(.object fields, false), ?_, .refl _⟩
  rw [updateAt]
  simp only [List.isEmpty_iff, hrest, if_false, hlookup, hcreates, Bool.false_eq_true]

theorem completes_last {change : Change}
    (hchange : changeField operator argument (lookupName segment fields) = .ok change)
    (htrims : Trims (.object fields) (putChange segment fields change).1) :
    Completes arrayFilters operator argument [segment] (.object fields) := by
  refine ⟨putChange segment fields change, ?_, htrims⟩
  rw [updateAt]
  simp only [List.isEmpty_nil, if_true, hchange, ok_bind, pure_eq_ok]

omit [Platform] in
theorem exists_updateItems {step : Json → Except QueryFault (Json × Bool)} {items : List Json}
    {chosen : List Bool} {selects : Json → Bool → Prop}
    (hchosen : List.Forall₂ selects items chosen)
    (hstep : ∀ item ∈ items, selects item true → ∃ result, step item = .ok result) :
    ∃ result, updateItems step items chosen = .ok result := by
  induction hchosen with
  | nil => exact ⟨_, rfl⟩
  | @cons item flag items chosen hflag _ ih =>
    obtain ⟨hfirst, hrest⟩ := List.forall_mem_cons.1 hstep
    obtain ⟨others, hothers⟩ := ih hrest
    rw [updateItems_cons, hothers]
    cases flag with
    | false => exact ⟨_, rfl⟩
    | true =>
      obtain ⟨first, hdone⟩ := hfirst hflag
      exact ⟨_, by rw [if_pos rfl, hdone]; rfl⟩

theorem completes_elements {items : List Json} {chosen : List Bool}
    (hselection : selection arrayFilters segment items = .ok chosen)
    (hstep : ∀ item ∈ items, Selects arrayFilters segment item true → ∃ result,
      elementStep arrayFilters operator argument rest item = .ok result ∧ Trims item result.1) :
    Completes arrayFilters operator argument (segment :: rest) (.array items) := by
  have hchosen := forall₂_selection hselection
  have hsucceeds : ∀ item ∈ items, Selects arrayFilters segment item true →
      ∃ result, elementStep arrayFilters operator argument rest item = .ok result := by
    intro item hitem hselects
    obtain ⟨result, hresult, -⟩ := hstep item hitem hselects
    exact ⟨result, hresult⟩
  obtain ⟨⟨others, changed⟩, hitems⟩ := exists_updateItems hchosen hsucceeds
  refine ⟨(.array others, changed), ?_, .ofItems fun other hother => ?_⟩
  · rw [updateAt]
    simp only [hselection, ok_bind]
    change (updateItems (elementStep arrayFilters operator argument rest) items chosen >>= _) = _
    rw [hitems]
    rfl
  · obtain ⟨item, hitem, ⟨-, rfl⟩ | ⟨hselects, changedItem, hdone⟩⟩ :=
      mem_updateItems hchosen hitems other hother
    · exact ⟨other, hitem, .refl other⟩
    · obtain ⟨result, hresult, htrims⟩ := hstep item hitem hselects
      rw [hresult] at hdone
      cases hdone
      exact ⟨item, hitem, htrims⟩

theorem selection_everyElement (arrayFilters items : List Json) :
    selection arrayFilters Updater.everyElement items = .ok (items.map fun _ => true) := by
  have hsegment : Positional.ofSegment? Updater.everyElement = some .everyElement := by decide
  rw [selection, hsegment]

end Step

/-- An update follows the part of its target that was opened to wherever the path leads, and what the
rest of the target completes there is completed. -/
theorem completes_openWildcards {below tail : List String} (htail : tail ≠ [])
    {mayMiss : List String → Bool}
    (hmiss : operator.creates → ∀ outer, mayMiss (outer ++ below) = false)
    (hbase : ∀ {value : Json}, value.namesOnce → value.fitsWhere mayMiss below →
      Completes arrayFilters operator argument tail value)
    {outer : List String} {value : Json} (hnames : value.namesOnce)
    (hfits : value.fitsWhere mayMiss (outer ++ below)) :
    Completes arrayFilters operator argument (Updater.openWildcards outer ++ tail) value := by
  induction outer generalizing value with
  | nil => exact hbase hnames hfits
  | cons segment rest ih =>
    have hrest : Updater.openWildcards rest ++ tail ≠ [] :=
      List.append_ne_nil_of_right_ne_nil _ htail
    change Completes _ _ _ ((if segment = wildcard then _ else segment) ::
      (Updater.openWildcards rest ++ tail)) value
    rw [List.cons_append] at hfits
    by_cases hsegment : segment = wildcard
    · subst hsegment
      obtain ⟨items, rfl, hitems⟩ := fitsWhere_wildcard_iff.1 hfits
      rw [if_pos rfl]
      refine completes_elements (selection_everyElement arrayFilters items) fun item hitem _ => ?_
      rw [elementStep_eq_updateAt hrest]
      exact ih (namesOnce_array_iff.1 hnames item hitem) (hitems item hitem).2
    · obtain ⟨fields, rfl, hchild, hmissing⟩ := (fitsWhere_name_iff hsegment).1 hfits
      rw [if_neg hsegment]
      cases hlookup : lookupName segment fields with
      | some child =>
        exact completes_child hrest hlookup
          (ih (namesOnce_of_lookupName hnames hlookup) (hchild child hlookup))
      | none =>
        refine completes_missing hrest hlookup (Bool.eq_false_iff.2 fun hcreates => ?_)
        have hmay := hmissing hlookup
        rw [hmiss hcreates] at hmay
        cases hmay

theorem Clears.trims_putChange (h : Clears operator argument) {name : String}
    {fields : List (String × Json)} (hnames : (Json.object fields).namesOnce) {child : Json}
    (hlookup : lookupName name fields = some child) (hchild : child.isNull || child.isScalar) :
    ∃ change, changeField operator argument (lookupName name fields) = .ok change ∧
      Trims (.object fields) (putChange name fields change).1 := by
  rw [hlookup]
  cases h with
  | set =>
    refine ⟨setTo .null child, rfl, ?_⟩
    rcases setTo_null_cases child with ⟨hkeep, -⟩ | hput
    · rw [hkeep]
      exact .refl _
    · rw [hput]
      exact .putField hlookup (.null hchild)
  | unset => exact ⟨.remove, rfl, .removeField hnames hlookup hchild⟩

/-- Clearing the field at a path of names that is there. -/
theorem Clears.completes_names (h : Clears operator argument) {path : List String}
    (hpath : wildcard ∉ path) (hne : path ≠ []) {value : Json} (hnames : value.namesOnce)
    (hfits : value.fitsWhere (fun _ => false) path) :
    Completes arrayFilters operator argument path value := by
  obtain ⟨outer, name, rfl⟩ := (List.eq_nil_or_concat path).resolve_left hne
  rw [List.concat_eq_append] at *
  have houter : wildcard ∉ outer := fun hmem => hpath (List.mem_append_left _ hmem)
  have hname : name ≠ wildcard := fun heq =>
    hpath (List.mem_append_right _ (List.mem_singleton.2 heq.symm))
  rw [← openWildcards_eq_self houter]
  refine completes_openWildcards (List.cons_ne_nil _ _) (fun _ _ => rfl) ?_ hnames hfits
  intro value hnames hfits
  obtain ⟨fields, rfl, hchild, hmissing⟩ := (fitsWhere_name_iff hname).1 hfits
  cases hlookup : lookupName name fields with
  | none => cases hmissing hlookup
  | some child =>
    obtain ⟨change, hchange, htrims⟩ := h.trims_putChange hnames hlookup (hchild child hlookup)
    exact completes_last hchange htrims

theorem selection_filteredElement {inner : List String} (h : AreNames inner) (hne : inner ≠ [])
    (keys items : List Json) :
    ∃ chosen, selection [.single (joinPath (Updater.filterIdentifier :: inner)) (.oneOf keys)]
      Updater.filteredElement items = .ok chosen := by
  have hsegment : Positional.ofSegment? Updater.filteredElement =
      some (.bound Updater.filterIdentifier) := by decide
  rw [selection, hsegment]
  dsimp only
  induction items with
  | nil => exact ⟨[], rfl⟩
  | cons item rest ih =>
    obtain ⟨chosen, hchosen⟩ := ih
    rw [List.mapM_cons, selected_condition h hne, hchosen]
    exact ⟨_, rfl⟩

/-- Clearing the field behind a wildcard in the elements that hold a key. -/
theorem Clears.completes_selected (h : Clears operator argument) {inner : List String}
    (hinner : AreNames inner) (hne : inner ≠ []) {keys : List Json}
    (hkeys : ∀ key ∈ keys, key.isNull = false) {mayMiss : List String → Bool} {value : Json}
    (hnames : value.namesOnce) (hfits : value.fitsWhere mayMiss (wildcard :: inner)) :
    Completes [.single (joinPath (Updater.filterIdentifier :: inner)) (.oneOf keys)] operator
      argument (Updater.filteredElement :: inner) value := by
  have hsegment : Positional.ofSegment? Updater.filteredElement =
      some (.bound Updater.filterIdentifier) := by decide
  obtain ⟨items, rfl, hitems⟩ := fitsWhere_wildcard_iff.1 hfits
  obtain ⟨chosen, hchosen⟩ := selection_filteredElement hinner hne keys items
  refine completes_elements hchosen fun item hitem hselects => ?_
  rw [Selects, hsegment] at hselects
  dsimp only at hselects
  rw [selected_condition hinner hne, Except.ok.injEq] at hselects
  obtain ⟨found, hfound⟩ := Filter.exists_candidate_of_anyAmong hkeys hselects
  rw [elementStep_eq_updateAt hne]
  exact h.completes_names hinner.wildcard_notMem hne (namesOnce_array_iff.1 hnames item hitem)
    (fitsWhere_names hinner.wildcard_notMem hfound (hitems item hitem).2)

theorem exists_pullFrom {inner : List String} (hinner : AreNames inner) (keys : List Json)
    (items : List Json) :
    ∃ change, pullFrom (pullCondition inner keys) (.array items) = .ok change := by
  have hunpulled : ∃ kept, unpulled (pullCondition inner keys) items = .ok kept := by
    induction items with
    | nil => exact ⟨[], rfl⟩
    | cons item rest ih =>
      obtain ⟨kept, hkept⟩ := ih
      rw [unpulled, pulls_pullCondition hinner, hkept]
      exact ⟨_, rfl⟩
  obtain ⟨kept, hkept⟩ := hunpulled
  rw [pullFrom, hkept]
  exact ⟨_, rfl⟩

theorem completes_pulled_segment {inner : List String} (hinner : AreNames inner) (keys : List Json)
    {segment : String} {mayMiss : List String → Bool} {value : Json}
    (hfits : value.fitsWhere mayMiss (segment :: wildcard :: inner)) :
    Completes arrayFilters .pull (pullCondition inner keys)
      [if segment = wildcard then Updater.everyElement else segment] value := by
  by_cases hsegment : segment = wildcard
  · subst hsegment
    obtain ⟨items, rfl, hitems⟩ := fitsWhere_wildcard_iff.1 hfits
    rw [if_pos rfl]
    -- no array stands behind the first wildcard, so there is nothing to pull from
    refine completes_elements (selection_everyElement arrayFilters items) fun item hitem _ => ?_
    obtain ⟨harray, hitemFits⟩ := hitems item hitem
    obtain ⟨_, rfl, -⟩ := fitsWhere_wildcard_iff.1 hitemFits
    cases harray
  · obtain ⟨fields, rfl, hchild, -⟩ := (fitsWhere_name_iff hsegment).1 hfits
    rw [if_neg hsegment]
    cases hlookup : lookupName segment fields with
    | none =>
      have hkeep : changeField .pull (pullCondition inner keys) (lookupName segment fields) =
          .ok .keep := by rw [hlookup]; rfl
      exact completes_last hkeep (.refl _)
    | some child =>
      obtain ⟨items, rfl, -⟩ := fitsWhere_wildcard_iff.1 (hchild child hlookup)
      obtain ⟨change, hchange⟩ := exists_pullFrom hinner keys items
      refine completes_last (by rw [hlookup]; exact hchange) ?_
      obtain ⟨_, kept, heq, hsublist, -, -, rfl | rfl⟩ := elementChange_pullFrom hchange
      · exact .refl _
      · cases heq
        exact .putField hlookup (.ofItems fun item hitem => ⟨item, hsublist.subset hitem, .refl item⟩)

theorem completes_pulled {outer inner : List String} (hinner : AreNames inner) (hne : outer ≠ [])
    (keys : List Json) {mayMiss : List String → Bool} {value : Json} (hnames : value.namesOnce)
    (hfits : value.fitsWhere mayMiss (outer ++ wildcard :: inner)) :
    Completes arrayFilters .pull (pullCondition inner keys) (Updater.openWildcards outer) value := by
  obtain ⟨init, segment, rfl⟩ := (List.eq_nil_or_concat outer).resolve_left hne
  rw [List.concat_eq_append] at *
  rw [List.append_assoc, List.singleton_append] at hfits
  rw [Updater.openWildcards, List.map_append, List.map_singleton]
  exact completes_openWildcards (List.cons_ne_nil _ _) (fun hcreates => by cases hcreates)
    (fun _ => completes_pulled_segment hinner keys) hnames hfits

end Update

end LinkedDocs
