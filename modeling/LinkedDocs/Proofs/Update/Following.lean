import LinkedDocs.Proofs.Filter.Scalars
import LinkedDocs.Proofs.Json.Cutting
import LinkedDocs.Proofs.Update.Completing

namespace LinkedDocs

open Json

variable {keys : List Json}

namespace Json

theorem holdsAt_content_nil_iff (hkeys : ∀ key ∈ keys, key.isScalar) {value : Json} :
    value.content.holdsAt keys [] ↔ ∃ key ∈ keys, value.sameValue key := by
  have hatom (hcontent : value.content = .atom value) :
      value.content.holdsAt keys [] ↔ ∃ key ∈ keys, value.sameValue key := by
    rw [hcontent, Content.holdsAt_nil_atom, holds_iff]
    exact exists_congr fun key => and_congr_right' ⟨sameValue_symm, sameValue_symm⟩
  have hnone (hcontent : value.content.holdsAt keys [] = false) (hscalar : value.isScalar = false) :
      value.content.holdsAt keys [] ↔ ∃ key ∈ keys, value.sameValue key := by
    refine ⟨fun h => ?_, fun ⟨key, hkey, hsame⟩ => ?_⟩
    · rw [hcontent] at h
      cases h
    · rw [isScalar_of_sameValue hsame (hkeys key hkey)] at hscalar
      cases hscalar
  cases value with
  | array items => exact hnone (by rw [content_array, Content.holdsAt_nil_array]) rfl
  | object fields => exact hnone (by rw [content_object, Content.holdsAt_nil_object]) rfl
  | _ => exact hatom rfl

/-- A path holds a key in the content of a value exactly if it reaches one in the value. -/
theorem holdsAt_content_iff (hkeys : ∀ key ∈ keys, key.isScalar) {path : List String}
    {value : Json} :
    value.content.holdsAt keys path ↔
      ∃ found, value.Reaches path found ∧ ∃ key ∈ keys, found.sameValue key := by
  constructor
  · intro h
    induction path generalizing value with
    | nil => exact ⟨value, .here value, (holdsAt_content_nil_iff hkeys).1 h⟩
    | cons segment rest ih =>
      cases value with
      | array items =>
        by_cases hsegment : segment = wildcard
        · subst hsegment
          rw [content_array, Content.holdsAt_wildcard_array, List.any_map, List.any_eq_true] at h
          obtain ⟨item, hitem, hholds⟩ := h
          obtain ⟨found, hfound, hkey⟩ := ih hholds
          exact ⟨found, .element hitem hfound, hkey⟩
        · rw [content_array, Content.holdsAt_name_array hsegment] at h
          cases h
      | object fields =>
        by_cases hsegment : segment = wildcard
        · subst hsegment
          rw [content_object, Content.holdsAt_wildcard_object] at h
          cases h
        · rw [content_object, Content.holdsAt_name_object hsegment] at h
          cases hlookup : lookupName segment fields with
          | none =>
            rw [hlookup] at h
            cases h
          | some child =>
            rw [hlookup] at h
            obtain ⟨found, hfound, hkey⟩ := ih h
            exact ⟨found, .field hsegment hlookup hfound, hkey⟩
      | _ => cases h
  · rintro ⟨found, hreaches, hkey⟩
    induction hreaches with
    | here => exact (holdsAt_content_nil_iff hkeys).2 hkey
    | field hsegment hlookup _ ih =>
      rw [content_object, Content.holdsAt_name_object hsegment, hlookup]
      exact ih hkey
    | element hmem _ ih =>
      rw [content_array, Content.holdsAt_wildcard_array, List.any_map]
      exact List.any_eq_true.2 ⟨_, hmem, ih hkey⟩

end Json

namespace Filter

/-- On a document that fits a path, the query for some keys looks where the path leads. -/
theorem anyAmong_eq_holdsAt {path : List String}
    (hnames : ∀ segment ∈ path, segment ≠ wildcard → Identifier.isValid segment)
    (hkeys : ∀ key ∈ keys, key.isScalar) {value : Json} (hfits : value.fits path) :
    anyAmong (candidates (path.filter fun segment => segment ≠ wildcard) value) keys =
      value.content.holdsAt keys path := by
  refine Bool.eq_iff_iff.2 ⟨fun hany => ?_, fun hholds => ?_⟩
  · obtain ⟨other, found, hfinds, hkey⟩ := exists_finds (isValid_of_mem_names hnames) hkeys hany
    have hpath := eq_of_reaches_of_shapedWhere (shapedWhere_of_fits hfits) hfinds.reaches
      hfinds.isScalar hfinds.names_eq
    exact (holdsAt_content_iff hkeys).2 ⟨found, hpath ▸ hfinds.reaches, hkey⟩
  · obtain ⟨found, hreaches, key, hkey, hsame⟩ := (holdsAt_content_iff hkeys).1 hholds
    exact anyAmong_iff.2
      ⟨key, hkey, anyAmong_of_reaches hreaches (flat_of_fits hfits) hsame⟩

theorem anyAmong_eq_holdsAt_names {inner : List String} (hinner : Update.AreNames inner)
    (hkeys : ∀ key ∈ keys, key.isScalar) {value : Json} (hfits : value.fits inner) :
    anyAmong (candidates inner value) keys = value.content.holdsAt keys inner := by
  have h := anyAmong_eq_holdsAt (fun segment hsegment _ => hinner segment hsegment) hkeys hfits
  rwa [Update.filter_ne_wildcard hinner.wildcard_notMem] at h

end Filter

namespace Update

variable {arrayFilters : List Json} {operator : UpdateOperator} {argument : Json}
  {relates : List String → Json → Json → Prop}

/-- A relation between what a path starts from before and after an update that holds wherever it
holds one segment further on. -/
structure Follows (relates : List String → Json → Json → Prop) : Prop where
  field {segment : String} {rest : List String} {fields : List (String × Json)}
    {child updated : Json} (hsegment : segment ≠ wildcard)
    (hlookup : lookupName segment fields = some child) (hchild : relates rest child updated) :
    relates (segment :: rest) (.object fields) (.object (putField segment updated fields))
  missing {segment : String} {rest : List String} {fields : List (String × Json)}
    (hsegment : segment ≠ wildcard) (hlookup : lookupName segment fields = none) :
    relates (segment :: rest) (.object fields) (.object fields)
  items {rest : List String} {items others : List Json}
    (hitems : List.Forall₂ (relates rest) items others) :
    relates (wildcard :: rest) (.array items) (.array others)

/-- A step at the selected elements of an array is followed below a wildcard, if the elements that
are not selected are related to themselves. -/
theorem Follows.elements (h : Follows relates) {rest : List String}
    {step : Json → Except QueryFault (Json × Bool)} {selects : Json → Bool → Prop}
    {items others : List Json} {chosen : List Bool} {changed : Bool}
    (hchosen : List.Forall₂ selects items chosen)
    (hupdated : updateItems step items chosen = .ok (others, changed))
    (hkept : ∀ item ∈ items, selects item false → relates rest item item)
    (hstep : ∀ item ∈ items, selects item true → ∀ result, step item = .ok result →
      relates rest item result.1) :
    relates (wildcard :: rest) (.array items) (.array others) := by
  have hboth : ∀ item ∈ items, (selects item false → _) ∧ (selects item true → _) :=
    fun item hitem => ⟨hkept item hitem, hstep item hitem⟩
  refine h.items (((List.forall₂_and_left items others).2
    ⟨hboth, forall₂_updateItems hchosen hupdated⟩).imp ?_)
  rintro item other ⟨⟨hkept, hstep⟩, ⟨hflag, rfl⟩ | ⟨hflag, changedItem, hdone⟩⟩
  · exact hkept hflag
  · exact hstep hflag _ hdone

variable [Platform]

/-- An update follows the part of its target that was opened, so it is enough to know what it does
behind it. -/
theorem Follows.openWildcards (hfollows : Follows relates) {below inside tail : List String}
    (htail : tail ≠ []) {mayMiss : List String → Bool}
    (hmiss : operator.creates → ∀ outer, mayMiss (outer ++ below) = false)
    (hbase : ∀ {value result}, value.namesOnce → value.fitsWhere mayMiss below →
      updateAt arrayFilters operator argument tail value = .ok result →
      relates inside value result.1)
    {outer : List String} {value : Json} {result : Json × Bool} (hnames : value.namesOnce)
    (hfits : value.fitsWhere mayMiss (outer ++ below))
    (h : updateAt arrayFilters operator argument (Updater.openWildcards outer ++ tail) value =
      .ok result) :
    relates (outer ++ inside) value result.1 := by
  induction outer generalizing value result with
  | nil => exact hbase hnames hfits h
  | cons segment rest ih =>
    have hrest : Updater.openWildcards rest ++ tail ≠ [] :=
      List.append_ne_nil_of_right_ne_nil _ htail
    change updateAt arrayFilters operator argument ((if segment = wildcard then _ else segment) ::
      (Updater.openWildcards rest ++ tail)) value = _ at h
    rw [List.cons_append] at hfits ⊢
    by_cases hsegment : segment = wildcard
    case pos =>
      subst hsegment
      obtain ⟨items, rfl, hitems⟩ := fitsWhere_wildcard_iff.1 hfits
      rw [if_pos rfl] at h
      cases step_of_updateAt h with
      | other _ harray => cases harray
      | elements hchosen hupdated =>
        refine hfollows.elements hchosen hupdated (fun item _ hflag => ?kept)
          fun item hitem _ result hstep => ?step
        case kept => cases hflag
        case step =>
          rw [elementStep_eq_updateAt hrest] at hstep
          exact ih (namesOnce_array_iff.1 hnames item hitem) (hitems item hitem).2 hstep
    case neg =>
      obtain ⟨fields, rfl, hchild, hmissing⟩ := (fitsWhere_name_iff hsegment).1 hfits
      rw [if_neg hsegment] at h
      cases step_of_updateAt h with
      | last hnil => exact absurd hnil hrest
      | child _ hlookup hupdated =>
        exact hfollows.field hsegment hlookup
          (ih (namesOnce_of_lookupName hnames hlookup) (hchild _ hlookup) hupdated)
      | created _ hlookup hcreates =>
        have hmay := hmissing hlookup
        rw [hmiss hcreates] at hmay
        cases hmay
      | missing hlookup => exact hfollows.missing hsegment hlookup
      | other hobject => cases hobject

/-- A relation that holds where an operator clears a field with one of some keys, and where there is
none of them. -/
structure FollowsClearing (operator : UpdateOperator) (argument : Json) (keys : List Json)
    (relates : List String → Json → Json → Prop) : Prop extends Follows relates where
  last {name : String} (hname : name ≠ wildcard) {fields : List (String × Json)}
    (hnames : (Json.object fields).namesOnce) {child : Json}
    (hlookup : lookupName name fields = some child) (hholds : child.content.holdsAt keys [])
    {change : Change} (hchange : changeField operator argument (some child) = .ok change) :
    relates [name] (.object fields) (putChange name fields change).1
  kept {path : List String} {value : Json} (hnone : value.content.holdsAt keys path = false) :
    relates path value value

namespace FollowsClearing

variable {keys : List Json}

/-- Clearing the field at a path of names that leads to a key. -/
theorem names (h : FollowsClearing operator argument keys relates) {path : List String}
    (hpath : wildcard ∉ path) (hne : path ≠ []) {value : Json} (hnames : value.namesOnce)
    (hholds : value.content.holdsAt keys path) {result : Json × Bool}
    (hupdate : updateAt arrayFilters operator argument path value = .ok result) :
    relates path value result.1 := by
  induction path generalizing value result with
  | nil => exact absurd rfl hne
  | cons name rest ih =>
    have hname : name ≠ wildcard := fun heq => hpath (heq ▸ List.mem_cons_self)
    have hothers : wildcard ∉ rest := fun hmem => hpath (List.mem_cons_of_mem _ hmem)
    cases value with
    | array items =>
      rw [content_array, Content.holdsAt_name_array hname] at hholds
      cases hholds
    | object fields =>
      rw [content_object, Content.holdsAt_name_object hname] at hholds
      cases hlookup : lookupName name fields with
      | none =>
        rw [hlookup] at hholds
        cases hholds
      | some child =>
        rw [hlookup] at hholds
        have hchild : child.content.holdsAt keys rest := hholds
        cases step_of_updateAt hupdate with
        | last hrest hchange =>
          subst hrest
          rw [hlookup] at hchange
          exact h.last hname hnames hlookup hchild hchange
        | child hrest hfound hupdated =>
          rw [hlookup] at hfound
          cases hfound
          exact h.field hname hlookup
            (ih hothers hrest (namesOnce_of_lookupName hnames hlookup) hchild hupdated)
        | created _ hmissing =>
          rw [hlookup] at hmissing
          cases hmissing
        | missing hmissing =>
          rw [hlookup] at hmissing
          cases hmissing
        | other hobject => cases hobject
    | _ => cases hholds

/-- Clearing the field behind a wildcard in the elements that hold a key. -/
theorem selected (h : FollowsClearing operator argument keys relates)
    (hkeys : ∀ key ∈ keys, key.isScalar) {inner : List String} (hinner : AreNames inner)
    (hne : inner ≠ []) {mayMiss : List String → Bool} {value : Json} (hnames : value.namesOnce)
    (hfits : value.fitsWhere mayMiss (wildcard :: inner)) {result : Json × Bool}
    (hupdate : updateAt [.single (joinPath (Updater.filterIdentifier :: inner)) (.oneOf keys)]
      operator argument (Updater.filteredElement :: inner) value = .ok result) :
    relates (wildcard :: inner) value result.1 := by
  have hsegment : Positional.ofSegment? Updater.filteredElement =
      some (.bound Updater.filterIdentifier) := by decide
  obtain ⟨items, rfl, hitems⟩ := fitsWhere_wildcard_iff.1 hfits
  have hselects {item : Json} (hitem : item ∈ items) {flag : Bool}
      (hflag : Selects [.single (joinPath (Updater.filterIdentifier :: inner)) (.oneOf keys)]
        Updater.filteredElement item flag) : item.content.holdsAt keys inner = flag := by
    rw [Selects, hsegment] at hflag
    dsimp only at hflag
    rw [selected_condition hinner hne, Except.ok.injEq] at hflag
    rw [← hflag,
      Filter.anyAmong_eq_holdsAt_names hinner hkeys (fits_of_fitsWhere (hitems item hitem).2)]
  cases step_of_updateAt hupdate with
  | other _ harray => cases harray
  | elements hchosen hupdated =>
    refine h.elements hchosen hupdated (fun item hitem hflag => h.kept (hselects hitem hflag))
      fun item hitem hflag result hstep => ?_
    rw [elementStep_eq_updateAt hne] at hstep
    exact h.names hinner.wildcard_notMem hne (namesOnce_array_iff.1 hnames item hitem)
      (hselects hitem hflag) hstep

end FollowsClearing

end Update

end LinkedDocs
