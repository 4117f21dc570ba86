import LinkedDocs.Proofs.Filter.Reaching
import LinkedDocs.Proofs.Update.Erasing

namespace LinkedDocs

open Json

namespace Json

/-- Whether a path reaches no scalar with the value of one of some keys. -/
def Avoids (value : Json) (keys : List Json) (path : List String) : Prop :=
  ∀ found, value.Reaches path found → found.isScalar → ∀ key ∈ keys, ¬found.sameValue key

theorem Shrinks.avoids {old new : Json} (h : Shrinks old new) {keys : List Json} {path : List String}
    (hold : old.Avoids keys path) : new.Avoids keys path :=
  fun found hfound hscalar => hold found (h.scalar hfound hscalar) hscalar

theorem avoids_append {value : Json} {keys : List Json} {outer inner : List String}
    (h : ∀ middle, value.Reaches outer middle → middle.Avoids keys inner) :
    value.Avoids keys (outer ++ inner) := by
  intro found hfound
  obtain ⟨middle, hmiddle, hinner⟩ := reaches_append_iff.1 hfound
  exact h middle hmiddle found hinner

end Json

namespace Filter

theorem mem_candidates_of_reaches {path : List String} (hpath : wildcard ∉ path)
    {value found : Json} (h : value.Reaches path found) : some found ∈ candidates path value := by
  induction h with
  | here => exact List.mem_singleton_self _
  | field _ hlookup _ ih =>
    simp only [candidates, hlookup]
    exact ih fun hmem => hpath (List.mem_cons_of_mem _ hmem)
  | element => exact absurd List.mem_cons_self hpath

theorem avoids_of_anyAmong {path : List String} (hpath : wildcard ∉ path) {value : Json}
    {keys : List Json} (h : anyAmong (candidates path value) keys = false) :
    value.Avoids keys path := by
  intro found hfound hscalar key hkey hsame
  have hany : anyAmong (candidates path value) keys := by
    refine anyAmong_iff.2 ⟨key, hkey, List.any_eq_true.2 ⟨some found, ?_, ?_⟩⟩
    · exact mem_candidates_of_reaches hpath hfound
    · simp [equalsTarget_some (isArray_eq_false_of_isScalar hscalar), hsame]
  rw [h] at hany
  cases hany

end Filter

namespace Update

theorem openWildcards_eq_self {path : List String} (hpath : wildcard ∉ path) :
    Updater.openWildcards path = path := by
  rw [Updater.openWildcards]
  refine (List.map_congr_left fun segment hsegment => ?_).trans (List.map_id path)
  have hne : segment ≠ wildcard := fun heq => hpath (heq ▸ hsegment)
  exact if_neg hne

/-- Whether the names behind a wildcard are identifiers. -/
def AreNames (inner : List String) : Prop :=
  ∀ segment ∈ inner, Identifier.isValid segment

theorem AreNames.wildcard_notMem {inner : List String} (h : AreNames inner) : wildcard ∉ inner :=
  fun hmem => Identifier.ne_wildcard (h _ hmem) rfl

theorem AreNames.isMarked_eq_false {inner : List String} (h : AreNames inner) (hne : inner ≠ []) :
    isMarked (joinPath inner) = false := by
  cases inner with
  | nil => exact absurd rfl hne
  | cons first rest => exact Identifier.isMarked_joinPath (h first List.mem_cons_self) rest

theorem AreNames.splitPath_joinPath {inner : List String} (h : AreNames inner) (hne : inner ≠ []) :
    splitPath (joinPath inner) = inner :=
  LinkedDocs.splitPath_joinPath hne fun segment hsegment => Identifier.dot_notMem (h segment hsegment)

/-- The operators, with their arguments, that leave no scalar in a field. -/
inductive Clears : UpdateOperator → Json → Prop
  | set : Clears .set .null
  | unset (argument : Json) : Clears .unset argument

theorem Clears.erases {operator : UpdateOperator} {argument : Json} (h : Clears operator argument) : Erases operator argument := by
  cases h with
  | set => exact .set
  | unset => exact .unset argument

variable [Platform]
variable {arrayFilters : List Json} {operator : UpdateOperator} {argument : Json}

/-- An update follows the part of its target that was opened to every value that the path reaches,
so what the rest of the target does to any value is done there. -/
theorem reaches_of_updateAt_openWildcards {tail : List String} (htail : tail ≠ [])
    {holds : Json → Prop}
    (hbase : ∀ {value result}, value.namesOnce →
      updateAt arrayFilters operator argument tail value = .ok result → holds result.1)
    {outer : List String} {value : Json} {result : Json × Bool} (hnames : value.namesOnce)
    (h : updateAt arrayFilters operator argument (Updater.openWildcards outer ++ tail) value =
      .ok result) :
    ∀ middle, result.1.Reaches outer middle → holds middle := by
  induction outer generalizing value result with
  | nil =>
    intro middle hmiddle
    rw [reaches_nil_iff.1 hmiddle]
    exact hbase hnames h
  | cons segment rest ih =>
    have hrest : Updater.openWildcards rest ++ tail ≠ [] :=
      List.append_ne_nil_of_right_ne_nil _ htail
    have hname (hsegment : segment ≠ wildcard) :
        (if segment = wildcard then Updater.everyElement else segment) = segment :=
      if_neg hsegment
    change updateAt arrayFilters operator argument ((if segment = wildcard then _ else segment) ::
      (Updater.openWildcards rest ++ tail)) value = _ at h
    intro middle hmiddle
    cases step_of_updateAt h with
    | last hnil => exact absurd hnil hrest
    | child _ hlookup hchild =>
      cases hmiddle with
      | field hsegment hafter hmiddle =>
        rw [hname hsegment] at hlookup hafter
        rw [lookupName_putField, if_pos rfl] at hafter
        cases hafter
        exact ih (namesOnce_of_lookupName hnames hlookup) hchild middle hmiddle
    | created _ _ _ hchild =>
      cases hmiddle with
      | field hsegment hafter hmiddle =>
        rw [hname hsegment, lookupName_putField, if_pos rfl] at hafter
        cases hafter
        exact ih rfl hchild middle hmiddle
    | missing hlookup =>
      cases hmiddle with
      | field hsegment hafter =>
        rw [hname hsegment, hafter] at hlookup
        cases hlookup
    | elements hchosen hitems =>
      cases hmiddle with
      | element hmem hmiddle =>
        obtain ⟨item, hitem, ⟨hflag, -⟩ | ⟨-, changedItem, hstep⟩⟩ :=
          mem_updateItems hchosen hitems _ hmem
        · cases hflag
        · rw [elementStep_eq_updateAt hrest] at hstep
          exact ih (namesOnce_array_iff.1 hnames item hitem) hstep middle hmiddle
    | other hobject harray =>
      cases hmiddle with
      | field => cases hobject
      | element => cases harray

theorem exists_putChange_set {name : String} {fields : List (String × Json)} {change : Change}
    (hchange : changeField .set .null (lookupName name fields) = .ok change) :
    ∃ others, (putChange name fields change).1 = .object others ∧
      ∀ child, lookupName name others = some child → child = .null := by
  have hput : ∃ others, (putChange name fields (.put .null)).1 = .object others ∧
      ∀ child, lookupName name others = some child → child = .null := by
    refine ⟨_, rfl, fun child hchild => ?_⟩
    rw [lookupName_putField, if_pos rfl] at hchild
    exact (Option.some.inj hchild).symm
  cases hlookup : lookupName name fields with
  | none =>
    rw [hlookup] at hchange
    cases hchange
    exact hput
  | some current =>
    rw [hlookup] at hchange
    cases hchange
    rcases setTo_null_cases current with ⟨hkeep, rfl⟩ | hnull
    · rw [hkeep]
      refine ⟨fields, rfl, fun child hchild => ?_⟩
      rw [hlookup] at hchild
      exact (Option.some.inj hchild).symm
    · rw [hnull]
      exact hput

theorem exists_putChange_unset {name : String} {fields : List (String × Json)} {change : Change}
    (hnames : (Json.object fields).namesOnce)
    (hchange : changeField .unset argument (lookupName name fields) = .ok change) :
    ∃ others, (putChange name fields change).1 = .object others ∧ lookupName name others = none := by
  cases hlookup : lookupName name fields with
  | none =>
    rw [hlookup] at hchange
    cases hchange
    exact ⟨fields, rfl, hlookup⟩
  | some current =>
    rw [hlookup] at hchange
    cases hchange
    have hpresent : name ∈ fields.map Prod.fst := mem_names_of_lookupName (by simp [hlookup])
    refine ⟨_, rfl, ?_⟩
    rw [lookupName_removeField (namesOnce_object_iff.1 hnames).1 hpresent, if_pos rfl]

/-- A field that was cleared is gone or null. -/
theorem Clears.exists_putChange (h : Clears operator argument) {name : String}
    {fields : List (String × Json)} (hnames : (Json.object fields).namesOnce) {change : Change}
    (hchange : changeField operator argument (lookupName name fields) = .ok change) :
    ∃ others, (putChange name fields change).1 = .object others ∧
      ∀ child, lookupName name others = some child → child = .null := by
  cases h with
  | set => exact exists_putChange_set hchange
  | unset =>
    obtain ⟨others, hothers, hnone⟩ := exists_putChange_unset hnames hchange
    refine ⟨others, hothers, fun child hchild => ?_⟩
    rw [hnone] at hchild
    cases hchild

theorem Clears.avoids_putChange (h : Clears operator argument) {name : String} (keys : List Json)
    {fields : List (String × Json)} (hnames : (Json.object fields).namesOnce) {change : Change}
    (hchange : changeField operator argument (lookupName name fields) = .ok change) :
    (putChange name fields change).1.Avoids keys [name] := by
  obtain ⟨others, hothers, hnull⟩ := h.exists_putChange hnames hchange
  rw [hothers]
  intro found hfound hscalar
  cases hfound with
  | field _ hlookup hend =>
    rw [reaches_nil_iff.1 hend, hnull _ hlookup] at hscalar
    cases hscalar

theorem avoids_of_cleared_name (h : Clears operator argument) {name : String}
    (hname : name ≠ wildcard) (keys : List Json) {value : Json} {result : Json × Bool}
    (hnames : value.namesOnce)
    (hupdate : updateAt arrayFilters operator argument [name] value = .ok result) :
    result.1.Avoids keys [name] := by
  cases step_of_updateAt hupdate with
  | last _ hchange => exact h.avoids_putChange keys hnames hchange
  | child hrest => exact absurd rfl hrest
  | created hrest => exact absurd rfl hrest
  | missing hlookup =>
    intro found hfound
    cases hfound with
    | field _ hafter =>
      rw [hlookup] at hafter
      cases hafter
  | elements =>
    intro found hfound
    cases hfound with
    | element => exact absurd rfl hname
  | other hobject harray =>
    intro found hfound
    cases hfound with
    | field => cases hobject
    | element => cases harray

/-- Setting the field at a path of names to null, or unsetting it, leaves no keys at the path. -/
theorem avoids_of_cleared (h : Clears operator argument) {path : List String}
    (hpath : wildcard ∉ path) (hne : path ≠ []) (keys : List Json) {value : Json}
    {result : Json × Bool} (hnames : value.namesOnce)
    (hupdate : updateAt arrayFilters operator argument path value = .ok result) :
    result.1.Avoids keys path := by
  obtain ⟨outer, name, rfl⟩ := (List.eq_nil_or_concat path).resolve_left hne
  rw [List.concat_eq_append] at *
  have houter : wildcard ∉ outer := fun hmem => hpath (List.mem_append_left _ hmem)
  have hname : name ≠ wildcard := fun heq =>
    hpath (List.mem_append_right _ (List.mem_singleton.2 heq.symm))
  rw [← openWildcards_eq_self houter] at hupdate
  exact avoids_append (reaches_of_updateAt_openWildcards (List.cons_ne_nil _ _)
    (avoids_of_cleared_name h hname keys) hnames hupdate)

theorem accepts_joinPath {inner : List String} (h : AreNames inner) (hne : inner ≠ []) (item : Json)
    (keys : List Json) :
    Filter.accepts item (.single (joinPath inner) (.oneOf keys)) =
      .ok (Filter.anyAmong (Filter.candidates inner item) keys) := by
  rw [Filter.accepts_oneOf (h.isMarked_eq_false hne), Filter.lookup, h.splitPath_joinPath hne]

/-- The array filter of a set selects the elements that hold one of the keys. -/
theorem selected_condition {inner : List String} (h : AreNames inner) (hne : inner ≠ [])
    (item : Json) (keys : List Json) :
    selected Updater.filterIdentifier item false
        [.single (joinPath (Updater.filterIdentifier :: inner)) (.oneOf keys)] =
      .ok (Filter.anyAmong (Filter.candidates inner item) keys) := by
  have hvalid : AreNames (Updater.filterIdentifier :: inner) :=
    List.forall_mem_cons.2 ⟨by decide, h⟩
  have hhead : splitHead (joinPath (Updater.filterIdentifier :: inner)) =
      (Updater.filterIdentifier, some (joinPath inner)) := by
    rw [splitHead, hvalid.splitPath_joinPath (List.cons_ne_nil _ _)]
    cases inner with
    | nil => exact absurd rfl hne
    | cons => rfl
  have haccepts := accepts_joinPath h hne item keys
  rw [Json.single, Filter.accepts] at haccepts
  rw [Json.single]
  simp only [selected, conditionsHold, hhead, ne_eq, not_true_eq_false, if_false, haccepts, ok_bind]
  cases Filter.anyAmong (Filter.candidates inner item) keys <;> rfl

/-- Setting or unsetting the field behind a wildcard in the elements that hold one of the keys
leaves none of them. -/
theorem avoids_of_selected (h : Clears operator argument) {inner : List String}
    (hinner : AreNames inner) (hne : inner ≠ []) {keys : List Json} {value : Json}
    {result : Json × Bool} (hnames : value.namesOnce)
    (hupdate : updateAt [.single (joinPath (Updater.filterIdentifier :: inner)) (.oneOf keys)]
      operator argument (Updater.filteredElement :: inner) value = .ok result) :
    result.1.Avoids keys (wildcard :: inner) := by
  have hsegment : Positional.ofSegment? Updater.filteredElement =
      some (.bound Updater.filterIdentifier) := by decide
  intro found hfound
  cases step_of_updateAt hupdate with
  | last hrest => exact absurd hrest hne
  | child =>
    cases hfound with
    | field hwildcard => exact absurd rfl hwildcard
  | created =>
    cases hfound with
    | field hwildcard => exact absurd rfl hwildcard
  | missing =>
    cases hfound with
    | field hwildcard => exact absurd rfl hwildcard
  | other hobject harray =>
    cases hfound with
    | field => cases hobject
    | element => cases harray
  | elements hchosen hitems =>
    cases hfound with
    | element hmem hfound =>
      obtain ⟨item, hitem, ⟨hflag, rfl⟩ | ⟨-, changedItem, hstep⟩⟩ :=
        mem_updateItems hchosen hitems _ hmem
      · rw [Selects, hsegment] at hflag
        dsimp only at hflag
        rw [selected_condition hinner hne, Except.ok.injEq] at hflag
        exact Filter.avoids_of_anyAmong hinner.wildcard_notMem hflag found hfound
      · rw [elementStep_eq_updateAt hne] at hstep
        exact avoids_of_cleared h hinner.wildcard_notMem hne keys
          (namesOnce_array_iff.1 hnames item hitem) hstep found hfound

/-- The condition by which the elements are pulled that hold one of some keys. -/
def pullCondition (inner : List String) (keys : List Json) : Json :=
  if inner.isEmpty then .oneOf keys else .single (joinPath inner) (.oneOf keys)

/-- An element is pulled if it holds one of the keys; where names lead to them, only objects are. -/
theorem pulls_pullCondition {inner : List String} (hinner : AreNames inner) (keys : List Json)
    (item : Json) :
    pulls (pullCondition inner keys) item =
      .ok ((inner.isEmpty || item.isObject) &&
        Filter.anyAmong (Filter.candidates inner item) keys) := by
  cases inner with
  | nil =>
    rw [pullCondition, if_pos List.isEmpty_nil, pulls, if_pos (Filter.isOperatorObject_oneOf keys),
      Filter.holdsFor_oneOf]
    rfl
  | cons name rest =>
    have hne : name :: rest ≠ [] := List.cons_ne_nil _ _
    have hoperator : Filter.isOperatorObject (.single (joinPath (name :: rest)) (.oneOf keys)) =
        false := by
      simp [Json.single, Filter.isOperatorObject, hinner.isMarked_eq_false hne]
    have hobject : (Json.single (joinPath (name :: rest)) (.oneOf keys)).isObject = true := rfl
    have hempty : (name :: rest).isEmpty = false := rfl
    rw [pullCondition, if_neg (by simp), pulls, if_neg (by simp [hoperator]), if_pos hobject,
      accepts_joinPath hinner hne, hempty, Bool.false_or]
    cases item.isObject <;> rfl

theorem avoids_of_not_pulled {inner : List String} (hinner : AreNames inner) {keys : List Json}
    {item : Json} (h : pulls (pullCondition inner keys) item = .ok false) :
    item.Avoids keys inner := by
  rw [pulls_pullCondition hinner, Except.ok.injEq, Bool.and_eq_false_iff] at h
  rcases h with hvalue | hnone
  · -- names lead nowhere in a value that is no object
    obtain ⟨hnames, hobject⟩ := Bool.or_eq_false_iff.1 hvalue
    intro found hfound
    cases hfound with
    | here => cases hnames
    | field => cases hobject
    | element => exact absurd List.mem_cons_self hinner.wildcard_notMem
  · exact Filter.avoids_of_anyAmong hinner.wildcard_notMem hnone

theorem avoids_of_pullFrom {inner : List String} (hinner : AreNames inner) {keys : List Json}
    {value : Json} {change : Change} (h : pullFrom (pullCondition inner keys) value = .ok change) :
    (elementChange value change).1.Avoids keys (wildcard :: inner) := by
  obtain ⟨items, kept, -, -, hnone, hafter, -⟩ := elementChange_pullFrom h
  rw [hafter]
  intro found hfound
  cases hfound with
  | element hmem hfound => exact avoids_of_not_pulled hinner (hnone _ hmem) found hfound

theorem avoids_putChange_pull {inner : List String} (hinner : AreNames inner) {keys : List Json}
    {name : String} {fields : List (String × Json)} {change : Change}
    (hchange : changeField .pull (pullCondition inner keys) (lookupName name fields) = .ok change) :
    (putChange name fields change).1.Avoids keys (name :: wildcard :: inner) := by
  intro found hfound
  cases hlookup : lookupName name fields with
  | none =>
    rw [hlookup] at hchange
    cases hchange
    cases hfound with
    | field _ hafter =>
      rw [hlookup] at hafter
      cases hafter
  | some current =>
    rw [hlookup] at hchange
    have havoids := avoids_of_pullFrom hinner hchange
    obtain ⟨_, kept, -, -, -, -, rfl | rfl⟩ := elementChange_pullFrom hchange
    · cases hfound with
      | field _ hafter hfound =>
        rw [hlookup] at hafter
        cases hafter
        exact havoids found hfound
    · cases hfound with
      | field _ hafter hfound =>
        rw [lookupName_putField, if_pos rfl] at hafter
        cases hafter
        exact havoids found hfound

theorem avoids_of_pulled_segment {inner : List String} (hinner : AreNames inner) {keys : List Json}
    {segment : String} {value : Json} {result : Json × Bool}
    (hupdate : updateAt arrayFilters .pull (pullCondition inner keys)
      [if segment = wildcard then Updater.everyElement else segment] value = .ok result) :
    result.1.Avoids keys (segment :: wildcard :: inner) := by
  intro found hfound
  cases step_of_updateAt hupdate with
  | child hrest => exact absurd rfl hrest
  | created hrest => exact absurd rfl hrest
  | missing hlookup =>
    cases hfound with
    | field hsegment hafter =>
      rw [if_neg hsegment, hafter] at hlookup
      cases hlookup
  | other hobject harray =>
    cases hfound with
    | field => cases hobject
    | element => cases harray
  | elements hchosen hitems =>
    cases hfound with
    | element hmem hfound =>
      obtain ⟨item, hitem, ⟨hflag, -⟩ | ⟨-, changedItem, hstep⟩⟩ :=
        mem_updateItems hchosen hitems _ hmem
      · cases hflag
      · obtain ⟨change, hchange, hother⟩ := exists_of_elementStep_nil hstep
        have havoids := avoids_of_pullFrom hinner hchange
        rw [hother] at havoids
        exact havoids found hfound
  | @last fields change _ hchange =>
    by_cases hsegment : segment = wildcard
    · subst hsegment
      cases change <;> cases hfound with
      | field hwildcard => exact absurd rfl hwildcard
    · rw [if_neg hsegment] at hchange hfound
      exact avoids_putChange_pull hinner hchange found hfound

/-- Pulling the elements that hold one of the keys from the arrays at a path leaves none of them. -/
theorem avoids_of_pulled {outer inner : List String} (hinner : AreNames inner) (hne : outer ≠ [])
    {keys : List Json} {value : Json} {result : Json × Bool} (hnames : value.namesOnce)
    (hupdate : updateAt arrayFilters .pull (pullCondition inner keys) (Updater.openWildcards outer)
      value = .ok result) :
    result.1.Avoids keys (outer ++ wildcard :: inner) := by
  obtain ⟨init, segment, rfl⟩ := (List.eq_nil_or_concat outer).resolve_left hne
  rw [List.concat_eq_append] at *
  rw [Updater.openWildcards, List.map_append, List.map_singleton] at hupdate
  rw [List.append_assoc, List.singleton_append]
  exact avoids_append (reaches_of_updateAt_openWildcards (List.cons_ne_nil _ _)
    (fun _ => avoids_of_pulled_segment hinner) hnames hupdate)

end Update

end LinkedDocs
