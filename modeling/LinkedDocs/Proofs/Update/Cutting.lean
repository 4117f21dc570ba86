import LinkedDocs.Proofs.Update.Following

namespace LinkedDocs

open Json

namespace Json

variable {change : Content → Option Content} {segment : String} {rest : List String}
  {fields : List (String × Json)}

theorem edit_content_missing (hsegment : segment ≠ wildcard)
    (hlookup : lookupName segment fields = none) :
    (object fields).content.edit change (segment :: rest) = some (object fields).content := by
  rw [content_object, Content.edit_name_object hsegment]
  refine congrArg (fun fields => some (Content.object fields)) (funext fun name => ?_)
  split
  case isTrue hname =>
    rw [hname, hlookup]
    rfl
  case isFalse => rfl

theorem edit_content_put (hsegment : segment ≠ wildcard) {child updated : Json}
    (hlookup : lookupName segment fields = some child)
    (hchild : child.content.edit change rest = some updated.content) :
    (object fields).content.edit change (segment :: rest) =
      some (object (putField segment updated fields)).content := by
  rw [content_putField, content_object, Content.edit_name_object hsegment]
  refine congrArg (fun fields => some (Content.object fields)) (funext fun name => ?_)
  split
  case isTrue hname => rw [hname, hlookup, Option.map_some, Option.bind_some, hchild]
  case isFalse => rfl

theorem edit_content_remove (hsegment : segment ≠ wildcard) (hnames : (object fields).namesOnce)
    {child : Json} (hlookup : lookupName segment fields = some child)
    (hchild : child.content.edit change rest = none) :
    (object fields).content.edit change (segment :: rest) =
      some (object (removeField segment fields)).content := by
  have hmem : segment ∈ fields.map Prod.fst :=
    List.mem_map_of_mem (NameMap.mem_of_lookupName hlookup)
  rw [content_removeField hnames hmem, content_object, Content.edit_name_object hsegment]
  refine congrArg (fun fields => some (Content.object fields)) (funext fun name => ?_)
  split
  case isTrue hname => rw [hname, hlookup, Option.map_some, Option.bind_some, hchild]
  case isFalse => rfl

theorem filterMap_content_of_forall₂ {items others : List Json}
    (h : List.Forall₂ (fun item other => change item.content = some other.content) items others) :
    (items.map content).filterMap change = others.map content := by
  induction h with
  | nil => rfl
  | cons hitem _ ih => rw [List.map_cons, List.filterMap_cons_some hitem, ih, List.map_cons]

theorem edit_content_items {items others : List Json}
    (h : List.Forall₂ (fun item other => item.content.edit change rest = some other.content)
      items others) :
    (array items).content.edit change (wildcard :: rest) = some (array others).content := by
  rw [content_array, content_array, Content.edit_wildcard_array, filterMap_content_of_forall₂ h]

end Json

namespace Update

variable {arrayFilters : List Json} {operator : UpdateOperator} {argument : Json}

theorem follows_edit (change : Content → Option Content) :
    Follows fun path old new => old.content.edit change path = some new.content where
  field hsegment hlookup hchild := edit_content_put hsegment hlookup hchild
  missing := edit_content_missing
  items := edit_content_items

/-- What an operator that clears leaves of the content of a field. -/
def leftBy (operator : UpdateOperator) : Option Content :=
  if operator.creates then some (.atom .null) else none

variable [Platform]
variable {cut : Cut}

theorem Clears.followsClearing_edit (h : Clears operator argument) (cut : Cut)
    (hinner : cut.inner = []) (hleft : cut.left = leftBy operator) :
    FollowsClearing operator argument cut.keys fun path old new =>
      old.content.edit cut.here path = some new.content where
  toFollows := follows_edit cut.here
  last {name} hname fields hnames child hlookup hholds change hchange := by
    have hcut : cut.here child.content = leftBy operator := by
      rw [Cut.here, hinner, if_pos hholds, hleft]
    cases h with
    | set =>
      cases hchange
      have hput : (Json.object fields).content.edit cut.here [name] =
          some (Json.object (putField name .null fields)).content :=
        edit_content_put hname hlookup hcut
      rcases setTo_null_cases child with ⟨hkeep, rfl⟩ | hnull
      · rw [hkeep, hput, putField_eq_self hlookup]
        rfl
      · rw [hnull]
        exact hput
    | unset =>
      cases hchange
      exact edit_content_remove hname hnames hlookup hcut
  kept {path value} hnone := by
    have hhere : ∀ child, Content.holdsAt cut.keys [] child = false →
        cut.here child = some child := by
      intro child hchild
      rw [Cut.here, hinner, hchild]
      rfl
    refine Content.edit_eq_some_self hhere ?_
    rw [List.append_nil]
    exact hnone

/-- Where the names fit, an element is pulled exactly if its content holds a key. -/
theorem pulls_of_fits {inner : List String} (hinner : AreNames inner) {keys : List Json}
    (hkeys : ∀ key ∈ keys, key.isScalar) {item : Json} (hfits : item.fits inner) :
    pulls (pullCondition inner keys) item = .ok (item.content.holdsAt keys inner) := by
  rw [pulls_pullCondition hinner, Filter.anyAmong_eq_holdsAt_names hinner hkeys hfits]
  cases inner with
  | nil => rfl
  | cons name rest =>
    have hname : name ≠ wildcard := Identifier.ne_wildcard (hinner name List.mem_cons_self)
    obtain ⟨fields, rfl, -⟩ := (fits_name_iff hname).1 hfits
    rfl

theorem unpulled_eq_filter {condition : Json} {items : List Json} {pulled : Json → Bool}
    (h : ∀ item ∈ items, pulls condition item = .ok (pulled item)) :
    unpulled condition items = .ok (items.filter fun item => !pulled item) := by
  induction items with
  | nil => rfl
  | cons item rest ih =>
    obtain ⟨hfirst, hrest⟩ := List.forall_mem_cons.1 h
    rw [unpulled, hfirst, ih hrest, List.filter_cons]
    cases pulled item <;> rfl

/-- Pulling from an array leaves the elements that a cut of the elements leaves. -/
theorem pullFrom_eq (hleft : cut.left = none) (hinner : AreNames cut.inner)
    (hkeys : ∀ key ∈ cut.keys, key.isScalar) {items : List Json}
    (hitems : ∀ item ∈ items, item.fits cut.inner) :
    ∃ kept, (Json.array items).content.edit cut.here [wildcard] = some (Json.array kept).content ∧
      (pullFrom (pullCondition cut.inner cut.keys) (.array items) = .ok .keep ∧ kept = items ∨
        pullFrom (pullCondition cut.inner cut.keys) (.array items) = .ok (.put (.array kept))) := by
  have hunpulled := unpulled_eq_filter fun item hitem =>
    pulls_of_fits hinner hkeys (hitems item hitem)
  refine ⟨items.filter fun item => !item.content.holdsAt cut.keys cut.inner, ?_, ?_⟩
  · rw [content_array, content_array, Content.edit_wildcard_array, List.filterMap_map]
    change some (Content.array (items.filterMap fun item => cut.here item.content)) = _
    simp only [Cut.here, hleft, ← List.filterMap_eq_map, List.filterMap_filter]
    refine congrArg (fun items => some (Content.array items)) (List.filterMap_congr fun item _ => ?_)
    cases item.content.holdsAt cut.keys cut.inner <;> rfl
  · rw [pullFrom, hunpulled, ok_bind]
    split
    case isTrue hlength => exact .inl ⟨rfl, List.filter_sublist.eq_of_length hlength⟩
    case isFalse => exact .inr rfl

theorem edit_pulled_segment (hleft : cut.left = none) (hinner : AreNames cut.inner)
    (hkeys : ∀ key ∈ cut.keys, key.isScalar) {segment : String} {mayMiss : List String → Bool}
    {value : Json} (hfits : value.fitsWhere mayMiss (segment :: wildcard :: cut.inner))
    {result : Json × Bool}
    (hupdate : updateAt arrayFilters .pull (pullCondition cut.inner cut.keys)
      [if segment = wildcard then Updater.everyElement else segment] value = .ok result) :
    value.content.edit cut.here [segment, wildcard] = some result.1.content := by
  by_cases hsegment : segment = wildcard
  case pos =>
    subst hsegment
    obtain ⟨items, rfl, hitems⟩ := fitsWhere_wildcard_iff.1 hfits
    -- an array behind the first wildcard would stand in an array
    have hnone : ∀ item ∈ items, False := by
      intro item hitem
      obtain ⟨harray, hitemFits⟩ := hitems item hitem
      obtain ⟨_, rfl, -⟩ := fitsWhere_wildcard_iff.1 hitemFits
      cases harray
    cases step_of_updateAt hupdate with
    | other _ harray => cases harray
    | elements hchosen hupdated =>
      exact (follows_edit cut.here).elements hchosen hupdated
        (fun item hitem => (hnone item hitem).elim) fun item hitem => (hnone item hitem).elim
  case neg =>
    obtain ⟨fields, rfl, hchild, -⟩ := (fitsWhere_name_iff hsegment).1 hfits
    rw [if_neg hsegment] at hupdate
    cases step_of_updateAt hupdate with
    | child hrest => exact absurd rfl hrest
    | created hrest => exact absurd rfl hrest
    | missing hlookup => exact edit_content_missing hsegment hlookup
    | other hobject => cases hobject
    | last _ hchange =>
      cases hlookup : lookupName segment fields with
      | none =>
        rw [hlookup] at hchange
        cases hchange
        exact edit_content_missing hsegment hlookup
      | some child =>
        obtain ⟨items, rfl, hitems⟩ := fitsWhere_wildcard_iff.1 (hchild child hlookup)
        obtain ⟨kept, hkept, hpull⟩ := pullFrom_eq hleft hinner hkeys fun item hitem =>
          fits_of_fitsWhere (hitems item hitem).2
        have hput := edit_content_put hsegment hlookup hkept
        rw [hlookup] at hchange
        obtain ⟨hkeep, rfl⟩ | hchanged := hpull
        · cases hkeep.symm.trans hchange
          rw [hput, putField_eq_self hlookup]
          rfl
        · cases hchanged.symm.trans hchange
          exact hput

end Update

end LinkedDocs
