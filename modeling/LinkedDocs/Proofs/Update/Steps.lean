import LinkedDocs.Proofs.Outcome
import LinkedDocs.Update

namespace LinkedDocs.Update

variable {arrayFilters : List Json} {operator : UpdateOperator} {argument : Json}

theorem exists_put_of_pushOnto {target : Json} {change : Change}
    (h : pushOnto argument target = .ok change) :
    ∃ items added, target = .array items ∧ pushed argument = .ok added ∧
      change = .put (.array (items ++ added)) := by
  unfold pushOnto at h
  split at h
  case h_1 items =>
    obtain ⟨added, hadded, h⟩ := bind_eq_ok_iff.1 h
    cases h
    exact ⟨items, added, rfl, hadded, rfl⟩
  case h_2 => cases h

theorem forall₂_of_mapM {ε α β : Type} {look : α → Except ε β} {items : List α} {found : List β}
    (h : items.mapM look = .ok found) :
    List.Forall₂ (fun item value => look item = .ok value) items found := by
  induction items generalizing found with
  | nil =>
    cases h
    exact .nil
  | cons item rest ih =>
    rw [List.mapM_cons] at h
    obtain ⟨value, hvalue, h⟩ := bind_eq_ok_iff.1 h
    obtain ⟨others, hothers, h⟩ := bind_eq_ok_iff.1 h
    cases h
    exact .cons hvalue (ih hothers)

theorem updateItems_cons (step : Json → Except QueryFault (Json × Bool)) (item : Json)
    (items : List Json) (flag : Bool) (chosen : List Bool) :
    updateItems step (item :: items) (flag :: chosen) =
      (if flag then step item else .ok (item, false)) >>= fun first =>
        updateItems step items chosen >>= fun rest =>
          .ok (first.1 :: rest.1, first.2 || rest.2) := by
  cases flag <;> rfl

/-- Each element after a step is the one before it in its place, either as it was or as the step
made it. -/
theorem forall₂_updateItems {step : Json → Except QueryFault (Json × Bool)}
    {items others : List Json} {chosen : List Bool} {changed : Bool} {selects : Json → Bool → Prop}
    (hchosen : List.Forall₂ selects items chosen)
    (h : updateItems step items chosen = .ok (others, changed)) :
    List.Forall₂ (fun item other => (selects item false ∧ other = item) ∨
      (selects item true ∧ ∃ changed, step item = .ok (other, changed))) items others := by
  induction hchosen generalizing others changed with
  | nil =>
    cases h
    exact .nil
  | @cons item flag items chosen hflag _ ih =>
    rw [updateItems_cons] at h
    obtain ⟨⟨first, changedFirst⟩, hfirst, h⟩ := bind_eq_ok_iff.1 h
    obtain ⟨⟨rest, changedRest⟩, hrest, h⟩ := bind_eq_ok_iff.1 h
    cases h
    refine .cons ?_ (ih hrest)
    cases flag with
    | false =>
      cases hfirst
      exact .inl ⟨hflag, rfl⟩
    | true => exact .inr ⟨hflag, changedFirst, hfirst⟩

theorem mem_updateItems {step : Json → Except QueryFault (Json × Bool)} {items others : List Json}
    {chosen : List Bool} {changed : Bool} {selects : Json → Bool → Prop}
    (hchosen : List.Forall₂ selects items chosen)
    (h : updateItems step items chosen = .ok (others, changed)) :
    ∀ other ∈ others, ∃ item ∈ items, (selects item false ∧ other = item) ∨
      (selects item true ∧ ∃ changed, step item = .ok (other, changed)) :=
  exists_of_forall₂ (forall₂_updateItems hchosen h)

theorem updateItems_unchanged {step : Json → Except QueryFault (Json × Bool)}
    {items others : List Json} {chosen : List Bool}
    (hstep : ∀ item other, step item = .ok (other, false) → other = item)
    (h : updateItems step items chosen = .ok (others, false)) : others = items := by
  induction items generalizing others chosen with
  | nil =>
    rw [updateItems.eq_def] at h
    cases h
    rfl
  | cons item items ih =>
    cases chosen with
    | nil =>
      cases h
      rfl
    | cons flag chosen =>
      rw [updateItems_cons] at h
      obtain ⟨⟨first, changedFirst⟩, hfirst, h⟩ := bind_eq_ok_iff.1 h
      obtain ⟨⟨rest, changedRest⟩, hrest, h⟩ := bind_eq_ok_iff.1 h
      rw [Except.ok.injEq, Prod.mk.injEq, Bool.or_eq_false_iff] at h
      obtain ⟨rfl, rfl, rfl⟩ := h
      rw [ih hrest]
      cases flag with
      | false =>
        cases hfirst
        rfl
      | true => rw [hstep item first hfirst]

variable [Platform]

theorem pullFrom_cases {condition target : Json} {change : Change}
    (h : pullFrom condition target = .ok change) :
    ∃ items kept, target = .array items ∧ unpulled condition items = .ok kept ∧
      ((kept.length = items.length ∧ change = .keep) ∨
        (kept.length ≠ items.length ∧ change = .put (.array kept))) := by
  unfold pullFrom at h
  split at h
  case h_2 => cases h
  case h_1 items =>
    obtain ⟨kept, hkept, h⟩ := bind_eq_ok_iff.1 h
    refine ⟨items, kept, rfl, hkept, ?_⟩
    split at h
    case isTrue hlength =>
      cases h
      exact .inl ⟨hlength, rfl⟩
    case isFalse hlength =>
      cases h
      exact .inr ⟨hlength, rfl⟩

/-- What an update does to an element of an array that a segment before the others selects. -/
def elementStep (arrayFilters : List Json) (operator : UpdateOperator) (argument : Json)
    (rest : List String) (item : Json) : Except QueryFault (Json × Bool) :=
  if rest.isEmpty then do
    return elementChange item (← changeElement operator argument item)
  else updateAt arrayFilters operator argument rest item

theorem elementStep_eq_updateAt {rest : List String} (hrest : rest ≠ []) (item : Json) :
    elementStep arrayFilters operator argument rest item =
      updateAt arrayFilters operator argument rest item := by
  rw [elementStep, if_neg (by simpa using hrest)]

theorem exists_of_elementStep_nil {item : Json} {result : Json × Bool}
    (h : elementStep arrayFilters operator argument [] item = .ok result) :
    ∃ change, changeElement operator argument item = .ok change ∧
      elementChange item change = result := by
  rw [elementStep, if_pos List.isEmpty_nil] at h
  obtain ⟨change, hchange, h⟩ := bind_eq_ok_iff.1 h
  cases h
  exact ⟨change, hchange, rfl⟩

/-- What a segment of an update target says about whether it selects an element. -/
def Selects (arrayFilters : List Json) (segment : String) (item : Json) (chosen : Bool) : Prop :=
  match Positional.ofSegment? segment with
  | some .everyElement => chosen = true
  | some (.bound identifier) => selected identifier item false arrayFilters = .ok chosen
  | some (.element _) => True
  | none => False

/-- What a first segment of an update target does to a value. -/
inductive Step (arrayFilters : List Json) (operator : UpdateOperator) (argument : Json)
    (segment : String) (rest : List String) : Json → Json × Bool → Prop
  | last {fields : List (String × Json)} {change : Change} (hrest : rest = [])
      (hchange : changeField operator argument (lookupName segment fields) = .ok change) :
      Step arrayFilters operator argument segment rest (.object fields)
        (putChange segment fields change)
  | child {fields : List (String × Json)} {child updated : Json} {changed : Bool}
      (hrest : rest ≠ []) (hlookup : lookupName segment fields = some child)
      (hchild : updateAt arrayFilters operator argument rest child = .ok (updated, changed)) :
      Step arrayFilters operator argument segment rest (.object fields)
        (.object (putField segment updated fields), changed)
  | created {fields : List (String × Json)} {updated : Json} {changed : Bool} (hrest : rest ≠ [])
      (hlookup : lookupName segment fields = none) (hcreates : operator.creates)
      (hchild : updateAt arrayFilters operator argument rest (.object []) = .ok (updated, changed)) :
      Step arrayFilters operator argument segment rest (.object fields)
        (.object (putField segment updated fields), changed)
  | missing {fields : List (String × Json)} (hlookup : lookupName segment fields = none)
      (hcreates : operator.creates = false) :
      Step arrayFilters operator argument segment rest (.object fields) (.object fields, false)
  | elements {items others : List Json} {chosen : List Bool} {changed : Bool}
      (hchosen : List.Forall₂ (Selects arrayFilters segment) items chosen)
      (hitems : updateItems (elementStep arrayFilters operator argument rest) items chosen =
        .ok (others, changed)) :
      Step arrayFilters operator argument segment rest (.array items) (.array others, changed)
  | other {value : Json} (hobject : value.isObject = false) (harray : value.isArray = false) :
      Step arrayFilters operator argument segment rest value (value, false)

theorem forall₂_selection {segment : String} {items : List Json} {chosen : List Bool}
    (h : selection arrayFilters segment items = .ok chosen) :
    List.Forall₂ (Selects arrayFilters segment) items chosen := by
  unfold selection at h
  unfold Selects
  cases hsegment : Positional.ofSegment? segment with
  | none =>
    rw [hsegment] at h
    cases h
  | some positional =>
    rw [hsegment] at h
    cases positional with
    | everyElement =>
      cases h
      rw [List.forall₂_map_right_iff, List.forall₂_same]
      exact fun _ _ => rfl
    | bound identifier => exact forall₂_of_mapM h
    | element position =>
      cases h
      rw [List.forall₂_iff_get]
      exact ⟨by simp, fun _ _ _ => trivial⟩

theorem step_of_updateAt {segment : String} {rest : List String} {value : Json}
    {result : Json × Bool}
    (h : updateAt arrayFilters operator argument (segment :: rest) value = .ok result) :
    Step arrayFilters operator argument segment rest value result := by
  unfold updateAt at h
  dsimp only at h
  cases value with
  | object fields =>
    dsimp only at h
    split at h
    case isTrue hrest =>
      obtain ⟨change, hchange, h⟩ := bind_eq_ok_iff.1 h
      cases h
      exact .last (List.isEmpty_iff.1 hrest) hchange
    case isFalse hrest =>
      have hne : rest ≠ [] := fun hnil => hrest (List.isEmpty_iff.2 hnil)
      split at h
      case h_1 child hlookup =>
        obtain ⟨⟨updated, changed⟩, hchild, h⟩ := bind_eq_ok_iff.1 h
        cases h
        exact .child hne hlookup hchild
      case h_2 hlookup =>
        split at h
        case isTrue hcreates =>
          obtain ⟨⟨updated, changed⟩, hchild, h⟩ := bind_eq_ok_iff.1 h
          cases h
          exact .created hne hlookup hcreates hchild
        case isFalse hcreates =>
          cases h
          exact .missing hlookup (Bool.eq_false_iff.2 hcreates)
  | array items =>
    obtain ⟨chosen, hchosen, h⟩ := bind_eq_ok_iff.1 h
    obtain ⟨⟨others, changed⟩, hitems, h⟩ := bind_eq_ok_iff.1 h
    cases h
    exact .elements (forall₂_selection hchosen) hitems
  | _ =>
    cases h
    exact .other rfl rfl

/-- What stays true of a document and the flag under each operator at each target. -/
def KeptAtTargets (arrayFilters : List Json) (holds : Json → Bool → Prop) : Prop :=
  ∀ ⦃operator argument path document before updated changed⦄, holds document before →
    updateAt arrayFilters operator argument path document = .ok (updated, changed) →
      holds updated (before || changed)

section

variable {holds : Json → Bool → Prop} {document updated : Json} {before changed : Bool}

theorem KeptAtTargets.applyPaths (h : KeptAtTargets arrayFilters holds) {name : String}
    {paths : List (String × Json)} (hbefore : holds document before)
    (hupdate : applyPaths arrayFilters name document before paths = .ok (updated, changed)) :
    holds updated changed := by
  induction paths generalizing document before with
  | nil =>
    cases hupdate
    exact hbefore
  | cons first rest ih =>
    obtain ⟨path, argument⟩ := first
    rw [Update.applyPaths] at hupdate
    split at hupdate
    case h_1 => cases hupdate
    case h_2 operator _ =>
      obtain ⟨⟨middle, changedHere⟩, hmiddle, hupdate⟩ := bind_eq_ok_iff.1 hupdate
      exact ih (h hbefore hmiddle) hupdate

theorem KeptAtTargets.applyOperators (h : KeptAtTargets arrayFilters holds)
    {operators : List (String × Json)} (hbefore : holds document before)
    (hupdate : applyOperators arrayFilters document before operators = .ok (updated, changed)) :
    holds updated changed := by
  induction operators generalizing document before with
  | nil =>
    cases hupdate
    exact hbefore
  | cons first rest ih =>
    obtain ⟨name, argument⟩ := first
    cases argument with
    | object paths =>
      rw [Update.applyOperators] at hupdate
      obtain ⟨⟨middle, changedHere⟩, hmiddle, hupdate⟩ := bind_eq_ok_iff.1 hupdate
      exact ih (h.applyPaths hbefore hmiddle) hupdate
    | _ => cases hupdate

theorem KeptAtTargets.apply (h : KeptAtTargets arrayFilters holds) {update : Json}
    (hbefore : holds document false)
    (hupdate : apply update arrayFilters document = .ok (updated, changed)) :
    holds updated changed := by
  cases update with
  | object operators => exact h.applyOperators hbefore hupdate
  | _ => cases hupdate

end

theorem apply_single (operator : UpdateOperator) (target : String) (argument document : Json)
    (arrayFilters : List Json) :
    apply (.single operator.name (.single target argument)) arrayFilters document =
      updateAt arrayFilters operator argument (splitPath target) document := by
  have hoperator : UpdateOperator.ofName? operator.name = some operator := by
    cases operator <;> decide
  simp only [apply, Json.single, applyOperators, applyPaths, hoperator]
  cases updateAt arrayFilters operator argument (splitPath target) document with
  | error fault => rfl
  | ok result => rfl

end LinkedDocs.Update
