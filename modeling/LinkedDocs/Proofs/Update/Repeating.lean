import LinkedDocs.Platform.Native
import LinkedDocs.Proofs.Update.Changing
import LinkedDocs.Proofs.Update.Erasing

/-!
Repeated updates. An operator that sets, unsets or pulls finds nothing to do where it has been before:
a field or element that it has changed is as it wants it, and an element of an array that it has not
changed is selected the second time exactly if it was selected the first time.
-/

namespace LinkedDocs.Update

open Json

variable {arrayFilters : List Json} {operator : UpdateOperator} {argument : Json}

theorem setTo_self (hnames : argument.namesOnce) : setTo argument argument = .keep := by
  rw [setTo, if_pos (identical_refl argument hnames)]

/-- A value that was set is not set again. -/
theorem setTo_elementChange (hnames : argument.namesOnce) (current : Json) :
    setTo argument (elementChange current (setTo argument current)).1 = .keep := by
  by_cases hsame : current.identical argument
  · have hkeep : setTo argument current = .keep := if_pos hsame
    rw [hkeep, elementChange, hkeep]
  · have hput : setTo argument current = .put argument := if_neg hsame
    rw [hput, elementChange, setTo_self hnames]

section

variable [Platform]

theorem unpulled_eq_self {condition : Json} {items : List Json}
    (h : ∀ item ∈ items, pulls condition item = .ok false) : unpulled condition items = .ok items := by
  induction items with
  | nil => rfl
  | cons item rest ih =>
    obtain ⟨hitem, hrest⟩ := List.forall_mem_cons.1 h
    rw [unpulled, hitem, ok_bind, ih hrest]
    rfl

/-- What was kept when elements were pulled is kept again. -/
theorem pullFrom_elementChange {condition current : Json} {change : Change}
    (h : pullFrom condition current = .ok change) :
    pullFrom condition (elementChange current change).1 = .ok .keep := by
  obtain ⟨_, kept, -, -, hnone, hafter, -⟩ := elementChange_pullFrom h
  rw [hafter, pullFrom, unpulled_eq_self hnone, ok_bind, if_pos rfl]
  rfl

/-- An element that an operator has changed is as the operator wants it. -/
theorem changeElement_again (hoperator : operator ≠ .push) (hnames : argument.namesOnce)
    {item : Json} {change : Change} (h : changeElement operator argument item = .ok change) :
    changeElement operator argument (elementChange item change).1 = .ok .keep := by
  cases operator with
  | set =>
    cases h
    exact congrArg _ (setTo_elementChange hnames item)
  | unset =>
    cases h
    exact congrArg _ (setTo_elementChange rfl item)
  | pull => exact pullFrom_elementChange h
  | push => exact absurd rfl hoperator

/-- What stands in a field after a change to it. -/
def Change.fieldAfter (current : Option Json) : Change → Option Json
  | .keep => current
  | .put value => some value
  | .remove => none

omit [Platform] in
theorem fieldAfter_some {change : Change} (hremove : change ≠ .remove) (current : Json) :
    change.fieldAfter (some current) = some (elementChange current change).1 := by
  cases change with
  | keep => rfl
  | put value => rfl
  | remove => exact absurd rfl hremove

/-- A field that an operator has changed is as the operator wants it. -/
theorem changeField_again (hoperator : operator ≠ .push) (hnames : argument.namesOnce)
    {current : Option Json} {change : Change}
    (h : changeField operator argument current = .ok change) :
    changeField operator argument (change.fieldAfter current) = .ok .keep := by
  cases operator with
  | set =>
    cases current with
    | none =>
      cases h
      exact congrArg _ (setTo_self hnames)
    | some current =>
      cases h
      have hremove : setTo argument current ≠ .remove := by
        unfold setTo
        split <;> exact Change.noConfusion
      rw [fieldAfter_some hremove]
      exact congrArg _ (setTo_elementChange hnames current)
  | unset => cases current <;> cases h <;> rfl
  | pull =>
    cases current with
    | none =>
      cases h
      rfl
    | some current =>
      have hremove : change ≠ .remove := by
        rintro rfl
        obtain ⟨_, _, -, -, -, -, hkeep | hput⟩ := elementChange_pullFrom h
        · cases hkeep
        · cases hput
      rw [fieldAfter_some hremove]
      exact pullFrom_elementChange h
  | push => exact absurd rfl hoperator

theorem present_of_changeField_remove {current : Option Json}
    (h : changeField operator argument current = .ok .remove) : current ≠ none := by
  rintro rfl
  rcases changeField_none_cases h with ⟨-, _, hput⟩ | ⟨-, hkeep⟩
  · cases hput
  · cases hkeep

/-- The fields after a change to one of them. -/
theorem exists_putChange {name : String} {fields : List (String × Json)}
    (hnames : (Json.object fields).namesOnce) {change : Change}
    (hchange : changeField operator argument (lookupName name fields) = .ok change) :
    ∃ others, (putChange name fields change).1 = .object others ∧
      lookupName name others = change.fieldAfter (lookupName name fields) := by
  cases change with
  | keep => exact ⟨fields, rfl, rfl⟩
  | put value => exact ⟨putField name value fields, rfl, by rw [lookupName_putField, if_pos rfl]; rfl⟩
  | remove =>
    refine ⟨removeField name fields, rfl, ?_⟩
    have hpresent := mem_names_of_lookupName (present_of_changeField_remove hchange)
    rw [lookupName_removeField (namesOnce_object_iff.1 hnames).1 hpresent, if_pos rfl]
    rfl

theorem exists_of_updateAt_array {segment : String} {rest : List String} {items : List Json}
    {result : Json × Bool}
    (h : updateAt arrayFilters operator argument (segment :: rest) (.array items) = .ok result) :
    ∃ chosen others changed, selection arrayFilters segment items = .ok chosen ∧
      updateItems (elementStep arrayFilters operator argument rest) items chosen =
        .ok (others, changed) ∧
      result = (.array others, changed) := by
  rw [updateAt] at h
  obtain ⟨chosen, hchosen, h⟩ := bind_eq_ok_iff.1 h
  obtain ⟨⟨others, changed⟩, hitems, h⟩ := bind_eq_ok_iff.1 h
  cases h
  exact ⟨chosen, others, changed, hchosen, hitems, rfl⟩

/-- Whether elements that two lists have in the same place are chosen from both or from neither. -/
def ChosenAlike (items others : List Json) (chosen again : List Bool) : Prop :=
  ∀ (position : Nat) (item : Json), items[position]? = some item →
    others[position]? = some item → again[position]? = chosen[position]?

omit [Platform] in
theorem ChosenAlike.tail {item other : Json} {items others : List Json} {flag flagAgain : Bool}
    {chosen again : List Bool}
    (h : ChosenAlike (item :: items) (other :: others) (flag :: chosen) (flagAgain :: again)) :
    ChosenAlike items others chosen again :=
  fun position => h (position + 1)

/-- Whether an element is selected depends on the element and on its place only. -/
theorem chosenAlike_selection {segment : String} {items others : List Json}
    {chosen again : List Bool} (hchosen : selection arrayFilters segment items = .ok chosen)
    (hagain : selection arrayFilters segment others = .ok again) :
    ChosenAlike items others chosen again := by
  intro position item hitem hother
  unfold selection at hchosen hagain
  cases hsegment : Positional.ofSegment? segment with
  | none =>
    rw [hsegment] at hchosen
    cases hchosen
  | some positional =>
    rw [hsegment] at hchosen hagain
    cases positional with
    | everyElement =>
      cases hchosen
      cases hagain
      rw [List.getElem?_map, List.getElem?_map, hitem, hother]
    | bound identifier =>
      have hlook {items : List Json} {chosen : List Bool} (hitem : items[position]? = some item)
          (hchosen : items.mapM (fun item => selected identifier item false arrayFilters) =
            .ok chosen) :
          ∃ flag, chosen[position]? = some flag ∧
            selected identifier item false arrayFilters = .ok flag := by
        obtain ⟨hlength, hselected⟩ := List.forall₂_iff_get.1 (forall₂_of_mapM hchosen)
        obtain ⟨hposition, rfl⟩ := List.getElem?_eq_some_iff.1 hitem
        exact ⟨_, List.getElem?_eq_getElem (hlength ▸ hposition), hselected position hposition _⟩
      obtain ⟨flag, hflag, hselected⟩ := hlook hitem hchosen
      obtain ⟨other, hotherFlag, hotherSelected⟩ := hlook hother hagain
      rw [hselected] at hotherSelected
      cases hotherSelected
      rw [hflag, hotherFlag]
    | element index =>
      cases hchosen
      cases hagain
      rw [List.getElem?_mapIdx, List.getElem?_mapIdx, hitem, hother]

omit [Platform] in
/-- A step that has nothing to do where it has been before changes no element the second time. -/
theorem updateItems_again {step : Json → Except QueryFault (Json × Bool)}
    {items others : List Json} {chosen chosenAgain : List Bool} {changed : Bool}
    {result : List Json × Bool}
    (hstep : ∀ item ∈ items, ∀ first second, step item = .ok first → step first.1 = .ok second →
      second.2 = false)
    (halike : ChosenAlike items others chosen chosenAgain)
    (h : updateItems step items chosen = .ok (others, changed))
    (hagain : updateItems step others chosenAgain = .ok result) : result.2 = false := by
  induction items generalizing others chosen chosenAgain changed result with
  | nil =>
    rw [updateItems.eq_def] at h
    cases h
    rw [updateItems.eq_def] at hagain
    cases hagain
    rfl
  | cons item items ih =>
    obtain ⟨hitem, hitems⟩ := List.forall_mem_cons.1 hstep
    cases chosen with
    | nil =>
      -- without a flag for the element there is none for it the second time
      cases h
      have hnone : chosenAgain[0]? = none := halike 0 item rfl rfl
      rw [List.getElem?_eq_none_iff, Nat.le_zero, List.length_eq_zero_iff] at hnone
      subst hnone
      cases hagain
      rfl
    | cons flag chosen =>
      rw [updateItems_cons] at h
      obtain ⟨⟨first, changedFirst⟩, hfirst, h⟩ := bind_eq_ok_iff.1 h
      obtain ⟨⟨rest, changedRest⟩, hrest, h⟩ := bind_eq_ok_iff.1 h
      cases h
      cases chosenAgain with
      | nil =>
        cases hagain
        rfl
      | cons flagAgain chosenAgain =>
        rw [updateItems_cons] at hagain
        obtain ⟨⟨second, changedSecond⟩, hsecond, hagain⟩ := bind_eq_ok_iff.1 hagain
        obtain ⟨⟨last, changedLast⟩, hlast, hagain⟩ := bind_eq_ok_iff.1 hagain
        cases hagain
        have hunchanged : changedLast = false := ih hitems halike.tail hrest hlast
        rw [Bool.or_eq_false_iff]
        refine ⟨?_, hunchanged⟩
        cases flagAgain with
        | false =>
          cases hsecond
          rfl
        | true =>
          cases flag with
          | true => exact hitem _ _ hfirst hsecond
          | false =>
            -- an element that was left as it was is not selected now
            cases hfirst
            cases halike 0 item rfl rfl

theorem elementStep_again (hoperator : operator ≠ .push) (hnames : argument.namesOnce)
    {rest : List String} {item : Json} {first second : Json × Bool}
    (hrest : ∀ {result again}, updateAt arrayFilters operator argument rest item = .ok result →
      updateAt arrayFilters operator argument rest result.1 = .ok again → again.2 = false)
    (h : elementStep arrayFilters operator argument rest item = .ok first)
    (hagain : elementStep arrayFilters operator argument rest first.1 = .ok second) :
    second.2 = false := by
  by_cases hnil : rest = []
  · subst hnil
    obtain ⟨change, hchange, rfl⟩ := exists_of_elementStep_nil h
    obtain ⟨changeAgain, hchangeAgain, rfl⟩ := exists_of_elementStep_nil hagain
    rw [changeElement_again hoperator hnames hchange] at hchangeAgain
    cases hchangeAgain
    rfl
  · rw [elementStep_eq_updateAt hnil] at h hagain
    exact hrest h hagain

/-- A step through a field that was just put changes nothing if none is made in the field. -/
theorem unchanged_below {segment : String} {rest : List String} (hne : rest ≠ [])
    {fields : List (String × Json)} {updated : Json} {again : Json × Bool}
    (hstep : Step arrayFilters operator argument segment rest
      (.object (putField segment updated fields)) again)
    (hbelow : ∀ {result}, updateAt arrayFilters operator argument rest updated = .ok result →
      result.2 = false) : again.2 = false := by
  have hafter : lookupName segment (putField segment updated fields) = some updated := by
    rw [lookupName_putField, if_pos rfl]
  cases hstep with
  | last hrest => exact absurd hrest hne
  | child _ hlookup hchild =>
    cases hafter.symm.trans hlookup
    have hunchanged := hbelow hchild
    exact hunchanged
  | created _ hmissing => cases hafter.symm.trans hmissing
  | missing => rfl
  | other hobject => cases hobject

/-- Where an operator has been before, it changes nothing. -/
theorem updateAt_again (hoperator : operator ≠ .push) (hargument : argument.namesOnce)
    {path : List String} {value : Json} (hnames : value.namesOnce) {result again : Json × Bool}
    (h : updateAt arrayFilters operator argument path value = .ok result)
    (hagain : updateAt arrayFilters operator argument path result.1 = .ok again) :
    again.2 = false := by
  induction path generalizing value result again with
  | nil =>
    cases hagain
    rfl
  | cons segment rest ih =>
    cases step_of_updateAt h with
    | @last fields change hrest hchange =>
      obtain ⟨others, hothers, hlookup⟩ := exists_putChange hnames hchange
      rw [hothers] at hagain
      cases step_of_updateAt hagain with
      | last _ hchangeAgain =>
        rw [hlookup, changeField_again hoperator hargument hchange] at hchangeAgain
        cases hchangeAgain
        rfl
      | child hne => exact absurd hrest hne
      | created hne => exact absurd hrest hne
      | missing => rfl
      | other hobject => cases hobject
    | child hne hlookup hchild =>
      exact unchanged_below hne (step_of_updateAt hagain) fun hchildAgain =>
        ih (namesOnce_of_lookupName hnames hlookup) hchild hchildAgain
    | created hne _ _ hchild =>
      exact unchanged_below hne (step_of_updateAt hagain) fun hchildAgain =>
        ih rfl hchild hchildAgain
    | missing =>
      -- the same update as before, and it found nothing
      cases h.symm.trans hagain
      rfl
    | elements =>
      obtain ⟨chosen, others, changed, hchosen, hitems, hresult⟩ := exists_of_updateAt_array h
      rw [hresult] at hagain
      obtain ⟨chosenAgain, last, changedAgain, hchosenAgain, hitemsAgain, rfl⟩ :=
        exists_of_updateAt_array hagain
      refine updateItems_again (fun item hitem first second hfirst hsecond => ?_)
        (chosenAlike_selection hchosen hchosenAgain) hitems hitemsAgain
      exact elementStep_again hoperator hargument
        (fun hresult hagain => ih (namesOnce_array_iff.1 hnames item hitem) hresult hagain)
        hfirst hsecond
    | other =>
      cases h.symm.trans hagain
      rfl

/-- To set, unset or pull at one target is idempotent: where it succeeds twice, the second time it
reports no change and leaves the document as the first time left it. -/
theorem apply_idempotent (hoperator : operator ≠ .push) {path : String}
    {document updated again : Json} {changed changedAgain : Bool} (hdocument : document.namesOnce)
    (hargument : argument.namesOnce)
    (h : apply (.single operator.name (.single path argument)) arrayFilters document =
      .ok (updated, changed))
    (hagain : apply (.single operator.name (.single path argument)) arrayFilters updated =
      .ok (again, changedAgain)) :
    changedAgain = false ∧ again = updated := by
  have hunchanged : changedAgain = false := by
    rw [apply_single] at h hagain
    exact updateAt_again hoperator hargument hdocument h hagain
  subst hunchanged
  exact ⟨rfl, eq_of_apply_unchanged hagain⟩

def creditedRows : Json :=
  .object [("rows", .array [.object [("books", .array [.object [("author", .string "p")],
    .object [("author", .string "q")]])], .object [("books", .array [])]])]

def uncreditedRows : Json :=
  .object [("rows", .array [.object [("books", .array [.object [],
    .object [("author", .string "q")]])], .object [("books", .array [])]])]

def uncredit (document : Json) : Except QueryFault (Json × Bool) :=
  apply (.single UpdateOperator.unset.name
    (.single "rows.$[].books.$[f].author" (.bool true)))
    [.single "f.author" (.oneOf [.string "p"])] document

end

/-- The book that loses its author is not selected any more. -/
theorem apply_idempotent_creditedRows :
    uncredit creditedRows = .ok (uncreditedRows, true) ∧
      ∃ again changed, uncredit uncreditedRows = .ok (again, changed) ∧
        changed = false ∧ again = uncreditedRows := by
  have hfirst : uncredit creditedRows = .ok (uncreditedRows, true) := by cbv
  have hsecond : uncredit uncreditedRows = .ok (uncreditedRows, false) := by cbv
  have hdocument : creditedRows.namesOnce := by decide
  exact ⟨hfirst, _, _, hsecond, apply_idempotent (by decide) hdocument rfl hfirst hsecond⟩

end LinkedDocs.Update
