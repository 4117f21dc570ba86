import LinkedDocs.Platform.Native
import LinkedDocs.Proofs.Json.Identical
import LinkedDocs.Proofs.Update.Steps

/-!
What the flag of an update tells. An update that reports no change has made none, whatever its
operators and targets are. One operator at one target that reports a change has made one, unless it
pushes the elements of an empty list, of which there are none.
-/

namespace LinkedDocs.Update

open Json

variable {arrayFilters : List Json} {operator : UpdateOperator} {argument : Json}

section

/-- Among the elements after a step that reports a change is one that differs from the one
before. -/
theorem not_identical_updateItems {step : Json → Except QueryFault (Json × Bool)}
    {items others : List Json} {chosen : List Bool}
    (hstep : ∀ item other, step item = .ok (other, true) → item.identical other = false)
    (h : updateItems step items chosen = .ok (others, true)) :
    (array items).identical (array others) = false := by
  rw [identical]
  induction items generalizing others chosen with
  | nil =>
    rw [updateItems.eq_def] at h
    cases h
  | cons item items ih =>
    cases chosen with
    | nil => cases h
    | cons flag chosen =>
      rw [updateItems_cons] at h
      obtain ⟨⟨first, changedFirst⟩, hfirst, h⟩ := bind_eq_ok_iff.1 h
      obtain ⟨⟨rest, changedRest⟩, hrest, h⟩ := bind_eq_ok_iff.1 h
      rw [Except.ok.injEq, Prod.mk.injEq, Bool.or_eq_true] at h
      obtain ⟨rfl, hchanged⟩ := h
      rw [identicalItems, Bool.and_eq_false_iff]
      rcases hchanged with rfl | rfl
      · refine .inl (hstep item first ?_)
        cases flag with
        | false => cases hfirst
        | true => exact hfirst
      · exact .inr (ih hrest)

variable [Platform]

/-- A field that is missing is created or it stays missing. -/
theorem changeField_none_cases {change : Change}
    (h : changeField operator argument none = .ok change) :
    (operator.creates ∧ ∃ value, change = .put value) ∨
      (operator.creates = false ∧ change = .keep) := by
  cases operator with
  | set =>
    cases h
    exact .inl ⟨rfl, argument, rfl⟩
  | push =>
    have hpush : pushOnto argument (.array []) = .ok change := h
    obtain ⟨_, _, -, -, hput⟩ := exists_put_of_pushOnto hpush
    exact .inl ⟨rfl, _, hput⟩
  | unset | pull =>
    cases h
    exact .inr ⟨rfl, rfl⟩

/-- An operator that creates what is missing changes an empty object, at whatever depth. -/
theorem changed_of_creates (hcreates : operator.creates) {path : List String} (hne : path ≠ [])
    {result : Json × Bool}
    (hupdate : updateAt arrayFilters operator argument path (.object []) = .ok result) :
    result.2 = true := by
  induction path generalizing result with
  | nil => exact absurd rfl hne
  | cons segment rest ih =>
    cases step_of_updateAt hupdate with
    | last _ hchange =>
      rcases changeField_none_cases hchange with ⟨-, value, rfl⟩ | ⟨hnot, -⟩
      · rfl
      · rw [hcreates] at hnot
        cases hnot
    | child _ hlookup => cases hlookup
    | created hrest _ _ hchild =>
      have hchanged := ih hrest hchild
      exact hchanged
    | missing _ hnot =>
      rw [hcreates] at hnot
      cases hnot
    | other hobject => cases hobject

theorem eq_of_elementStep_unchanged {rest : List String} {item other : Json}
    (hrest : ∀ {result}, updateAt arrayFilters operator argument rest item = .ok result →
      result.2 = false → result.1 = item)
    (hstep : elementStep arrayFilters operator argument rest item = .ok (other, false)) :
    other = item := by
  by_cases hnil : rest = []
  · subst hnil
    obtain ⟨change, -, hother⟩ := exists_of_elementStep_nil hstep
    cases change with
    | keep => exact (congrArg Prod.fst hother).symm
    | put => cases hother
    | remove => cases hother
  · rw [elementStep_eq_updateAt hnil] at hstep
    exact hrest hstep rfl

/-- An operator that reports no change at a target has made none. -/
theorem eq_of_updateAt_unchanged {path : List String} {value : Json} {result : Json × Bool}
    (hupdate : updateAt arrayFilters operator argument path value = .ok result)
    (hunchanged : result.2 = false) : result.1 = value := by
  induction path generalizing value result with
  | nil =>
    cases hupdate
    rfl
  | cons segment rest ih =>
    cases step_of_updateAt hupdate with
    | @last fields change =>
      cases change with
      | keep => rfl
      | put => cases hunchanged
      | remove => cases hunchanged
    | child _ hlookup hchild =>
      rw [← ih hchild hunchanged] at hlookup
      rw [putField_eq_self hlookup]
    | created hrest _ hcreates hchild =>
      have hchanged := changed_of_creates hcreates hrest hchild
      rw [hunchanged] at hchanged
      cases hchanged
    | missing => rfl
    | elements _ hitems =>
      change (_ : Bool) = false at hunchanged
      subst hunchanged
      rw [updateItems_unchanged (fun item other hstep => ?_) hitems]
      exact eq_of_elementStep_unchanged (fun hchild => ih hchild) hstep
    | other => rfl

/-- An update that reports no change has made none. -/
theorem eq_of_apply_unchanged {update document updated : Json}
    (h : apply update arrayFilters document = .ok (updated, false)) : updated = document := by
  have hkept : KeptAtTargets arrayFilters fun current changed =>
      changed = false → current = document := by
    intro operator argument path current before next changed hbefore hnext hflags
    rw [Bool.or_eq_false_iff] at hflags
    rw [← hbefore hflags.1]
    exact eq_of_updateAt_unchanged hnext hflags.2
  exact hkept.apply (fun _ => rfl) h rfl

/-- Whether an operator adds an element where it pushes. -/
def AddsElements (operator : UpdateOperator) (argument : Json) : Prop :=
  operator = .push → argument.field? "$each" ≠ some (.array [])

omit [Platform] in
theorem AddsElements.pushed_ne_nil (h : AddsElements .push argument) : pushed argument ≠ .ok [] := by
  intro hpushed
  unfold pushed at hpushed
  split at hpushed
  case h_1 items heach =>
    cases hpushed
    exact h rfl heach
  case h_2 => cases hpushed
  case h_3 => cases hpushed

/-- A change that tells the truth about a value: it keeps it, or puts one in its place that is not
identical. -/
inductive Change.Exact (current : Json) : Change → Prop
  | keep : Exact current .keep
  | put {value : Json} (hdiffers : current.identical value = false) : Exact current (.put value)

omit [Platform] in
theorem exact_setTo (argument current : Json) : (setTo argument current).Exact current := by
  unfold setTo
  split
  case isTrue => exact .keep
  case isFalse hdiffers => exact .put (Bool.eq_false_iff.2 hdiffers)

theorem exact_pullFrom {current : Json} {change : Change}
    (h : pullFrom argument current = .ok change) : change.Exact current := by
  obtain ⟨items, kept, rfl, -, ⟨-, rfl⟩ | ⟨hlength, rfl⟩⟩ := pullFrom_cases h
  · exact .keep
  · exact .put (Bool.eq_false_iff.2 fun hsame => hlength (length_eq_of_identical hsame).symm)

omit [Platform] in
theorem exact_pushOnto (hadds : AddsElements .push argument) {current : Json} {change : Change}
    (h : pushOnto argument current = .ok change) : change.Exact current := by
  obtain ⟨items, added, rfl, hadded, rfl⟩ := exists_put_of_pushOnto h
  refine .put (Bool.eq_false_iff.2 fun hsame => hadds.pushed_ne_nil ?_)
  have hlength := length_eq_of_identical hsame
  rw [List.length_append] at hlength
  rw [hadded, List.length_eq_zero_iff.1 (by omega : added.length = 0)]

theorem exact_changeElement (hadds : AddsElements operator argument) {item : Json} {change : Change}
    (h : changeElement operator argument item = .ok change) : change.Exact item := by
  cases operator with
  | set | unset =>
    cases h
    exact exact_setTo _ item
  | pull => exact exact_pullFrom h
  | push => exact exact_pushOnto hadds h

theorem exact_changeField (hadds : AddsElements operator argument) {current : Json}
    {change : Change} (h : changeField operator argument (some current) = .ok change) :
    change = .remove ∨ change.Exact current := by
  cases operator with
  | set =>
    cases h
    exact .inr (exact_setTo argument current)
  | unset =>
    cases h
    exact .inl rfl
  | pull => exact .inr (exact_pullFrom h)
  | push => exact .inr (exact_pushOnto hadds h)

theorem not_identical_elementChange (hadds : AddsElements operator argument) {item : Json}
    {change : Change} (hchange : changeElement operator argument item = .ok change)
    (hchanged : (elementChange item change).2 = true) :
    item.identical (elementChange item change).1 = false := by
  cases exact_changeElement hadds hchange with
  | keep => cases hchanged
  | put hdiffers => exact hdiffers

theorem not_identical_putChange (hadds : AddsElements operator argument) {name : String}
    {fields : List (String × Json)} {change : Change}
    (hchange : changeField operator argument (lookupName name fields) = .ok change)
    (hchanged : (putChange name fields change).2 = true) :
    (object fields).identical (putChange name fields change).1 = false := by
  cases hlookup : lookupName name fields with
  | none =>
    rw [hlookup] at hchange
    rcases changeField_none_cases hchange with ⟨-, value, rfl⟩ | ⟨-, rfl⟩
    · exact not_identical_addField value hlookup
    · cases hchanged
  | some current =>
    rw [hlookup] at hchange
    rcases exact_changeField hadds hchange with rfl | hexact
    · exact not_identical_removeField hlookup
    · cases hexact with
      | keep => cases hchanged
      | put hdiffers => exact not_identical_putField hlookup hdiffers

theorem not_identical_elementStep (hadds : AddsElements operator argument) {rest : List String}
    {item other : Json}
    (hrest : ∀ {result}, updateAt arrayFilters operator argument rest item = .ok result →
      result.2 = true → item.identical result.1 = false)
    (hstep : elementStep arrayFilters operator argument rest item = .ok (other, true)) :
    item.identical other = false := by
  by_cases hnil : rest = []
  · subst hnil
    obtain ⟨change, hchange, hother⟩ := exists_of_elementStep_nil hstep
    have hdiffers := not_identical_elementChange hadds hchange (by rw [hother])
    rwa [hother] at hdiffers
  · rw [elementStep_eq_updateAt hnil] at hstep
    exact hrest hstep rfl

/-- An operator that reports a change at a target has made one. -/
theorem not_identical_of_updateAt_changed (hadds : AddsElements operator argument)
    {path : List String} {value : Json} {result : Json × Bool}
    (hupdate : updateAt arrayFilters operator argument path value = .ok result)
    (hchanged : result.2 = true) : value.identical result.1 = false := by
  induction path generalizing value result with
  | nil =>
    cases hupdate
    cases hchanged
  | cons segment rest ih =>
    cases step_of_updateAt hupdate with
    | last _ hchange => exact not_identical_putChange hadds hchange hchanged
    | child _ hlookup hchild => exact not_identical_putField hlookup (ih hchild hchanged)
    | created _ hlookup => exact not_identical_addField _ hlookup
    | missing => cases hchanged
    | elements _ hitems =>
      change (_ : Bool) = true at hchanged
      subst hchanged
      refine not_identical_updateItems (fun item other hstep => ?_) hitems
      exact not_identical_elementStep hadds (fun hchild => ih hchild) hstep
    | other => cases hchanged

/-- The flag of one operator at one target is exact: it is unset only if the document is as it was,
and, unless an empty list is pushed, it is set exactly when the document is not identical to the one
before. -/
theorem changed_iff_not_identical_of_apply {path : String} {document updated : Json}
    {changed : Bool} (hnames : document.namesOnce)
    (h : apply (.single operator.name (.single path argument)) arrayFilters document =
      .ok (updated, changed)) :
    (changed = false → updated = document) ∧
      (AddsElements operator argument →
        (changed = true ↔ document.identical updated = false)) := by
  have hunchanged : changed = false → updated = document := by
    rintro rfl
    exact eq_of_apply_unchanged h
  refine ⟨hunchanged, fun hadds => ⟨fun hchanged => ?_, fun hdiffers => ?_⟩⟩
  · rw [apply_single] at h
    exact not_identical_of_updateAt_changed hadds h hchanged
  · by_contra hfalse
    rw [hunchanged (Bool.eq_false_iff.2 hfalse), identical_refl document hnames] at hdiffers
    cases hdiffers

end

def taggedRows : Json :=
  .object [("rows", .array [.object [("tags", .array [.string "a"])], .object []])]

theorem not_identical_taggedRows : ∃ updated,
    apply (.single "$push" (.single "rows.$[].tags" (.single "$each" (.array [.string "b"]))))
      [] taggedRows = .ok (updated, true) ∧ taggedRows.identical updated = false := by
  have hnames : taggedRows.namesOnce := by decide
  have hadds : AddsElements .push (.single "$each" (.array [.string "b"])) := by
    rintro - ⟨⟩
  have happly : apply (.single UpdateOperator.push.name
      (.single "rows.$[].tags" (.single "$each" (.array [.string "b"])))) [] taggedRows =
        .ok (.object [("rows", .array [.object [("tags", .array [.string "a", .string "b"])],
          .object [("tags", .array [.string "b"])]])], true) := by rfl
  exact ⟨_, happly, ((changed_iff_not_identical_of_apply hnames happly).2 hadds).1 rfl⟩

/-- Pushing the elements of an empty list reports a change, and there is none. -/
theorem identical_of_push_nothing : ∃ updated,
    apply (.single "$push" (.single "rows.0.tags" (.single "$each" (.array [])))) [] taggedRows =
      .ok (updated, true) ∧ taggedRows.identical updated = true :=
  ⟨taggedRows, by rfl, by decide⟩

end LinkedDocs.Update
