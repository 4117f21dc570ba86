import LinkedDocs.Platform.Native
import LinkedDocs.Proofs.Filter.Membership
import LinkedDocs.Proofs.Json.Reaching

/-!
The operators on a field are those of Boolean algebra, however many candidates its path has: an
operator that is a union, a complement or both of others gives, on every document, what the clauses
for those give when they are joined.
-/

namespace LinkedDocs.Filter

open Json

variable {path : String} {candidates : List Candidate}

section

/-- A candidate is among the targets if it equals one of them, whichever of the two is taken
first. -/
theorem anyAmong_eq_any (candidates : List Candidate) (targets : List Json) :
    anyAmong candidates targets = targets.any (anyEquals candidates) := by
  rw [Bool.eq_iff_iff, anyAmong, List.any_eq_true, List.any_eq_true]
  simp only [anyEquals, List.any_eq_true]
  constructor
  · rintro ⟨candidate, hmem, target, htarget, h⟩
    exact ⟨target, htarget, candidate, hmem, h⟩
  · rintro ⟨target, htarget, candidate, hmem, h⟩
    exact ⟨candidate, hmem, target, htarget, h⟩

theorem any_or_any (values : List Json) (first second : Json → Bool) :
    (values.any first || values.any second) = values.any fun value => first value || second value := by
  rw [Bool.eq_iff_iff]
  simp only [Bool.or_eq_true, List.any_eq_true, and_or_left, exists_or]

/-- Scalars have the same value if neither comes before the other; a value of another kind has no
order to a scalar. -/
theorem sameValue_eq_order? {target : Json} (htarget : target.isScalar) (value : Json) :
    value.sameValue target = (value.order? target).any (· == .eq) := by
  cases target with
  | null => cases htarget
  | array items => cases htarget
  | object fields => cases htarget
  | bool flag =>
    cases value with
    | bool other => cases flag <;> cases other <;> rfl
    | _ => rfl
  | number number =>
    cases value with
    | number other =>
      rw [Bool.eq_iff_iff]
      simp [sameValue, Number.sameValue, Double.sameValue, order?, Double.order]
    | _ => rfl
  | string text =>
    cases value with
    | string other =>
      rw [Bool.eq_iff_iff]
      simp [sameValue, order?]
    | _ => rfl

variable [Platform]

theorem verdicts_over (hpath : isMarked path = false) (document : Json) (conditions : List Json) :
    verdicts document (conditions.map (.single path)) =
      conditions.mapM (holdsFor (lookup document path)) := by
  induction conditions with
  | nil => rfl
  | cons condition rest ih =>
    rw [List.map_cons, verdicts, accepts_path hpath, ih, List.mapM_cons]

theorem accepts_over (hpath : isMarked path = false) (document : Json) (connective : Connective)
    (conditions : List Json) :
    accepts document (connective.over path conditions) =
      connective.verdict <$> conditions.mapM (holdsFor (lookup document path)) := by
  rw [Connective.over, accepts_clauses, verdicts_over hpath]

theorem mapM_holdsFor_eq (candidates : List Candidate) (values : List Json) :
    (values.map Operator.eq.condition).mapM (holdsFor candidates) =
      .ok (values.map (anyEquals candidates)) := by
  induction values with
  | nil => rfl
  | cons value rest ih =>
    rw [List.map_cons, List.mapM_cons, ih, holdsFor_condition .eq rfl]
    rfl

/-- The values that an operator looks at for one candidate: an array counts as a whole and with each
of its elements. -/
def within : Candidate → List Json
  | none => []
  | some (.array items) => .array items :: items
  | some value => [value]

omit [Platform] in
theorem anyValue_eq_any (candidates : List Candidate) (test : Json → Bool) :
    anyValue candidates test = (candidates.flatMap within).any test := by
  rw [anyValue, List.any_flatMap]
  congr 1
  funext candidate
  cases candidate with
  | none => rfl
  | some value => cases value <;> simp [within]

omit [Platform] in
theorem anyEquals_eq_any (candidates : List Candidate) {target : Json}
    (hnull : target.isNull = false) :
    anyEquals candidates target =
      (candidates.flatMap within).any fun value => value.sameValue target := by
  rw [anyEquals, List.any_flatMap]
  congr 1
  funext candidate
  cases candidate with
  | none => exact hnull
  | some value => cases value <;> simp [within, equalsTarget]

omit [Platform] in
/-- Being before or after a scalar, or equal to it, on the values of all candidates. -/
theorem anyValue_or_eq {target : Json} (htarget : target.isScalar) (order : Ordering)
    (candidates : List Candidate) :
    anyValue candidates (fun value =>
        (value.order? target).any fun found => found == order || found == .eq) =
      (anyValue candidates (fun value => (value.order? target).any (· == order)) ||
        anyEquals candidates target) := by
  rw [anyValue_eq_any, anyValue_eq_any, anyEquals_eq_any _ (isNull_eq_false_of_isScalar htarget),
    any_or_any]
  congr 1
  funext value
  rw [sameValue_eq_order? htarget]
  cases value.order? target <;> rfl

section Laws

variable (hpath : isMarked path = false) (document : Json)

include hpath

theorem accepts_over_equals (connective : Connective) (values : List Json) :
    accepts document (connective.over path (values.map Operator.eq.condition)) =
      .ok (connective.verdict (values.map (anyEquals (lookup document path)))) := by
  rw [accepts_over hpath, mapM_holdsFor_eq]
  rfl

theorem accepts_isIn (values : List Json) :
    accepts document (.single path (Operator.isIn.condition (.array values))) =
      accepts document (Connective.disjunction.over path (values.map Operator.eq.condition)) := by
  rw [accepts_path hpath, accepts_over_equals hpath, holdsFor_condition .isIn rfl]
  simp only [plainHolds, listOf, Except.map, anyAmong_eq_any, Connective.verdict, List.any_map,
    Function.comp_def, id]

theorem accepts_notIn (values : List Json) :
    accepts document (.single path (Operator.notIn.condition (.array values))) =
      accepts document (Connective.joint.over path (values.map Operator.eq.condition)) := by
  rw [accepts_path hpath, accepts_over_equals hpath, holdsFor_condition .notIn rfl]
  simp only [plainHolds, listOf, Except.map, anyAmong_eq_any, Connective.verdict, List.any_map,
    Function.comp_def, id]

theorem accepts_ne (value : Json) :
    accepts document (.single path (Operator.ne.condition value)) =
      accepts document (Connective.joint.over path [Operator.eq.condition value]) := by
  have hclauses := accepts_over_equals hpath document .joint [value]
  rw [List.map_singleton] at hclauses
  rw [accepts_path hpath, hclauses, holdsFor_condition .ne rfl]
  simp [plainHolds, Connective.verdict]

theorem accepts_negation {condition : Json} (hoperator : isOperatorObject condition) :
    accepts document (.single path (Operator.negation.condition condition)) =
      accepts document (Connective.joint.over path [condition]) := by
  rw [accepts_path hpath, accepts_over hpath, holdsFor_negation _ hoperator, List.mapM_cons,
    List.mapM_nil]
  cases holdsFor (lookup document path) condition with
  | error fault => rfl
  | ok verdict => cases verdict <;> rfl

/-- An operator that holds of the values in an order to its argument and of those equal to it. -/
theorem accepts_orEqual (order : Ordering) {strict orEqual : Operator} {value : Json}
    (hvalue : value.isScalar)
    (hstrict : holdsFor (lookup document path) (strict.condition value) =
      .ok (anyValue (lookup document path) fun found => (found.order? value).any (· == order)))
    (horEqual : holdsFor (lookup document path) (orEqual.condition value) =
      .ok (anyValue (lookup document path) fun found =>
        (found.order? value).any fun found => found == order || found == .eq)) :
    accepts document (.single path (orEqual.condition value)) =
      accepts document (Connective.disjunction.over path
        [strict.condition value, Operator.eq.condition value]) := by
  rw [accepts_path hpath, accepts_over hpath, horEqual, anyValue_or_eq hvalue]
  simp [List.mapM_cons, hstrict, holdsFor_condition .eq rfl, plainHolds,
    Connective.verdict]

theorem accepts_gte {value : Json} (hvalue : value.isScalar) :
    accepts document (.single path (Operator.gte.condition value)) =
      accepts document (Connective.disjunction.over path
        [Operator.gt.condition value, Operator.eq.condition value]) := by
  have hnotLess : (fun order : Ordering => order != .lt) =
      fun order => order == .gt || order == .eq := by
    funext order
    cases order <;> rfl
  refine accepts_orEqual hpath document .gt hvalue (holdsFor_condition .gt rfl _ _) ?_
  rw [← hnotLess]
  exact holdsFor_condition .gte rfl _ _

theorem accepts_lte {value : Json} (hvalue : value.isScalar) :
    accepts document (.single path (Operator.lte.condition value)) =
      accepts document (Connective.disjunction.over path
        [Operator.lt.condition value, Operator.eq.condition value]) := by
  have hnotGreater : (fun order : Ordering => order != .gt) =
      fun order => order == .lt || order == .eq := by
    funext order
    cases order <;> rfl
  refine accepts_orEqual hpath document .lt hvalue (holdsFor_condition .lt rfl _ _) ?_
  rw [← hnotGreater]
  exact holdsFor_condition .lte rfl _ _

end Laws

/-- Every operator on a field that is a union or a complement of others gives the same result as the
clauses for these, joined, be it a verdict or a fault. -/
theorem accepts_eq_accepts_over (hpath : isMarked path = false) (document : Json) :
    (∀ values : List Json,
      accepts document (.single path (Operator.isIn.condition (.array values))) =
          accepts document (Connective.disjunction.over path (values.map Operator.eq.condition)) ∧
        accepts document (.single path (Operator.notIn.condition (.array values))) =
          accepts document (Connective.joint.over path (values.map Operator.eq.condition))) ∧
    (∀ value : Json,
      accepts document (.single path (Operator.ne.condition value)) =
        accepts document (Connective.joint.over path [Operator.eq.condition value])) ∧
    (∀ condition : Json, isOperatorObject condition →
      accepts document (.single path (Operator.negation.condition condition)) =
        accepts document (Connective.joint.over path [condition])) ∧
    (∀ value : Json, value.isScalar →
      accepts document (.single path (Operator.gte.condition value)) =
          accepts document (Connective.disjunction.over path
            [Operator.gt.condition value, Operator.eq.condition value]) ∧
        accepts document (.single path (Operator.lte.condition value)) =
          accepts document (Connective.disjunction.over path
            [Operator.lt.condition value, Operator.eq.condition value])) :=
  ⟨fun values => ⟨accepts_isIn hpath document values, accepts_notIn hpath document values⟩,
    accepts_ne hpath document,
    fun _ hcondition => accepts_negation hpath document hcondition,
    fun _ hvalue => ⟨accepts_gte hpath document hvalue, accepts_lte hpath document hvalue⟩⟩

end

/-- A shelf with a counted row, an uncounted one and one without any count. -/
def countedRows : Json :=
  .object [("rows", .array [.object [("count", .array [.nat 1, .nat 5])],
    .object [("count", .null)], .object []])]

/-- The counts up to one are found like the lower ones and one itself; that none is above three is
refuted by the five. -/
theorem accepts_countedRows :
    isMarked "rows.count" = false ∧
    (Json.nat 1).isScalar ∧
    isOperatorObject (Operator.gt.condition (.nat 3)) ∧
    accepts countedRows (.single "rows.count" (Operator.lte.condition (.nat 1))) =
      accepts countedRows (Connective.disjunction.over "rows.count"
        [Operator.lt.condition (.nat 1), Operator.eq.condition (.nat 1)]) ∧
    matched (.single "rows.count" (Operator.lte.condition (.nat 1))) countedRows = true ∧
    accepts countedRows
        (.single "rows.count" (Operator.negation.condition (Operator.gt.condition (.nat 3)))) =
      accepts countedRows
        (Connective.joint.over "rows.count" [Operator.gt.condition (.nat 3)]) ∧
    matched (.single "rows.count" (Operator.negation.condition (Operator.gt.condition (.nat 3))))
      countedRows = false := by
  have hpath : isMarked "rows.count" = false := by decide
  have hoperator : isOperatorObject (Operator.gt.condition (.nat 3)) := isOperatorObject_condition _ _
  obtain ⟨-, -, hnegation, horder⟩ := accepts_eq_accepts_over hpath countedRows
  exact ⟨hpath, rfl, hoperator, (horder (.nat 1) rfl).2, by decide +kernel, hnegation _ hoperator,
    by decide +kernel⟩

end LinkedDocs.Filter
