import LinkedDocs.Platform.Native
import LinkedDocs.Proofs.Filter.Membership

namespace LinkedDocs

namespace Json

/-- Values that agree up to the spelling of numbers. -/
theorem sameValue_equivalence :
    Equivalence fun left right : Json => left.sameValue right = true where
  refl := sameValue_refl
  symm := sameValue_symm
  trans := sameValue_trans

end Json

namespace Filter

open Json

theorem anyEquals_congr {left right : Json} (h : left.sameValue right)
    (candidates : List Candidate) : anyEquals candidates left = anyEquals candidates right := by
  simp only [anyEquals, funext (equalsTarget_congr h)]

theorem anyAmong_congr_forall₂ {lefts rights : List Json}
    (h : List.Forall₂ (fun left right => left.sameValue right = true) lefts rights)
    (candidates : List Candidate) : anyAmong candidates lefts = anyAmong candidates rights := by
  rw [anyAmong, anyAmong]
  congr 1
  funext candidate
  induction h with
  | nil => rfl
  | cons hsame _ ih => rw [List.any_cons, List.any_cons, equalsTarget_congr hsame, ih]

section

variable [Platform]

theorem clauseVerdicts_of_isObject {clauses : Json} (hclauses : clauses.isObject) (document : Json)
    (connective : Connective) :
    clauseVerdicts document connective clauses = .error (.clausesExpected connective) := by
  cases clauses with
  | object fields => rfl
  | _ => cases hclauses

/-- Conditions that ask the same of all candidates give the same result under every name, also
under one of a connective, where no condition can stand. -/
theorem accepts_condition_congr {operator : Operator} (hplain : operator.isPlain)
    {left right : Json}
    (h : ∀ candidates, plainHolds [(operator.name, left)] candidates operator left =
      plainHolds [(operator.name, right)] candidates operator right)
    (document : Json) (path : String) :
    accepts document (.single path (operator.condition left)) =
      accepts document (.single path (operator.condition right)) := by
  have hleft : (operator.condition left).isObject := rfl
  have hright : (operator.condition right).isObject := rfl
  rw [accepts_single, accepts_single, holdsFor_condition operator hplain,
    holdsFor_condition operator hplain, h]
  simp only [clauseVerdicts_of_isObject hleft, clauseVerdicts_of_isObject hright]

/-- Having the same value is an equivalence, and no condition that compares with a value or with the
values of a list tells another spelling of them apart. -/
theorem equivalence_sameValue_and_accepts_congr :
    Equivalence (fun left right : Json => left.sameValue right = true) ∧
    ∀ (document : Json) (path : String),
      (∀ left right : Json, left.sameValue right →
        accepts document (.single path (Operator.eq.condition left)) =
            accepts document (.single path (Operator.eq.condition right)) ∧
          accepts document (.single path (Operator.ne.condition left)) =
            accepts document (.single path (Operator.ne.condition right))) ∧
      (∀ lefts rights : List Json,
        List.Forall₂ (fun left right => left.sameValue right = true) lefts rights →
        accepts document (.single path (Operator.isIn.condition (.array lefts))) =
            accepts document (.single path (Operator.isIn.condition (.array rights))) ∧
          accepts document (.single path (Operator.notIn.condition (.array lefts))) =
            accepts document (.single path (Operator.notIn.condition (.array rights)))) := by
  refine ⟨sameValue_equivalence, fun document path => ⟨fun left right hsame => ?_,
    fun lefts rights hsame => ?_⟩⟩
  · constructor
    · refine accepts_condition_congr rfl (fun candidates => ?_) document path
      simp only [plainHolds, anyEquals_congr hsame]
    · refine accepts_condition_congr rfl (fun candidates => ?_) document path
      simp only [plainHolds, anyEquals_congr hsame]
  · constructor
    · refine accepts_condition_congr rfl (fun candidates => ?_) document path
      simp only [plainHolds, listOf, Except.map, anyAmong_congr_forall₂ hsame]
    · refine accepts_condition_congr rfl (fun candidates => ?_) document path
      simp only [plainHolds, listOf, Except.map, anyAmong_congr_forall₂ hsame]

end

def weighedCargo : Json :=
  .object [("crates", .array [
    .object [("load", .array [.int 9007199254740993, .number (.double .zero)])]])]

/-- An integer that is no double and the zero of integers are other spellings of a double and of its
negative zero. -/
theorem accepts_weighedCargo :
    let load := Json.array [.int 9007199254740992, .number (.double ⟨true, 0⟩)]
    let written := Json.array [.int 9007199254740993, .int 0]
    load.sameValue written ∧
    accepts weighedCargo (.single "crates.load" (Operator.eq.condition load)) =
      accepts weighedCargo (.single "crates.load" (Operator.eq.condition written)) ∧
    matched (.single "crates.load" (Operator.eq.condition load)) weighedCargo = true ∧
    accepts weighedCargo
        (.single "crates.load" (Operator.notIn.condition (.array [.null, load]))) =
      accepts weighedCargo
        (.single "crates.load" (Operator.notIn.condition (.array [.null, written]))) := by
  intro load written
  have hsame : load.sameValue written := by decide +kernel
  obtain ⟨-, hcongr⟩ := equivalence_sameValue_and_accepts_congr
  obtain ⟨hequals, hlists⟩ := hcongr weighedCargo "crates.load"
  refine ⟨hsame, (hequals load written hsame).1, by decide +kernel,
    (hlists [.null, load] [.null, written] ?_).2⟩
  exact .cons (sameValue_refl .null) (.cons hsame .nil)

end Filter

end LinkedDocs
