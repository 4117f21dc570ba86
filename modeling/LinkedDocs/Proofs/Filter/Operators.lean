import LinkedDocs.Filter
import LinkedDocs.Proofs.Outcome

namespace LinkedDocs

/-- The condition that asks for one operator. -/
def Operator.condition (operator : Operator) (argument : Json) : Json :=
  .single operator.name argument

/-- Whether an operator looks at the candidates only. -/
def Operator.isPlain (operator : Operator) : Bool :=
  operator != .elemMatch && operator != .negation

/-- The query that joins one clause for each of some conditions on a path. -/
def Connective.over (connective : Connective) (path : String) (conditions : List Json) : Json :=
  .single connective.name (.array (conditions.map (.single path)))

theorem Operator.ofName?_name (operator : Operator) : ofName? operator.name = some operator := by
  cases operator <;> decide

theorem Connective.ofName?_name (connective : Connective) :
    ofName? connective.name = some connective := by
  cases connective <;> decide

namespace Filter

variable {document condition : Json} {path : String} {candidates : List Candidate}

theorem ofName?_eq_none {name : String} (hname : isMarked name = false) :
    Connective.ofName? name = none := by
  rw [Connective.ofName?, List.find?_eq_none]
  intro connective _ heq
  have hconnective : connective.name = name := by simpa using heq
  rw [← hconnective] at hname
  cases connective <;> exact absurd hname (by decide)

theorem isOperatorObject_condition (operator : Operator) (argument : Json) :
    isOperatorObject (operator.condition argument) = true := by
  simp only [Operator.condition, Json.single, isOperatorObject, List.isEmpty_cons, List.all_cons,
    List.all_nil]
  cases operator <;> decide

/-- The last field of a query, or the last operator of a condition, decides. -/
theorem bind_verdict (outcome : Except QueryFault Bool) :
    (outcome >>= fun holds => if holds then .ok true else .ok false) = outcome := by
  cases outcome with
  | error fault => rfl
  | ok verdict => cases verdict <;> rfl

variable [Platform]

theorem accepts_single (document : Json) (name : String) (condition : Json) :
    accepts document (.single name condition) =
      match Connective.ofName? name with
      | some connective => connective.verdict <$> clauseVerdicts document connective condition
      | none =>
        if isMarked name then .error (.unsupportedConnective name)
        else holdsFor (lookup document name) condition := by
  rw [Json.single, accepts, acceptsFields]
  cases Connective.ofName? name with
  | some connective => simp only [acceptsFields, pure_eq_ok, bind_verdict]
  | none => simp only [acceptsFields, pure_eq_ok, bind_verdict]

theorem accepts_path (hpath : isMarked path = false) (document condition : Json) :
    accepts document (.single path condition) = holdsFor (lookup document path) condition := by
  simp only [accepts_single, ofName?_eq_none hpath, hpath, Bool.false_eq_true, if_false]

theorem accepts_clauses (document : Json) (connective : Connective) (clauses : List Json) :
    accepts document (.single connective.name (.array clauses)) =
      connective.verdict <$> verdicts document clauses := by
  simp only [accepts_single, Connective.ofName?_name, clauseVerdicts]

theorem holdsFor_condition (operator : Operator) (hplain : operator.isPlain)
    (candidates : List Candidate) (argument : Json) :
    holdsFor candidates (operator.condition argument) =
      plainHolds [(operator.name, argument)] candidates operator argument := by
  simp only [Operator.isPlain, Bool.and_eq_true, bne_iff_ne] at hplain
  obtain ⟨hmatch, hnegation⟩ := hplain
  have hoperator := isOperatorObject_condition operator argument
  rw [Operator.condition, Json.single] at hoperator ⊢
  rw [holdsFor, if_pos hoperator, operatorsHold]
  simp only [Operator.ofName?_name, operatorsHold, pure_eq_ok]
  exact bind_verdict _

theorem holdsFor_negation (candidates : List Candidate) (hoperator : isOperatorObject condition) :
    holdsFor candidates (Operator.negation.condition condition) =
      (!·) <$> holdsFor candidates condition := by
  have hnegation := isOperatorObject_condition .negation condition
  rw [Operator.condition, Json.single] at hnegation ⊢
  rw [holdsFor, if_pos hnegation, operatorsHold]
  simp only [Operator.ofName?_name, operatorsHold, pure_eq_ok, if_pos hoperator]
  exact bind_verdict _

end Filter

end LinkedDocs
