import LinkedDocs.Proofs.Filter.Operators
import LinkedDocs.Proofs.Json.SameValue

namespace LinkedDocs.Filter

section

theorem isOperatorObject_oneOf (keys : List Json) : isOperatorObject (.oneOf keys) = true :=
  isOperatorObject_condition .isIn (.array keys)

variable [Platform]

/-- Whether a filter query can be evaluated on each of some documents. -/
def Evaluates (documents : List Json) (filter : Json) : Prop :=
  ∀ document ∈ documents, ∃ verdict, accepts document filter = .ok verdict

/-- Whether a document matches a filter query that can be evaluated on it. -/
def matched (filter document : Json) : Bool :=
  match accepts document filter with
  | .ok verdict => verdict
  | .error _ => false

theorem matched_of_accepts {filter document : Json} {verdict : Bool}
    (h : accepts document filter = .ok verdict) : matched filter document = verdict := by
  rw [matched, h]

def matching (documents : List Json) (filter : Json) : List Json :=
  documents.filter (matched filter)

theorem mem_matching_iff {documents : List Json} {filter document : Json} :
    document ∈ matching documents filter ↔
      document ∈ documents ∧ accepts document filter = .ok true := by
  rw [matching, List.mem_filter, matched]
  cases accepts document filter <;> simp

theorem holdsFor_oneOf (candidates : List Candidate) (keys : List Json) :
    holdsFor candidates (.oneOf keys) = .ok (anyAmong candidates keys) :=
  holdsFor_condition .isIn rfl candidates (.array keys)

/-- The condition that a field is among some keys can be evaluated on every document. -/
theorem accepts_oneOf {name : String} (hname : isMarked name = false) (document : Json)
    (keys : List Json) :
    accepts document (.single name (.oneOf keys)) = .ok (anyAmong (lookup document name) keys) :=
  (accepts_path hname document _).trans (holdsFor_oneOf _ _)

/-- So can the condition that a field equals a value that is no object. -/
theorem accepts_value {name : String} (hname : isMarked name = false) (document : Json)
    {value : Json} (hvalue : value.isObject = false) :
    accepts document (.single name value) = .ok (anyEquals (lookup document name) value) := by
  rw [accepts_path hname]
  cases value with
  | object fields => cases hvalue
  | _ => rw [holdsFor]

theorem evaluates_oneOf {name : String} (hname : isMarked name = false) (documents keys : List Json) :
    Evaluates documents (.single name (.oneOf keys)) :=
  fun document _ => ⟨_, accepts_oneOf hname document keys⟩

theorem mem_matching_oneOf_iff {name : String} (hname : isMarked name = false)
    {documents keys : List Json} {document : Json} :
    document ∈ matching documents (.single name (.oneOf keys)) ↔
      document ∈ documents ∧ anyAmong (lookup document name) keys := by
  rw [mem_matching_iff, accepts_oneOf hname, Except.ok.injEq]

end

theorem anyAmong_iff {candidates : List Candidate} {keys : List Json} :
    anyAmong candidates keys ↔ ∃ key ∈ keys, anyAmong candidates [key] := by
  simp only [anyAmong, List.any_eq_true, List.any_cons, List.any_nil, Bool.or_false]
  constructor
  · rintro ⟨candidate, hcandidate, key, hkey, hequals⟩
    exact ⟨key, hkey, candidate, hcandidate, hequals⟩
  · rintro ⟨key, hkey, candidate, hcandidate, hequals⟩
    exact ⟨candidate, hcandidate, key, hkey, hequals⟩

theorem equalsTarget_congr {left right : Json} (h : left.sameValue right) (candidate : Candidate) :
    equalsTarget left candidate = equalsTarget right candidate := by
  have hsame (value : Json) := Json.sameValue_congr_right h value
  unfold equalsTarget
  split
  · exact Json.isNull_congr h
  · simp only [hsame]
  · exact hsame _

theorem anyAmong_congr {left right : Json} (h : left.sameValue right)
    (candidates : List Candidate) : anyAmong candidates [left] = anyAmong candidates [right] := by
  simp only [anyAmong, List.any_cons, List.any_nil, equalsTarget_congr h]

/-- A query for more keys finds what a query for less of them does. -/
theorem anyAmong_of_holds {candidates : List Candidate} {keys others : List Json}
    (hothers : ∀ key ∈ keys, Json.holds others key) (h : anyAmong candidates keys) :
    anyAmong candidates others := by
  obtain ⟨key, hkey, hany⟩ := anyAmong_iff.1 h
  obtain ⟨other, hother, hsame⟩ := Json.holds_iff.1 (hothers key hkey)
  exact anyAmong_iff.2 ⟨other, hother, by rwa [anyAmong_congr hsame]⟩

end LinkedDocs.Filter
