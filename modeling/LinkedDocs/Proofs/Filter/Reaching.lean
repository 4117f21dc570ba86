import LinkedDocs.Proofs.Filter.Membership
import LinkedDocs.Proofs.Graph.Built
import LinkedDocs.Proofs.Json.Reaching

namespace LinkedDocs

open Json

namespace Filter

theorem anyAmong_append {candidates others : List Candidate} {keys : List Json} :
    anyAmong (candidates ++ others) keys = (anyAmong candidates keys || anyAmong others keys) := by
  simp [anyAmong]

theorem anyAmong_orMissing {candidates : List Candidate} {keys : List Json}
    (h : anyAmong candidates keys) : anyAmong (orMissing candidates) keys := by
  cases candidates with
  | nil => cases h
  | cons => exact h

theorem equalsTarget_some {value : Json} (harray : value.isArray = false) (key : Json) :
    equalsTarget key (some value) = value.sameValue key := by
  cases value <;> first | rfl | cases harray

/-- A value equals each target of the same value, be it an array or not. -/
theorem equalsTarget_of_sameValue {value key : Json} (h : value.sameValue key) :
    equalsTarget key (some value) := by
  cases value with
  | array items => simp [equalsTarget, h]
  | _ => exact h

/-- A scalar that is the only candidate is compared with each key. -/
theorem anyAmong_of_isScalar {value : Json} (hscalar : value.isScalar) (keys : List Json) :
    anyAmong [some value] keys = holds keys value := by
  simp only [anyAmong, List.any_cons, List.any_nil, Bool.or_false,
    equalsTarget_some (isArray_eq_false_of_isScalar hscalar), sameValue_comm value, holds]

theorem mem_orMissing {candidates : List Candidate} {candidate : Candidate}
    (h : candidate ∈ candidates) : candidate ∈ orMissing candidates := by
  cases candidates with
  | nil => cases h
  | cons => exact h

theorem candidates_nil (value : Json) : candidates [] value = [some value] := rfl

theorem candidates_object (segment : String) (rest : List String) (fields : List (String × Json)) :
    candidates (segment :: rest) (.object fields) =
      match lookupName segment fields with
      | some child => candidates rest child
      | none => [none] := rfl

/-- In an array, the element at the index is read on, and each object is read as one. -/
theorem candidates_array (segment : String) (rest : List String) (items : List Json) :
    candidates (segment :: rest) (.array items) =
      orMissing ((((index? segment).bind fun position => items[position]?).elim []
          (candidates rest)) ++
        items.flatMap fun item =>
          if item.isObject then candidates (segment :: rest) item else []) := by
  simp only [candidates]
  refine congrArg orMissing (congrArg₂ List.append ?_ (List.flatMap_congr fun item _ => ?_))
  · cases (index? segment).bind fun position => items[position]? <;> rfl
  · cases item <;> rfl

/-- The value to which a dotted path leads is a candidate at the path. -/
theorem mem_candidates_of_follow? {path : List String} {value found : Json}
    (h : value.follow? path = some found) : some found ∈ candidates path value := by
  induction path generalizing value with
  | nil =>
    cases h
    exact List.mem_singleton_self _
  | cons segment rest ih =>
    obtain ⟨child, hchild, hrest⟩ := Option.bind_eq_some_iff.1 h
    cases value with
    | object fields =>
      have hlookup : lookupName segment fields = some child := hchild
      rw [candidates_object, hlookup]
      exact ih hrest
    | array items =>
      have hitem : ((index? segment).bind fun position => items[position]?) = some child := hchild
      rw [candidates_array, hitem]
      exact mem_orMissing (List.mem_append_left _ (ih hrest))
    | _ => cases hchild

/-- On names alone, it is the only candidate. -/
theorem candidates_of_follow? {path : List String}
    (hnames : ∀ segment ∈ path, Identifier.isValid segment) {value found : Json}
    (h : value.follow? path = some found) : candidates path value = [some found] := by
  induction path generalizing value with
  | nil =>
    cases h
    rfl
  | cons segment rest ih =>
    obtain ⟨hsegment, hrest⟩ := List.forall_mem_cons.1 hnames
    obtain ⟨fields, child, rfl, hlookup, hfollow⟩ := exists_fields_of_follow? hsegment h
    rw [candidates_object, hlookup]
    exact ih hrest hfollow

/-- The candidates at a path in an object of an array are candidates at the path in the array. -/
theorem anyAmong_candidates_array {segment : String} {rest : List String}
    {fields : List (String × Json)} {items : List Json} {keys : List Json}
    (hmem : Json.object fields ∈ items)
    (h : anyAmong (candidates (segment :: rest) (.object fields)) keys) :
    anyAmong (candidates (segment :: rest) (.array items)) keys := by
  rw [candidates_object] at h
  rw [candidates_array]
  refine anyAmong_orMissing ?_
  rw [anyAmong_append, Bool.or_eq_true]
  right
  rw [anyAmong, List.any_eq_true] at h ⊢
  obtain ⟨candidate, hcandidate, hequals⟩ := h
  exact ⟨candidate, List.mem_flatMap.2 ⟨_, hmem, hcandidate⟩, hequals⟩

/-- What a path reaches is among the candidates at its names. -/
theorem anyAmong_of_reaches {path : List String} {value found key : Json}
    (hreaches : value.Reaches path found) (hflat : Flat path value) (hsame : found.sameValue key) :
    anyAmong (candidates (path.filter fun segment => segment ≠ wildcard) value) [key] := by
  induction hreaches with
  | here value =>
    have harray := hflat.isArray_eq_false (.here value)
    simp [candidates_nil, anyAmong, equalsTarget_some harray, hsame]
  | field hsegment hlookup _ ih =>
    rw [List.filter_cons_of_pos (by simpa using hsegment)]
    rw [candidates_object, hlookup]
    exact ih (hflat.field hsegment hlookup) hsame
  | @element items rest item found hmem hrest ih =>
    obtain ⟨hitem, hrestFlat⟩ := hflat.element hmem
    rw [List.filter_cons_of_neg (by simp)]
    have hanyAmong := ih hrestFlat hsame
    cases hrest with
    | here =>
      have hany : items.any fun item => item.sameValue key :=
        List.any_eq_true.2 ⟨_, hmem, hsame⟩
      simp [candidates_nil, anyAmong, equalsTarget, hany]
    | field hsegment _ _ =>
      rw [List.filter_cons_of_pos (by simpa using hsegment)] at hanyAmong ⊢
      exact anyAmong_candidates_array hmem hanyAmong
    | element => cases hitem

/-- A document that holds a key in a foreign key matches the filter query for it. -/
theorem anyAmong_of_compiled {name : String} {foreignKey : ForeignKey}
    (hcompiled : foreignKey.Compiled name) {document found key : Json}
    (hreaches : document.Reaches foreignKey.path found) (hflat : Flat foreignKey.path document)
    {keys : List Json} (hkey : key ∈ keys) (hsame : found.sameValue key) :
    anyAmong (lookup document name) keys := by
  rw [lookup, hcompiled.splitPath_name]
  exact anyAmong_iff.2 ⟨key, hkey, anyAmong_of_reaches hreaches hflat hsame⟩

end Filter

end LinkedDocs
