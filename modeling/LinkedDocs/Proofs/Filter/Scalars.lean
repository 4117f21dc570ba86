import LinkedDocs.Proofs.Update.Detaching

namespace LinkedDocs.Filter

open Json

/-- How a filter query for a scalar finds it at some names. Between two names it leads through one
array at most, and so it does behind the last one. -/
inductive Finds : List String → List String → Json → Json → Prop
  | here {value : Json} (hscalar : value.isScalar) : Finds [] [] value value
  | last {items : List Json} {item : Json} (hmem : item ∈ items) (hscalar : item.isScalar) :
      Finds [] [wildcard] (.array items) item
  | field {name : String} {names path : List String} {fields : List (String × Json)}
      {child found : Json} (hname : name ≠ wildcard)
      (hlookup : lookupName name fields = some child) (h : Finds names path child found) :
      Finds (name :: names) (name :: path) (.object fields) found
  | element {name : String} {names path : List String} {items : List Json}
      {fields : List (String × Json)} {found : Json} (hmem : .object fields ∈ items)
      (h : Finds (name :: names) path (.object fields) found) :
      Finds (name :: names) (wildcard :: path) (.array items) found

namespace Finds

variable {names path : List String} {value found : Json}

theorem reaches (h : Finds names path value found) : value.Reaches path found := by
  induction h with
  | here => exact .here _
  | last hmem => exact .element hmem (.here _)
  | field hname hlookup _ ih => exact .field hname hlookup ih
  | element hmem _ ih => exact .element hmem ih

theorem isScalar (h : Finds names path value found) : found.isScalar := by
  induction h with
  | here hscalar => exact hscalar
  | last _ hscalar => exact hscalar
  | field _ _ _ ih => exact ih
  | element _ _ ih => exact ih

theorem names_eq (h : Finds names path value found) :
    (path.filter fun segment => segment ≠ wildcard) = names := by
  induction h with
  | here => rfl
  | last => rfl
  | field hname _ _ ih => rw [List.filter_cons_of_pos (by simpa using hname), ih]
  | element _ _ ih => rw [List.filter_cons_of_neg (by simp), ih]

theorem anyAmong (h : Finds names path value found) {keys : List Json} {key : Json}
    (hkey : key ∈ keys) (hsame : found.sameValue key) : anyAmong (candidates names value) keys := by
  induction h with
  | here hscalar =>
    refine anyAmong_iff.2 ⟨key, hkey, ?_⟩
    simp [candidates, Filter.anyAmong, equalsTarget_some (isArray_eq_false_of_isScalar hscalar), hsame]
  | @last items item hmem hscalar =>
    have hany : items.any fun item => item.sameValue key := List.any_eq_true.2 ⟨_, hmem, hsame⟩
    refine anyAmong_iff.2 ⟨key, hkey, ?_⟩
    simp [candidates, Filter.anyAmong, equalsTarget, hany]
  | field _ hlookup _ ih =>
    simp only [candidates, hlookup]
    exact ih hsame
  | element hmem _ ih => exact anyAmong_candidates_array hmem (ih hsame)

/-- What is found in a value is found in any other one from which its path reaches it. -/
theorem of_reaches (h : Finds names path value found) {other : Json}
    (hreaches : other.Reaches path found) : Finds names path other found := by
  induction h generalizing other with
  | here hscalar =>
    rw [reaches_nil_iff] at hreaches
    exact hreaches ▸ .here hscalar
  | last _ hscalar =>
    cases hreaches with
    | field hwildcard => exact absurd rfl hwildcard
    | element hmem hreaches =>
      rw [reaches_nil_iff] at hreaches
      exact .last (hreaches ▸ hmem) hscalar
  | field hname _ _ ih =>
    cases hreaches with
    | field _ hlookup hreaches => exact .field hname hlookup (ih hreaches)
    | element => exact absurd rfl hname
  | element _ h ih =>
    cases hreaches with
    | field hwildcard => exact absurd rfl hwildcard
    | element hmem hreaches =>
      have hfinds := ih hreaches
      cases h with
      | field hname _ _ =>
        cases hreaches with
        | field _ _ _ => exact .element hmem hfinds
        | element => exact absurd rfl hname

end Finds

section Scalars

variable {names : List String} {keys : List Json}

theorem exists_finds_nil (hkeys : ∀ key ∈ keys, key.isScalar) {value : Json}
    (h : anyAmong (candidates [] value) keys) :
    ∃ path found, Finds [] path value found ∧ ∃ key ∈ keys, found.sameValue key := by
  obtain ⟨key, hkey, hany⟩ := anyAmong_iff.1 h
  have hequals : equalsTarget key (some value) := by simpa [candidates, anyAmong] using hany
  have hscalar := hkeys key hkey
  cases value with
  | array items =>
    have hnot : (Json.array items).sameValue key = false := by
      refine Bool.eq_false_iff.2 fun hsame => ?_
      have harray := isScalar_of_sameValue hsame hscalar
      cases harray
    rw [equalsTarget, hnot, Bool.false_or, List.any_eq_true] at hequals
    obtain ⟨item, hmem, hsame⟩ := hequals
    exact ⟨_, item, .last hmem (isScalar_of_sameValue hsame hscalar), key, hkey, hsame⟩
  | _ => exact ⟨_, _, .here (isScalar_of_sameValue hequals hscalar), key, hkey, hequals⟩

theorem anyAmong_none (hkeys : ∀ key ∈ keys, key.isScalar) : anyAmong [none] keys = false := by
  refine Bool.eq_false_iff.2 fun h => ?_
  obtain ⟨key, hkey, hany⟩ := anyAmong_iff.1 h
  have hnull : key.isNull := by simpa [anyAmong, equalsTarget] using hany
  rw [isNull_eq_false_of_isScalar (hkeys key hkey)] at hnull
  cases hnull

theorem exists_fields_of_anyAmong {name : String} (hname : Identifier.isValid name)
    (hkeys : ∀ key ∈ keys, key.isScalar) {items : List Json}
    (h : anyAmong (candidates (name :: names) (.array items)) keys) :
    ∃ fields, .object fields ∈ items ∧
      anyAmong (candidates (name :: names) (.object fields)) keys := by
  simp only [candidates, Identifier.index?_eq_none hname, Option.bind_none, List.nil_append] at h
  rw [orMissing] at h
  split at h
  case isTrue =>
    rw [anyAmong_none hkeys] at h
    cases h
  case isFalse =>
    obtain ⟨candidate, hcandidate, hany⟩ := List.any_eq_true.1 h
    obtain ⟨item, hmem, hthere⟩ := List.mem_flatMap.1 hcandidate
    cases item with
    | object fields => exact ⟨fields, hmem, List.any_eq_true.2 ⟨candidate, hthere, hany⟩⟩
    | _ => cases hthere

/-- A filter query for scalars finds one of them, if it holds. -/
theorem exists_finds (hnames : ∀ name ∈ names, Identifier.isValid name)
    (hkeys : ∀ key ∈ keys, key.isScalar) {value : Json}
    (h : anyAmong (candidates names value) keys) :
    ∃ path found, Finds names path value found ∧ ∃ key ∈ keys, found.sameValue key := by
  induction names generalizing value with
  | nil => exact exists_finds_nil hkeys h
  | cons name names ih =>
    obtain ⟨hname, hrest⟩ := List.forall_mem_cons.1 hnames
    have hmissing := anyAmong_none hkeys
    have hobject {fields : List (String × Json)}
        (h : anyAmong (candidates (name :: names) (.object fields)) keys) :
        ∃ path found, Finds (name :: names) path (.object fields) found ∧
          ∃ key ∈ keys, found.sameValue key := by
      cases hlookup : lookupName name fields with
      | none =>
        simp only [candidates, hlookup] at h
        rw [hmissing] at h
        cases h
      | some child =>
        simp only [candidates, hlookup] at h
        obtain ⟨path, found, hfinds, hfound⟩ := ih hrest h
        exact ⟨_, found, .field (Identifier.ne_wildcard hname) hlookup hfinds, hfound⟩
    cases value with
    | object fields => exact hobject h
    | array items =>
      obtain ⟨fields, hmem, hany⟩ := exists_fields_of_anyAmong hname hkeys h
      obtain ⟨path, found, hfinds, hfound⟩ := hobject hany
      exact ⟨_, found, .element hmem hfinds, hfound⟩
    | _ =>
      simp only [candidates] at h
      rw [hmissing] at h
      cases h

/-- A document that only lost values matches no query for scalars that it did not match before. -/
theorem anyAmong_of_shrinks (hnames : ∀ name ∈ names, Identifier.isValid name)
    (hkeys : ∀ key ∈ keys, key.isScalar) {old new : Json} (hshrinks : Shrinks old new)
    (h : anyAmong (candidates names new) keys) : anyAmong (candidates names old) keys := by
  obtain ⟨path, found, hfinds, key, hkey, hsame⟩ := exists_finds hnames hkeys h
  have hreaches := hshrinks.scalar hfinds.reaches hfinds.isScalar
  exact (hfinds.of_reaches hreaches).anyAmong hkey hsame

/-- On a document that has the shape of a path, the path is the only one with its names that reaches
a scalar. -/
theorem eq_of_reaches_of_shapedWhere {mayMiss : List String → Bool} {path other : List String}
    {value found : Json} (hshaped : value.shapedWhere mayMiss path)
    (hreaches : value.Reaches other found) (hscalar : found.isScalar)
    (hsame : (other.filter fun segment => segment ≠ wildcard) =
      path.filter fun segment => segment ≠ wildcard) : other = path := by
  induction path generalizing value other with
  | nil =>
    have hvalue : value.isNull || value.isScalar := hshaped
    cases hreaches with
    | here => rfl
    | field => cases hvalue
    | element => cases hvalue
  | cons segment rest ih =>
    by_cases hsegment : segment = wildcard
    · subst hsegment
      obtain ⟨items, rfl, hitems⟩ := shapedWhere_wildcard_iff.1 hshaped
      cases hreaches with
      | here => cases hscalar
      | element hmem hreaches =>
        rw [List.filter_cons_of_neg (by simp), List.filter_cons_of_neg (by simp)] at hsame
        rw [ih (hitems _ hmem) hreaches hsame]
    · obtain ⟨fields, rfl, hchild, -⟩ := (shapedWhere_name_iff hsegment).1 hshaped
      cases hreaches with
      | here => cases hscalar
      | field hother hlookup hreaches =>
        rw [List.filter_cons_of_pos (by simpa using hother),
          List.filter_cons_of_pos (by simpa using hsegment)] at hsame
        obtain ⟨rfl, hrest⟩ := List.cons.inj hsame
        rw [ih (hchild _ hlookup) hreaches hrest]

theorem isValid_of_mem_names {path : List String}
    (hnames : ∀ segment ∈ path, segment ≠ wildcard → Identifier.isValid segment) :
    ∀ name ∈ path.filter fun segment => segment ≠ wildcard, Identifier.isValid name := by
  intro name hname
  obtain ⟨hmem, hne⟩ := List.mem_filter.1 hname
  exact hnames name hmem (by simpa using hne)

/-- A document that fitted a path, has lost values since and avoids keys on the path does not match
the query for them. -/
theorem anyAmong_eq_false_of_avoids {path : List String}
    (hnames : ∀ segment ∈ path, segment ≠ wildcard → Identifier.isValid segment)
    (hkeys : ∀ key ∈ keys, key.isScalar) {old new : Json} (hfits : old.fits path)
    (hshrinks : Shrinks old new) (havoids : new.Avoids keys path) :
    anyAmong (candidates (path.filter fun segment => segment ≠ wildcard) new) keys = false := by
  refine Bool.eq_false_iff.2 fun h => ?_
  obtain ⟨other, found, hfinds, key, hkey, hsame⟩ := exists_finds (isValid_of_mem_names hnames) hkeys h
  have hreaches := hshrinks.scalar hfinds.reaches hfinds.isScalar
  have hpath := eq_of_reaches_of_shapedWhere (shapedWhere_of_fits hfits) hreaches hfinds.isScalar
    hfinds.names_eq
  exact havoids found (hpath ▸ hfinds.reaches) hfinds.isScalar key hkey hsame

end Scalars

end LinkedDocs.Filter
