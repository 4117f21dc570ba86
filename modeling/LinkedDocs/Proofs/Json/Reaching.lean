import LinkedDocs.Json.Comparison
import LinkedDocs.Path
import LinkedDocs.Proofs.NameMap

namespace LinkedDocs.Json

/-- Whether a value can be a key. -/
def isScalar : Json → Bool
  | .bool _ => true
  | .number _ => true
  | .string _ => true
  | _ => false

theorem isArray_eq_false_of_isScalar {value : Json} (h : value.isScalar) : value.isArray = false := by
  cases value <;> first | rfl | cases h

theorem isObject_eq_false_of_isScalar {value : Json} (h : value.isScalar) :
    value.isObject = false := by
  cases value <;> first | rfl | cases h

theorem isNull_eq_false_of_isScalar {value : Json} (h : value.isScalar) : value.isNull = false := by
  cases value <;> first | rfl | cases h

/-- Whether a foreign key path leads to a value, which may be null or an array. -/
inductive Reaches : Json → List String → Json → Prop
  | here (value : Json) : Reaches value [] value
  | field {fields : List (String × Json)} {segment : String} {rest : List String}
      {child found : Json} (hsegment : segment ≠ wildcard)
      (hlookup : lookupName segment fields = some child) (h : Reaches child rest found) :
      Reaches (.object fields) (segment :: rest) found
  | element {items : List Json} {rest : List String} {item found : Json} (hmem : item ∈ items)
      (h : Reaches item rest found) : Reaches (.array items) (wildcard :: rest) found

/-- Whether each name on a path is read from an object, each wildcard from an array whose elements
are no arrays, and nulls and scalars stand at its end. Fields may be missing. -/
def fits (value : Json) : List String → Bool
  | [] => value.isNull || value.isScalar
  | segment :: rest =>
    if segment = wildcard then
      match value with
      | .array items => items.all fun item => !item.isArray && item.fits rest
      | _ => false
    else
      match value with
      | .object fields =>
        match lookupName segment fields with
        | some child => child.fits rest
        | none => true
      | _ => false

/-- Whether each name on a path is read from an object, each wildcard from an array, and nulls and
scalars stand at its end. Arrays may stand in arrays, and a field may be missing in front of a rest of
the path for which it may be. -/
def shapedWhere (mayMiss : List String → Bool) (value : Json) : List String → Bool
  | [] => value.isNull || value.isScalar
  | segment :: rest =>
    if segment = wildcard then
      match value with
      | .array items => items.all fun item => item.shapedWhere mayMiss rest
      | _ => false
    else
      match value with
      | .object fields =>
        match lookupName segment fields with
        | some child => child.shapedWhere mayMiss rest
        | none => mayMiss rest
      | _ => false

/-- Whether a path comes to no array behind a wildcard or at its end. -/
def Flat (path : List String) (value : Json) : Prop :=
  ∀ outer inner, path = outer ++ inner → inner = [] ∨ outer.getLast? = some wildcard →
    ∀ found, value.Reaches outer found → found.isArray = false

theorem reaches_nil_iff {value found : Json} : value.Reaches [] found ↔ found = value := by
  constructor
  · rintro ⟨⟩
    rfl
  · rintro rfl
    exact .here found

/-- A path leads where its parts lead one after the other. -/
theorem reaches_append_iff {value found : Json} {outer inner : List String} :
    value.Reaches (outer ++ inner) found ↔
      ∃ middle, value.Reaches outer middle ∧ middle.Reaches inner found := by
  constructor
  · intro h
    induction outer generalizing value with
    | nil => exact ⟨value, .here value, h⟩
    | cons segment rest ih =>
      cases h with
      | field hsegment hlookup h =>
        obtain ⟨middle, hmiddle, hinner⟩ := ih h
        exact ⟨middle, .field hsegment hlookup hmiddle, hinner⟩
      | element hmem h =>
        obtain ⟨middle, hmiddle, hinner⟩ := ih h
        exact ⟨middle, .element hmem hmiddle, hinner⟩
  · rintro ⟨middle, hmiddle, hinner⟩
    induction hmiddle with
    | here => exact hinner
    | field hsegment hlookup _ ih => exact .field hsegment hlookup (ih hinner)
    | element hmem _ ih => exact .element hmem (ih hinner)

theorem Flat.isArray_eq_false {path : List String} {value : Json} (h : Flat path value)
    {found : Json} (hfound : value.Reaches path found) : found.isArray = false :=
  h path [] (List.append_nil path).symm (.inl rfl) found hfound

theorem Flat.field {segment : String} {rest : List String} {fields : List (String × Json)}
    {child : Json} (h : Flat (segment :: rest) (.object fields)) (hsegment : segment ≠ wildcard)
    (hlookup : lookupName segment fields = some child) : Flat rest child := by
  intro outer inner hrest hplace found hfound
  refine h (segment :: outer) inner (by rw [hrest]; rfl) ?_ found (.field hsegment hlookup hfound)
  refine hplace.imp id fun hlast => ?_
  rw [List.getLast?_cons, hlast]
  rfl

theorem Flat.element {rest : List String} {items : List Json} {item : Json}
    (h : Flat (wildcard :: rest) (.array items)) (hmem : item ∈ items) :
    item.isArray = false ∧ Flat rest item := by
  refine ⟨h [wildcard] rest rfl (.inr rfl) item (.element hmem (.here item)), ?_⟩
  intro outer inner hrest hplace found hfound
  refine h (wildcard :: outer) inner (by rw [hrest]; rfl) ?_ found (.element hmem hfound)
  refine hplace.imp id fun hlast => ?_
  rw [List.getLast?_cons, hlast]
  rfl

theorem fits_wildcard_iff {rest : List String} {value : Json} :
    value.fits (wildcard :: rest) ↔
      ∃ items, value = .array items ∧ ∀ item ∈ items, item.isArray = false ∧ item.fits rest := by
  conv_lhs => rw [fits.eq_def]
  dsimp only
  rw [if_pos rfl]
  cases value <;> simp

theorem fits_name_iff {segment : String} (hsegment : segment ≠ wildcard) {rest : List String}
    {value : Json} :
    value.fits (segment :: rest) ↔
      ∃ fields, value = .object fields ∧
        ∀ child, lookupName segment fields = some child → child.fits rest := by
  conv_lhs => rw [fits.eq_def]
  dsimp only
  rw [if_neg hsegment]
  cases value with
  | object fields => cases hlookup : lookupName segment fields <;> simp [hlookup]
  | _ => simp

section Shaped

variable {mayMiss : List String → Bool} {segment : String} {rest : List String} {value : Json}

theorem shapedWhere_wildcard_iff :
    value.shapedWhere mayMiss (wildcard :: rest) ↔
      ∃ items, value = .array items ∧ ∀ item ∈ items, item.shapedWhere mayMiss rest := by
  conv_lhs => rw [shapedWhere.eq_def]
  dsimp only
  rw [if_pos rfl]
  cases value <;> simp

theorem shapedWhere_name_iff (hsegment : segment ≠ wildcard) :
    value.shapedWhere mayMiss (segment :: rest) ↔
      ∃ fields, value = .object fields ∧
        (∀ child, lookupName segment fields = some child → child.shapedWhere mayMiss rest) ∧
        (lookupName segment fields = none → mayMiss rest) := by
  conv_lhs => rw [shapedWhere.eq_def]
  dsimp only
  rw [if_neg hsegment]
  cases value with
  | object fields => cases hlookup : lookupName segment fields <;> simp [hlookup]
  | _ => simp

theorem shapedWhere_of_fits {path : List String} (hfits : value.fits path) :
    value.shapedWhere (fun _ => true) path := by
  induction path generalizing value with
  | nil => exact hfits
  | cons segment rest ih =>
    by_cases hsegment : segment = wildcard
    · subst hsegment
      obtain ⟨items, rfl, hitems⟩ := fits_wildcard_iff.1 hfits
      exact shapedWhere_wildcard_iff.2 ⟨items, rfl, fun item hitem => ih (hitems item hitem).2⟩
    · obtain ⟨fields, rfl, hchild⟩ := (fits_name_iff hsegment).1 hfits
      exact (shapedWhere_name_iff hsegment).2
        ⟨fields, rfl, fun child hlookup => ih (hchild child hlookup), fun _ => rfl⟩

end Shaped

/-- A path that fits ends at nulls and scalars only. -/
theorem isArray_eq_false_of_fits {path : List String} {value found : Json} (hfits : value.fits path)
    (h : value.Reaches path found) : found.isArray = false := by
  induction h with
  | here value => cases value <;> first | rfl | cases hfits
  | field hsegment hlookup _ ih =>
    obtain ⟨_, heq, hchild⟩ := (fits_name_iff hsegment).1 hfits
    cases heq
    exact ih (hchild _ hlookup)
  | element hmem _ ih =>
    obtain ⟨_, heq, hitems⟩ := fits_wildcard_iff.1 hfits
    cases heq
    exact ih (hitems _ hmem).2

theorem flat_of_fits {path : List String} {value : Json} (hfits : value.fits path) :
    Flat path value := by
  intro outer inner hpath hplace found hfound
  rcases hplace with rfl | hlast
  · rw [List.append_nil] at hpath
    exact isArray_eq_false_of_fits hfits (hpath ▸ hfound)
  · subst hpath
    induction hfound with
    | here => cases hlast
    | @field fields segment rest child found hsegment hlookup hrest ih =>
      obtain ⟨_, heq, hchild⟩ := (fits_name_iff hsegment).1 hfits
      cases heq
      cases rest with
      | nil => exact absurd (Option.some.inj hlast) hsegment
      | cons => exact ih hlast (hchild _ hlookup)
    | @element items rest item found hmem hrest ih =>
      obtain ⟨_, heq, hitems⟩ := fits_wildcard_iff.1 hfits
      cases heq
      cases rest with
      | nil =>
        rw [reaches_nil_iff.1 hrest]
        exact (hitems _ hmem).1
      | cons => exact ih hlast (hitems _ hmem).2

/-- Where no array stands at the end of a path, its values are what it reaches. -/
theorem reaches_of_mem_valuesAt {path : List String} {value found : Json}
    (hend : ∀ other, value.Reaches path other → other.isArray = false)
    (h : found ∈ value.valuesAt path) : value.Reaches path found := by
  induction path generalizing value with
  | nil =>
    rw [reaches_nil_iff]
    have harray := hend value (.here value)
    cases value with
    | null => cases h
    | array items => cases harray
    | bool flag => exact List.mem_singleton.1 h
    | number number => exact List.mem_singleton.1 h
    | string text => exact List.mem_singleton.1 h
    | object fields => exact List.mem_singleton.1 h
  | cons segment rest ih =>
    unfold valuesAt at h
    split at h
    case isTrue hsegment =>
      subst hsegment
      split at h
      case h_1 items =>
        obtain ⟨item, hmem, hfound⟩ := List.mem_flatMap.1 h
        exact .element hmem (ih (fun other hother => hend other (.element hmem hother)) hfound)
      case h_2 => cases h
    case isFalse hsegment =>
      split at h
      case h_1 fields =>
        split at h
        case h_1 child hlookup =>
          exact .field hsegment hlookup
            (ih (fun other hother => hend other (.field hsegment hlookup hother)) h)
        case h_2 => cases h
      case h_2 => cases h

theorem isScalar_of_sameValue {left right : Json} (h : left.sameValue right)
    (hright : right.isScalar) : left.isScalar := by
  cases right with
  | null => cases hright
  | array items => cases hright
  | object fields => cases hright
  | _ => cases left <;> first | rfl | simp [sameValue] at h

end LinkedDocs.Json
