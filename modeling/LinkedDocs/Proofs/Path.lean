import LinkedDocs.Identifier
import LinkedDocs.Projection
import Mathlib.Tactic.ByContra
import Mathlib.Tactic.Tauto

namespace LinkedDocs

theorem splitChars_eq_splitOn (separator : Char) (text : List Char) :
    splitChars separator text = text.splitOn separator := by
  induction text with
  | nil => rfl
  | cons character rest ih =>
    rw [splitChars, List.splitOn_cons_eq_if_modifyHead, ih]
    by_cases hseparator : character = separator
    · simp [hseparator]
    · cases hrest : rest.splitOn separator with
      | nil => exact absurd hrest (List.splitOn_ne_nil separator rest)
      | cons first others => simp [hseparator]

theorem splitPath_ne_nil (path : String) : splitPath path ≠ [] := by
  simp [splitPath, splitChars_eq_splitOn]

theorem joinPath_splitPath (path : String) : joinPath (splitPath path) = path := by
  apply String.toList_injective
  simp only [joinPath, splitPath, splitChars_eq_splitOn, String.toList_intercalate, List.map_map]
  have hid : (String.toList ∘ String.ofList : List Char → List Char) = id := by
    funext text
    exact String.toList_ofList
  rw [hid, List.map_id]
  exact List.intercalate_splitOn '.'

theorem splitPath_joinPath {segments : List String} (hne : segments ≠ [])
    (hdots : ∀ segment ∈ segments, '.' ∉ segment.toList) :
    splitPath (joinPath segments) = segments := by
  have hsplit : (['.'].intercalate (segments.map String.toList)).splitOn '.' =
      segments.map String.toList :=
    List.splitOn_intercalate '.' (by simpa using hdots) (by simpa using hne)
  rw [splitPath, splitChars_eq_splitOn, joinPath, String.toList_intercalate]
  change ((['.'].intercalate (segments.map String.toList)).splitOn '.').map _ = _
  rw [hsplit, List.map_map]
  simp

theorem splitPath_eq_singleton {name : String} (hname : '.' ∉ name.toList) :
    splitPath name = [name] := by
  simp [splitPath, splitChars_eq_splitOn, List.splitOn_eq_singleton hname]

theorem splitPath_append (first rest : String) :
    splitPath (first ++ "." ++ rest) = splitPath first ++ splitPath rest := by
  have htext : (first ++ "." ++ rest).toList = first.toList ++ '.' :: rest.toList := by simp
  simp only [splitPath, splitChars_eq_splitOn, htext, List.splitOn_append_cons_self,
    List.map_append]

theorem splitPath_cons {name : String} (hname : '.' ∉ name.toList) (rest : String) :
    splitPath (name ++ "." ++ rest) = name :: splitPath rest := by
  rw [splitPath_append, splitPath_eq_singleton hname, List.singleton_append]

namespace Projection

theorem isBelow_iff {path parent : String} :
    isBelow path parent ↔ ∃ rest, path = parent ++ "." ++ rest := by
  rw [isBelow, List.isPrefixOf_iff_prefix]
  constructor
  · rintro ⟨rest, hrest⟩
    refine ⟨String.ofList rest, String.toList_injective ?_⟩
    simp [← hrest]
  · rintro ⟨rest, rfl⟩
    exact ⟨rest.toList, by simp⟩

/-- A path is another one or lies below it when its segments begin with those of the other. -/
theorem splitPath_prefix_iff {path parent : String} :
    splitPath parent <+: splitPath path ↔ path = parent ∨ isBelow path parent := by
  rw [isBelow_iff]
  constructor
  · rintro ⟨rest, hrest⟩
    have hjoin := congrArg joinPath hrest
    rw [joinPath_splitPath] at hjoin
    by_cases hnil : rest = []
    · rw [hnil, List.append_nil, joinPath_splitPath] at hjoin
      exact .inl hjoin.symm
    · refine .inr ⟨joinPath rest, ?_⟩
      rw [← hjoin, joinPath, String.intercalate_append_of_ne_nil (splitPath_ne_nil _) hnil]
      rw [show ".".intercalate (splitPath parent) = parent from joinPath_splitPath parent]
      rfl
  · rintro (rfl | ⟨rest, rfl⟩)
    · exact List.prefix_rfl
    · rw [splitPath_append]
      exact List.prefix_append _ _

end Projection

namespace Identifier

theorem isValid_iff {name : String} :
    isValid name ↔ ∃ first rest, name.toList = first :: rest ∧ isStart first ∧ rest.all isPart := by
  rw [isValid, check]
  cases hname : name.toList with
  | nil => simp
  | cons first rest =>
    simp only [List.cons.injEq]
    constructor
    · intro h
      by_cases hstart : isStart first
      · by_cases hrest : rest.all isPart
        · exact ⟨first, rest, ⟨rfl, rfl⟩, hstart, hrest⟩
        · simp [hstart, hrest] at h
      · simp [hstart] at h
    · rintro ⟨_, _, ⟨rfl, rfl⟩, hstart, hrest⟩
      simp [hstart, hrest]

theorem isPart_of_isStart {character : Char} (h : isStart character) : isPart character := by
  simp only [isStart, isPart, Char.isAlphanum, Bool.or_eq_true] at h ⊢
  tauto

theorem isDigit_of_isStart {character : Char} (h : isStart character) :
    character.isDigit = false := by
  by_contra hdigit
  have halpha : character.isAlpha =
      (decide (character.val ≥ 'A'.val ∧ character.val ≤ 'Z'.val) ||
        (character.val ≥ 'a'.val && character.val ≤ 'z'.val)) := rfl
  simp only [isStart, halpha, Char.isDigit, Bool.or_eq_true, Bool.and_eq_true, decide_eq_true_eq,
    beq_iff_eq, Bool.not_eq_false, ge_iff_le, UInt32.le_iff_toNat_le] at h hdigit
  rcases h with (h | rfl) | rfl
  · simp at h hdigit
    omega
  · exact absurd hdigit (by decide)
  · exact absurd hdigit (by decide)

theorem isPart_of_mem {name : String} (hname : isValid name) {character : Char}
    (h : character ∈ name.toList) : isPart character := by
  obtain ⟨first, rest, hlist, hstart, hrest⟩ := isValid_iff.1 hname
  rw [hlist] at h
  rcases List.mem_cons.1 h with rfl | h
  · exact isPart_of_isStart hstart
  · exact List.all_eq_true.1 hrest character h

theorem dot_notMem {name : String} (hname : isValid name) : '.' ∉ name.toList := fun h =>
  absurd (isPart_of_mem hname h) (by decide)

theorem ne_wildcard {name : String} (hname : isValid name) : name ≠ wildcard := by
  rintro rfl
  exact absurd hname (by decide)

theorem isMarked_eq_false {name : String} (hname : isValid name) : isMarked name = false := by
  obtain ⟨first, rest, hlist, hstart, _⟩ := isValid_iff.1 hname
  have hfirst : first ≠ '$' := by
    rintro rfl
    exact absurd hstart (by decide)
  simp [isMarked, hlist, hfirst]

/-- A path that begins with an identifier is not marked. -/
theorem isMarked_joinPath {first : String} (hfirst : isValid first) (rest : List String) :
    isMarked (joinPath (first :: rest)) = false := by
  obtain ⟨character, others, hlist, hstart, -⟩ := isValid_iff.1 hfirst
  have hmark : character ≠ '$' := by
    rintro rfl
    exact absurd hstart (by decide)
  have hjoined : ∃ after, (joinPath (first :: rest)).toList = character :: after := by
    rw [joinPath, String.toList_intercalate, List.map_cons, hlist]
    cases rest.map String.toList <;> simp [List.intercalate, List.intersperse]
  obtain ⟨after, hafter⟩ := hjoined
  simp [isMarked, hafter, hmark]

/-- Nor is any path of identifiers. -/
theorem isMarked_of_splitPath {path : String}
    (hnames : ∀ segment ∈ splitPath path, isValid segment) : isMarked path = false := by
  cases hsplit : splitPath path with
  | nil => exact absurd hsplit (splitPath_ne_nil path)
  | cons first rest =>
    rw [hsplit] at hnames
    have hfirst := isMarked_joinPath (hnames first List.mem_cons_self) rest
    rwa [← hsplit, joinPath_splitPath] at hfirst

theorem index?_eq_none {name : String} (hname : isValid name) : index? name = none := by
  obtain ⟨first, rest, hlist, hstart, _⟩ := isValid_iff.1 hname
  have hplus : first ≠ '+' := by
    rintro rfl
    exact absurd hstart (by decide)
  simp [index?, hlist, isDigit_of_isStart hstart, hplus]

end Identifier

/-- A path of identifiers is not empty, so its segments are followed. -/
theorem Json.getPath?_eq_follow? {path : String}
    (hnames : ∀ segment ∈ splitPath path, Identifier.isValid segment) (document : Json) :
    document.getPath? path = document.follow? (splitPath path) := by
  refine if_neg ?_
  rintro rfl
  exact absurd (hnames "" (by decide)) (by decide)

/-- A name leads on from an object only, as it is no index of an array. -/
theorem Json.exists_fields_of_follow? {name : String} (hname : Identifier.isValid name)
    {rest : List String} {value found : Json} (h : value.follow? (name :: rest) = some found) :
    ∃ fields child, value = .object fields ∧ lookupName name fields = some child ∧
      child.follow? rest = some found := by
  obtain ⟨child, hchild, hfollow⟩ := Option.bind_eq_some_iff.1 h
  cases value with
  | object fields => exact ⟨fields, child, rfl, hchild, hfollow⟩
  | array items =>
    rw [step?, Identifier.index?_eq_none hname] at hchild
    cases hchild
  | _ => cases hchild

/-- The names on the way to a value, as its canonical key lists them. -/
def stackNames (stack : Stack) : List String :=
  stack.filterMap fun
    | .key name => if isMarked name then none else some name
    | .index _ => none

theorem canonicalKey_eq (stack : Stack) : canonicalKey stack = joinPath (stackNames stack) := rfl

theorem stackNames_key {name : String} (hname : Identifier.isValid name) (stack : Stack) :
    stackNames (stack ++ [.key name]) = stackNames stack ++ [name] := by
  simp [stackNames, List.filterMap_append, Identifier.isMarked_eq_false hname]

theorem stackNames_index (stack : Stack) (position : Nat) :
    stackNames (stack ++ [.index position]) = stackNames stack := by
  simp [stackNames, List.filterMap_append]

theorem stackNames_append (stack rest : Stack) :
    stackNames (stack ++ rest) = stackNames stack ++ stackNames rest :=
  List.filterMap_append

end LinkedDocs
