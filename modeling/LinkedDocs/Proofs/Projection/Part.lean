import LinkedDocs.Proofs.Json.NamesOnce
import LinkedDocs.Proofs.Projection.Absorb
import Mathlib.Data.List.Induction

namespace LinkedDocs.Projection

/-- Merges two parts of a value that may both be missing. -/
def unite : Option Json → Option Json → Option Json
  | some left, some right => some (merge left right)
  | some left, none => some left
  | none, right => right

/-- The part of a value at some paths; there is none where all of them are missing. -/
def part? (paths : List (List String)) (value : Json) : Option Json :=
  paths.foldl (fun part path => unite part (reduce? path value)) none

/-- The part of an item of an array. -/
def itemPart (paths : List (List String)) (item : Json) : Json :=
  (part? paths item).getD (.object [])

/-- What is left, below a field, of the paths that begin with it. -/
def below (name : String) (paths : List (List String)) : List (List String) :=
  paths.filterMap fun
    | first :: rest => if first = name then some rest else none
    | [] => none

theorem mem_below_iff {name : String} {paths : List (List String)} {path : List String} :
    path ∈ below name paths ↔ name :: path ∈ paths := by
  simp only [below, List.mem_filterMap]
  constructor
  · rintro ⟨_ | ⟨first, rest⟩, hmem, hpath⟩
    · cases hpath
    · by_cases hname : first = name
      · simp only [hname, if_true, Option.some.injEq] at hpath
        rwa [hname, hpath] at hmem
      · simp [hname] at hpath
  · intro hmem
    exact ⟨name :: path, hmem, by simp⟩

/-- A path on the way to another one leaves a path on the way behind the first name. -/
theorem exists_mem_below {name : String} {paths : List (List String)} {rest : List String}
    (hnil : [] ∉ paths) (h : ∃ path ∈ paths, path <+: name :: rest) :
    ∃ path ∈ below name paths, path <+: rest := by
  obtain ⟨path, hpath, hprefix⟩ := h
  cases path with
  | nil => exact absurd hpath hnil
  | cons first path =>
    obtain ⟨rfl, hrest⟩ := List.cons_prefix_cons.1 hprefix
    exact ⟨path, mem_below_iff.2 hpath, hrest⟩

theorem below_append_cons (name first : String) (paths : List (List String)) (rest : List String) :
    below name (paths ++ [first :: rest]) =
      if first = name then below name paths ++ [rest] else below name paths := by
  rw [below, List.filterMap_append]
  split
  case isTrue h => simp [h, below]
  case isFalse h => simp [h, below]

theorem apart_below {paths : List (List String)} (h : paths.Pairwise Apart) (name : String) :
    (below name paths).Pairwise Apart := by
  refine List.Pairwise.filterMap _ ?_ h
  rintro path other ⟨hpath, hother⟩ rest hrest tail htail
  cases path with
  | nil => cases hrest
  | cons first path =>
    cases other with
    | nil => cases htail
    | cons second other =>
      simp only [Option.ite_none_right_eq_some, Option.some.injEq] at hrest htail
      obtain ⟨rfl, rfl⟩ := hrest
      obtain ⟨rfl, rfl⟩ := htail
      simpa [Apart, List.cons_prefix_cons] using And.intro hpath hother

/-- Of paths of which none leads into another, the empty one can only be the only one. -/
theorem eq_singleton_of_nil_mem {paths : List (List String)} (h : paths.Pairwise Apart)
    (hnil : [] ∈ paths) : paths = [[]] := by
  cases paths with
  | nil => cases hnil
  | cons first rest =>
    have hfirst := (List.pairwise_cons.1 h).1
    rcases List.mem_cons.1 hnil with rfl | hmem
    · cases rest with
      | nil => rfl
      | cons second others => exact absurd List.nil_prefix (hfirst second List.mem_cons_self).1
    · exact absurd List.nil_prefix (hfirst [] hmem).2

theorem part?_append_singleton (paths : List (List String)) (path : List String) (value : Json) :
    part? (paths ++ [path]) value = unite (part? paths value) (reduce? path value) := by
  simp [part?, List.foldl_append]

theorem part?_of_nil_mem {paths : List (List String)} (h : paths.Pairwise Apart)
    (hnil : [] ∈ paths) (value : Json) : part? paths value = some value := by
  rw [eq_singleton_of_nil_mem h hnil]
  rfl

theorem itemPart_of_nil_mem {paths : List (List String)} (h : paths.Pairwise Apart)
    (hnil : [] ∈ paths) (value : Json) : itemPart paths value = value := by
  rw [itemPart, part?_of_nil_mem h hnil, Option.getD_some]

theorem part?_eq_some {paths : List (List String)} {value : Json} (hne : paths ≠ [])
    (hreduce : ∀ path, reduce? path value = some value) (hmerge : merge value value = value) :
    part? paths value = some value := by
  induction paths using List.reverseRecOn with
  | nil => exact absurd rfl hne
  | append_singleton paths path ih =>
    rw [part?_append_singleton, hreduce]
    by_cases hnil : paths = []
    · rw [hnil]
      rfl
    · rw [ih hnil, unite, hmerge]

theorem part?_of_scalar {paths : List (List String)} {value : Json} (hne : paths ≠ [])
    (harray : value.isArray = false) (hobject : value.isObject = false) :
    part? paths value = some value := by
  cases value with
  | array items => cases harray
  | object fields => cases hobject
  | _ => exact part?_eq_some hne (fun path => by cases path <;> rfl) rfl

theorem itemPart_of_scalar {paths : List (List String)} {value : Json} (hne : paths ≠ [])
    (harray : value.isArray = false) (hobject : value.isObject = false) :
    itemPart paths value = value := by
  rw [itemPart, part?_of_scalar hne harray hobject, Option.getD_some]

theorem merge_empty_of_reduce? {segment : String} {rest : List String} {value part : Json}
    (h : reduce? (segment :: rest) value = some part) : merge (.object []) part = part := by
  cases value with
  | object fields =>
    simp only [reduce?, reduce?.reduceValue] at h
    split at h
    · obtain ⟨child, -, rfl⟩ := Option.map_eq_some_iff.1 h
      rfl
    · cases h
  | _ =>
    cases h
    rfl

/-- A further path adds what the value has there to the part. -/
theorem itemPart_append_of_some {paths : List (List String)} {segment : String}
    {rest : List String} {value part : Json} (h : reduce? (segment :: rest) value = some part) :
    itemPart (paths ++ [segment :: rest]) value = merge (itemPart paths value) part := by
  rw [itemPart, itemPart, part?_append_singleton, h]
  cases part? paths value with
  | none => exact (merge_empty_of_reduce? h).symm
  | some before => rfl

theorem itemPart_append_of_none {paths : List (List String)} {path : List String} {value : Json}
    (h : reduce? path value = none) : itemPart (paths ++ [path]) value = itemPart paths value := by
  rw [itemPart, itemPart, part?_append_singleton, h]
  cases part? paths value <;> rfl

theorem reduce?_cons_object (segment : String) (rest : List String)
    (fields : List (String × Json)) :
    reduce? (segment :: rest) (.object fields) =
      ((lookupName segment fields).bind (reduce? rest)).map fun part =>
        .object [(segment, part)] := by
  simp only [reduce?, reduce?.reduceValue]
  cases lookupName segment fields <;> rfl

theorem unite_none (part : Option Json) : unite part none = part := by
  cases part <;> rfl

/-- A further path that begins with a field adds what lies there to the part below the field. -/
theorem bind_part?_below_append (name segment : String) (rest : List String)
    (paths : List (List String)) (child : Option Json) :
    child.bind (part? (below name (paths ++ [segment :: rest]))) =
      if segment = name then unite (child.bind (part? (below name paths))) (child.bind (reduce? rest))
      else child.bind (part? (below name paths)) := by
  rw [below_append_cons]
  split
  · cases child with
    | none => rfl
    | some child => exact part?_append_singleton _ _ child
  · rfl

theorem itemPart_object {paths : List (List String)} (hnil : [] ∉ paths)
    (fields : List (String × Json)) :
    ∃ kept, itemPart paths (.object fields) = .object kept ∧ (kept.map Prod.fst).Nodup ∧
      ∀ name, lookupName name kept = (lookupName name fields).bind (part? (below name paths)) := by
  induction paths using List.reverseRecOn with
  | nil =>
    refine ⟨[], rfl, List.nodup_nil, fun name => ?_⟩
    cases lookupName name fields <;> rfl
  | append_singleton paths path ih =>
    obtain ⟨hbefore, hpath⟩ : [] ∉ paths ∧ [] ≠ path := by
      simpa [List.mem_append, not_or] using hnil
    obtain ⟨kept, hkept, hnodup, hlookup⟩ := ih hbefore
    cases path with
    | nil => exact absurd rfl hpath
    | cons segment rest =>
      have hreduce := reduce?_cons_object segment rest fields
      cases hfield : (lookupName segment fields).bind (reduce? rest) with
      | none =>
        rw [hfield] at hreduce
        refine ⟨kept, by rw [itemPart_append_of_none hreduce, hkept], hnodup, fun name => ?_⟩
        rw [hlookup, bind_part?_below_append]
        split
        case isFalse => rfl
        case isTrue hname => rw [← hname, hfield, unite_none]
      | some part =>
        rw [hfield] at hreduce
        refine ⟨putField segment ((unite (lookupName segment kept) (some part)).getD part) kept,
          ?_, nodup_putField hnodup, fun name => ?_⟩
        · rw [itemPart_append_of_some hreduce, hkept]
          simp only [merge, mergeFields]
          cases lookupName segment kept <;> rfl
        · rw [lookupName_putField, bind_part?_below_append]
          by_cases hname : name = segment
          · subst hname
            rw [if_pos rfl, if_pos rfl, hfield, ← hlookup]
            cases lookupName name kept <;> rfl
          · rw [if_neg hname, if_neg (Ne.symm hname), hlookup]

theorem reduceItems_eq_map (below : List (String × Json) → Option Json) (items : List Json) :
    reduce?.reduceItems below items =
      items.map fun item => (reduce?.reduceValue below item).getD (.object []) := by
  induction items with
  | nil => rfl
  | cons item rest ih => rw [reduce?.reduceItems, ih, List.map_cons]

theorem mergeItems_map (left right : Json → Json) (items : List Json) :
    mergeItems (items.map left) (items.map right) =
      items.map fun item => merge (left item) (right item) := by
  induction items with
  | nil => rfl
  | cons item rest ih => simp only [List.map_cons, mergeItems, ih]

/-- An item in which a path is missing is an object, so its part is not lost when the empty object
in its place is merged. -/
theorem merge_itemPart {paths : List (List String)} (hnil : [] ∉ paths) (segment : String)
    (rest : List String) (item : Json) :
    merge (itemPart paths item) ((reduce? (segment :: rest) item).getD (.object [])) =
      itemPart (paths ++ [segment :: rest]) item := by
  cases hreduce : reduce? (segment :: rest) item with
  | some part => exact (itemPart_append_of_some hreduce).symm
  | none =>
    rw [itemPart_append_of_none hreduce]
    cases item with
    | object fields =>
      obtain ⟨kept, hkept, -⟩ := itemPart_object hnil fields
      rw [hkept]
      rfl
    | _ => cases hreduce

theorem part?_array {paths : List (List String)} (hnil : [] ∉ paths) (hne : paths ≠ [])
    (items : List Json) :
    part? paths (.array items) = some (.array (items.map (itemPart paths))) := by
  induction paths using List.reverseRecOn with
  | nil => exact absurd rfl hne
  | append_singleton paths path ih =>
    obtain ⟨hbefore, hpath⟩ : [] ∉ paths ∧ [] ≠ path := by
      simpa [List.mem_append, not_or] using hnil
    cases path with
    | nil => exact absurd rfl hpath
    | cons segment rest =>
      have hreduce : reduce? (segment :: rest) (.array items) = some (.array
          (items.map fun item => (reduce? (segment :: rest) item).getD (.object []))) := by
        simp only [reduce?, reduce?.reduceValue, reduceItems_eq_map]
      rw [part?_append_singleton, hreduce]
      by_cases hempty : paths = []
      · subst hempty
        rfl
      · rw [ih hbefore hempty, unite, merge, mergeItems_map]
        simp only [merge_itemPart hbefore]

theorem itemPart_array {paths : List (List String)} (hnil : [] ∉ paths) (hne : paths ≠ [])
    (items : List Json) : itemPart paths (.array items) = .array (items.map (itemPart paths)) := by
  rw [itemPart, part?_array hnil hne, Option.getD_some]

theorem foldl_merge_eq (segments : List (List String)) (hnil : [] ∉ segments) (document : Json) :
    segments.foldl (fun result path =>
      match reduce? path document with
      | some part => merge result part
      | none => result) (.object []) = itemPart segments document := by
  induction segments using List.reverseRecOn with
  | nil => rfl
  | append_singleton segments path ih =>
    obtain ⟨hbefore, hpath⟩ : [] ∉ segments ∧ [] ≠ path := by
      simpa [List.mem_append, not_or] using hnil
    rw [List.foldl_append, ih hbefore, List.foldl_cons, List.foldl_nil]
    cases path with
    | nil => exact absurd rfl hpath
    | cons segment rest =>
      cases hreduce : reduce? (segment :: rest) document with
      | some part => exact (itemPart_append_of_some hreduce).symm
      | none => exact (itemPart_append_of_none hreduce).symm

/-- The segments of the paths at which a projection keeps a document. -/
def kept (paths : List String) : List (List String) :=
  (absorb (idField :: paths)).map splitPath

theorem nil_notMem_kept (paths : List String) : [] ∉ kept paths := by
  intro hmem
  obtain ⟨path, -, hpath⟩ := List.mem_map.1 hmem
  exact splitPath_ne_nil path hpath

theorem kept_ne_nil (paths : List String) : kept paths ≠ [] := by
  obtain ⟨path, hpath, -⟩ := exists_mem_absorb (List.mem_cons_self (a := idField) (l := paths))
  exact List.ne_nil_of_mem (List.mem_map_of_mem hpath)

/-- A projection of a document is its part at the paths that absorption leaves. -/
theorem project_eq_itemPart (paths : List String) (document : Json) :
    project paths document = itemPart (kept paths) document := by
  refine Eq.trans ?_ (foldl_merge_eq (kept paths) (nil_notMem_kept paths) document)
  rw [kept, List.foldl_map]
  rfl

theorem follow?_itemPart {segments : List (List String)} (hapart : segments.Pairwise Apart)
    {path : List String} (hvalid : ∀ segment ∈ path, Identifier.isValid segment)
    (hparts : ∃ kept ∈ segments, kept <+: path) (value : Json) :
    (itemPart segments value).follow? path = value.follow? path := by
  induction path generalizing segments value with
  | nil =>
    obtain ⟨kept, hkept, hnil⟩ := hparts
    rw [itemPart_of_nil_mem hapart (List.prefix_nil.1 hnil ▸ hkept)]
  | cons segment rest ih =>
    by_cases hnil : [] ∈ segments
    · rw [itemPart_of_nil_mem hapart hnil]
    · obtain ⟨hsegment, hrest⟩ := List.forall_mem_cons.1 hvalid
      obtain ⟨inner, hinner, hbelow⟩ := exists_mem_below hnil hparts
      have hne : segments ≠ [] := List.ne_nil_of_mem (mem_below_iff.1 hinner)
      cases value with
      | object fields =>
        obtain ⟨kept, hpart, -, hlookup⟩ := itemPart_object hnil fields
        rw [hpart, Json.follow?, Json.follow?, Json.step?, Json.step?, hlookup]
        cases lookupName segment fields with
        | none => rfl
        | some child =>
          have hsame := ih (apart_below hapart segment) hrest ⟨inner, hinner, hbelow⟩ child
          rw [itemPart] at hsame
          rw [Option.bind_some, Option.bind_some]
          cases hchild : part? (below segment segments) child with
          | some part => rwa [hchild] at hsame
          | none =>
            rw [hchild, Option.getD_none] at hsame
            rw [← hsame]
            cases rest with
            | nil =>
              rw [part?_of_nil_mem (apart_below hapart segment)
                (List.prefix_nil.1 hbelow ▸ hinner)] at hchild
              cases hchild
            | cons second others => rfl
      | array items =>
        rw [itemPart_array hnil hne, Json.follow?, Json.follow?, Json.step?, Json.step?,
          Identifier.index?_eq_none hsegment]
        rfl
      | _ => rw [itemPart_of_scalar hne rfl rfl]

/-- A projection to a path of identifiers keeps what stands at the path. -/
theorem getPath?_project {path : String}
    (hvalid : ∀ segment ∈ splitPath path, Identifier.isValid segment) (document : Json) :
    (project [path] document).getPath? path = document.getPath? path := by
  obtain ⟨kept, hkept, hparts⟩ :=
    exists_mem_absorb (List.mem_cons_of_mem idField (List.mem_singleton_self path))
  rw [Json.getPath?_eq_follow? hvalid, Json.getPath?_eq_follow? hvalid, project_eq_itemPart]
  exact follow?_itemPart (apart_absorb _) hvalid ⟨_, List.mem_map_of_mem hkept, hparts⟩ document

/-- A part at paths that lead to a foreign key, wildcards left out, has the values of the foreign
key. -/
theorem valuesAt_itemPart {segments : List (List String)} (hapart : segments.Pairwise Apart)
    {path : List String}
    (hparts : ∃ kept ∈ segments, kept <+: path.filter fun segment => segment ≠ wildcard)
    (value : Json) : (itemPart segments value).valuesAt path = value.valuesAt path := by
  induction path generalizing segments value with
  | nil =>
    obtain ⟨kept, hkept, hnil⟩ := hparts
    rw [itemPart_of_nil_mem hapart (List.prefix_nil.1 hnil ▸ hkept)]
  | cons segment rest ih =>
    by_cases hnil : [] ∈ segments
    · rw [itemPart_of_nil_mem hapart hnil]
    have hne : segments ≠ [] := by
      obtain ⟨kept, hkept, -⟩ := hparts
      exact List.ne_nil_of_mem hkept
    by_cases hwildcard : segment = wildcard
    · subst hwildcard
      rw [List.filter_cons_of_neg (by simp)] at hparts
      cases value with
      | object fields =>
        obtain ⟨kept, hpart, -⟩ := itemPart_object hnil fields
        rw [hpart]
        rfl
      | array items =>
        have hitems (item : Json) := ih hapart hparts item
        simp only [itemPart_array hnil hne, Json.valuesAt, if_true, List.flatMap_map, hitems]
      | _ => rw [itemPart_of_scalar hne rfl rfl]
    · rw [List.filter_cons_of_pos (by simpa using hwildcard)] at hparts
      obtain ⟨inner, hinner, hbelow⟩ := exists_mem_below hnil hparts
      cases value with
      | object fields =>
        obtain ⟨kept, hpart, -, hlookup⟩ := itemPart_object hnil fields
        simp only [hpart, Json.valuesAt, hwildcard, if_false, hlookup]
        cases lookupName segment fields with
        | none => rfl
        | some child =>
          have hsame := ih (apart_below hapart segment) ⟨inner, hinner, hbelow⟩ child
          rw [Option.bind_some]
          cases hchild : part? (below segment segments) child with
          | some part => rwa [itemPart, hchild] at hsame
          | none =>
            rw [itemPart, hchild, Option.getD_none] at hsame
            cases rest with
            | nil =>
              rw [part?_of_nil_mem (apart_below hapart segment)
                (List.prefix_nil.1 hbelow ▸ hinner)] at hchild
              cases hchild
            | cons second others =>
              have hempty : (Json.object []).valuesAt (second :: others) = [] := by
                rw [Json.valuesAt]
                split <;> rfl
              exact hempty.symm.trans hsame
      | array items =>
        simp only [itemPart_array hnil hne, Json.valuesAt, hwildcard, if_false]
      | _ => rw [itemPart_of_scalar hne rfl rfl]

/-- A projection that keeps the path of a foreign key keeps its values. -/
theorem valuesAt_project {paths : List String} {path : List String}
    (hmem : pathKey path ∈ paths)
    (hsplit : splitPath (pathKey path) = path.filter fun segment => segment ≠ wildcard)
    (document : Json) : (project paths document).valuesAt path = document.valuesAt path := by
  obtain ⟨kept, hkept, hparts⟩ := exists_mem_absorb (List.mem_cons_of_mem idField hmem)
  rw [hsplit] at hparts
  rw [project_eq_itemPart]
  exact valuesAt_itemPart (apart_absorb _) ⟨_, List.mem_map_of_mem hkept, hparts⟩ document

end LinkedDocs.Projection
