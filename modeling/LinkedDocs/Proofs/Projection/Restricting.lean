import LinkedDocs.Proofs.Json.Content
import LinkedDocs.Proofs.Projection.Part

/-!
A projection restricts a document once, by all of its paths together. It reduces the document to one
path after the other and merges the parts, but what it makes is what one pass over the document
keeps; so neither the order of the paths nor repeating one matters, nor does a path below another.
-/

namespace LinkedDocs.Projection

open Json

mutual

/-- What is left of a value at some paths, taken in one pass. A value at the end of a path is kept
whole, and so is a scalar on the way. Of an object the fields are kept in which something is left,
and the object is gone if there are none; an array keeps all of its elements. -/
def restrict? (paths : List (List String)) (value : Json) : Option Json :=
  if paths = [] then none
  else if [] ∈ paths then some value
  else
    match value with
    | .object fields =>
      let kept := restrictFields paths fields
      if kept.isEmpty then none else some (.object kept)
    | .array items => some (.array (restrictItems paths items))
    | .null => some .null
    | .bool value => some (.bool value)
    | .number value => some (.number value)
    | .string value => some (.string value)
termination_by structural value

/-- An element of which nothing is left becomes the empty object. -/
def restrictItems (paths : List (List String)) (items : List Json) : List Json :=
  match items with
  | [] => []
  | item :: rest => (restrict? paths item).getD (.object []) :: restrictItems paths rest
termination_by structural items

/-- A field is restricted by what is left, below it, of the paths that begin with its name. -/
def restrictFields (paths : List (List String)) (fields : List (String × Json)) :
    List (String × Json) :=
  match fields with
  | [] => []
  | (name, child) :: rest =>
    match restrict? (below name paths) child with
    | some part => (name, part) :: restrictFields paths rest
    | none => restrictFields paths rest
termination_by structural fields

end

/-- A document restricted by a set of paths; nothing of it is left in the empty object. -/
def restrict (paths : List (List String)) (document : Json) : Json :=
  (restrict? paths document).getD (.object [])

section

variable {paths : List (List String)} {value : Json} {fields : List (String × Json)}

theorem restrict?_eq (paths : List (List String)) (value : Json) :
    restrict? paths value =
      if paths = [] then none
      else if [] ∈ paths then some value
      else
        match value with
        | .object fields =>
          if (restrictFields paths fields).isEmpty then none
          else some (.object (restrictFields paths fields))
        | .array items => some (.array (restrictItems paths items))
        | scalar => some scalar := by
  cases value <;> rfl

theorem restrictFields_cons (name : String) (child : Json) :
    restrictFields paths ((name, child) :: fields) =
      match restrict? (below name paths) child with
      | some part => (name, part) :: restrictFields paths fields
      | none => restrictFields paths fields := rfl

@[simp]
theorem restrict?_nil (value : Json) : restrict? [] value = none := by
  rw [restrict?_eq, if_pos rfl]

theorem restrict?_of_nil_mem (hnil : [] ∈ paths) (value : Json) :
    restrict? paths value = some value := by
  rw [restrict?_eq, if_neg (List.ne_nil_of_mem hnil), if_pos hnil]

theorem restrict?_of_scalar (hne : paths ≠ []) (harray : value.isArray = false)
    (hobject : value.isObject = false) : restrict? paths value = some value := by
  by_cases hnil : [] ∈ paths
  · exact restrict?_of_nil_mem hnil value
  · rw [restrict?_eq, if_neg hne, if_neg hnil]
    cases value with
    | array items => cases harray
    | object fields => cases hobject
    | _ => rfl

theorem restrictItems_eq_map (paths : List (List String)) (items : List Json) :
    restrictItems paths items = items.map (restrict paths) := by
  induction items with
  | nil => rfl
  | cons item rest ih => exact congrArg (List.cons _) ih

theorem restrictFields_eq_filterMap (paths : List (List String)) (fields : List (String × Json)) :
    restrictFields paths fields = fields.filterMap fun field =>
      (restrict? (below field.1 paths) field.2).map (Prod.mk field.1) := by
  induction fields with
  | nil => rfl
  | cons field rest ih =>
    rw [restrictFields_cons, ih, List.filterMap_cons]
    cases restrict? (below field.1 paths) field.2 <;> rfl

theorem mem_restrictFields_iff {field : String × Json} :
    field ∈ restrictFields paths fields ↔ ∃ child, (field.1, child) ∈ fields ∧
      restrict? (below field.1 paths) child = some field.2 := by
  rw [restrictFields_eq_filterMap, List.mem_filterMap]
  constructor
  · rintro ⟨⟨name, child⟩, hmem, hfield⟩
    obtain ⟨part, hpart, rfl⟩ := Option.map_eq_some_iff.1 hfield
    exact ⟨child, hmem, hpart⟩
  · rintro ⟨child, hmem, hpart⟩
    exact ⟨_, hmem, by rw [hpart, Option.map_some]⟩

theorem restrictFields_sublist (paths : List (List String)) (fields : List (String × Json)) :
    ((restrictFields paths fields).map Prod.fst).Sublist (fields.map Prod.fst) := by
  induction fields with
  | nil => exact List.Sublist.refl _
  | cons field rest ih =>
    obtain ⟨name, child⟩ := field
    rw [restrictFields_cons]
    cases restrict? (below name paths) child with
    | some part => exact ih.cons_cons name
    | none => exact ih.cons name

theorem restrict?_array (hne : paths ≠ []) (hnil : [] ∉ paths) (items : List Json) :
    restrict? paths (.array items) = some (.array (items.map (restrict paths))) := by
  rw [restrict?_eq, if_neg hne, if_neg hnil]
  simp only [restrictItems_eq_map]

theorem restrict?_object (hne : paths ≠ []) (hnil : [] ∉ paths) (fields : List (String × Json)) :
    restrict? paths (.object fields) =
      if (restrictFields paths fields).isEmpty then none
      else some (.object (restrictFields paths fields)) := by
  rw [restrict?_eq, if_neg hne, if_neg hnil]

/-- The fields of a restricted object are those of the object in which something is left. -/
theorem lookupName_restrictFields (hnodup : (fields.map Prod.fst).Nodup) (name : String) :
    lookupName name (restrictFields paths fields) =
      (lookupName name fields).bind (restrict? (below name paths)) := by
  induction fields with
  | nil => rfl
  | cons field rest ih =>
    obtain ⟨first, child⟩ := field
    obtain ⟨hfirst, hrest⟩ := List.nodup_cons.1 hnodup
    rw [restrictFields_cons, lookupName]
    by_cases hname : first = name
    · subst hname
      rw [if_pos rfl, Option.bind_some]
      cases restrict? (below first paths) child with
      | some part => rw [lookupName, if_pos rfl]
      | none => rw [ih hrest, NameMap.lookupName_eq_none_iff.2 hfirst, Option.bind_none]
    · rw [if_neg hname, ← ih hrest]
      cases restrict? (below first paths) child with
      | some part => rw [lookupName, if_neg hname]
      | none => rfl

theorem eq_nil_of_lookupName {fields : List (String × Json)}
    (h : ∀ name, lookupName name fields = none) : fields = [] := by
  cases fields with
  | nil => rfl
  | cons field rest =>
    have hfirst := h field.1
    rw [lookupName, if_pos rfl] at hfirst
    cases hfirst

end

/-- Some of the paths, with one on the way to each of them. -/
structure Heads (heads paths : List (List String)) : Prop where
  subset : ∀ head ∈ heads, head ∈ paths
  exists_prefix : ∀ path ∈ paths, ∃ head ∈ heads, head <+: path

namespace Heads

variable {heads paths : List (List String)}

theorem of_mem_iff (h : ∀ path, path ∈ heads ↔ path ∈ paths) : Heads heads paths where
  subset head := (h head).1
  exists_prefix path hpath := ⟨path, (h path).2 hpath, List.prefix_rfl⟩

theorem eq_nil_iff (h : Heads heads paths) : heads = [] ↔ paths = [] := by
  constructor
  · rintro rfl
    refine List.eq_nil_iff_forall_not_mem.2 fun path hpath => ?_
    obtain ⟨head, hhead, -⟩ := h.exists_prefix path hpath
    cases hhead
  · rintro rfl
    exact List.eq_nil_iff_forall_not_mem.2 fun head hhead => List.not_mem_nil (h.subset head hhead)

theorem nil_mem_iff (h : Heads heads paths) : [] ∈ heads ↔ [] ∈ paths := by
  refine ⟨h.subset [], fun hnil => ?_⟩
  obtain ⟨head, hhead, hprefix⟩ := h.exists_prefix [] hnil
  exact List.prefix_nil.1 hprefix ▸ hhead

theorem below (h : Heads heads paths) (hnil : [] ∉ paths) (name : String) :
    Heads (below name heads) (below name paths) where
  subset _ hhead := mem_below_iff.2 (h.subset _ (mem_below_iff.1 hhead))
  exists_prefix _ hpath :=
    exists_mem_below (fun hmem => hnil (h.subset [] hmem))
      (h.exists_prefix _ (mem_below_iff.1 hpath))

/-- Only paths that lead on into a value need to be compared. -/
theorem restrict?_eq_of (h : Heads heads paths) {value : Json}
    (hinto : paths ≠ [] → [] ∉ paths → restrict? heads value = restrict? paths value) :
    restrict? heads value = restrict? paths value := by
  by_cases hempty : paths = []
  · rw [h.eq_nil_iff.2 hempty, hempty]
  · by_cases hnil : [] ∈ paths
    · rw [restrict?_of_nil_mem hnil, restrict?_of_nil_mem (h.nil_mem_iff.2 hnil)]
    · exact hinto hempty hnil

/-- Paths below others make no difference to what is left. -/
theorem restrict?_eq (h : Heads heads paths) (value : Json) :
    restrict? heads value = restrict? paths value := by
  induction value using Json.induction_on generalizing heads paths with
  | scalar value harray hobject =>
    refine h.restrict?_eq_of fun hempty _ => ?_
    rw [restrict?_of_scalar hempty harray hobject,
      restrict?_of_scalar (mt h.eq_nil_iff.1 hempty) harray hobject]
  | array items ih =>
    refine h.restrict?_eq_of fun hempty hnil => ?_
    rw [restrict?_array hempty hnil,
      restrict?_array (mt h.eq_nil_iff.1 hempty) (mt h.nil_mem_iff.1 hnil)]
    have hitems : items.map (restrict heads) = items.map (restrict paths) :=
      List.map_congr_left fun item hitem => by rw [restrict, restrict, ih item hitem h]
    rw [hitems]
  | object fields ih =>
    refine h.restrict?_eq_of fun hempty hnil => ?_
    have hfields : restrictFields heads fields = restrictFields paths fields := by
      rw [restrictFields_eq_filterMap, restrictFields_eq_filterMap]
      exact List.filterMap_congr fun field hfield => by
        rw [ih field hfield (h.below hnil field.1)]
    rw [restrict?_object hempty hnil,
      restrict?_object (mt h.eq_nil_iff.1 hempty) (mt h.nil_mem_iff.1 hnil), hfields]

end Heads

/-- Absorption leaves paths on the way to all that were given. -/
theorem heads_absorb (paths : List String) :
    Heads ((absorb paths).map splitPath) (paths.map splitPath) where
  subset := by
    rintro _ hmem
    obtain ⟨path, hpath, rfl⟩ := List.mem_map.1 hmem
    exact List.mem_map_of_mem (mem_absorb_iff.1 hpath).1
  exists_prefix := by
    rintro _ hmem
    obtain ⟨path, hpath, rfl⟩ := List.mem_map.1 hmem
    obtain ⟨kept, hkept, hprefix⟩ := exists_mem_absorb hpath
    exact ⟨_, List.mem_map_of_mem hkept, hprefix⟩

theorem part?_eq_none_iff {paths : List (List String)} {value : Json} :
    part? paths value = none ↔ ∀ path ∈ paths, reduce? path value = none := by
  induction paths using List.reverseRecOn with
  | nil => simp [part?]
  | append_singleton paths path ih =>
    rw [part?_append_singleton, List.forall_mem_append, ← ih, List.forall_mem_singleton]
    cases part? paths value <;> cases reduce? path value <;> simp [unite]

theorem part?_object_eq_none_iff {paths : List (List String)} (hnil : [] ∉ paths)
    {fields : List (String × Json)} :
    part? paths (.object fields) = none ↔
      ∀ name, (lookupName name fields).bind (part? (below name paths)) = none := by
  have hbelow (name : String) : (lookupName name fields).bind (part? (below name paths)) = none ↔
      ∀ rest ∈ below name paths, (lookupName name fields).bind (reduce? rest) = none := by
    cases lookupName name fields with
    | none => simp
    | some child => exact part?_eq_none_iff
  simp only [part?_eq_none_iff, hbelow, mem_below_iff]
  constructor
  · intro h name rest hmem
    have hpath := h _ hmem
    rwa [reduce?_cons_object, Option.map_eq_none_iff] at hpath
  · intro h path hmem
    cases path with
    | nil => exact absurd hmem hnil
    | cons name rest =>
      rw [reduce?_cons_object, h name rest hmem]
      rfl

theorem content_getD {left right : Option Json}
    (h : left.map content = right.map content) (default : Json) :
    (left.getD default).content = (right.getD default).content := by
  cases left <;> cases right <;> simp_all

section Parts

variable {paths : List (List String)} {fields : List (String × Json)}

/-- The parts of a value along the paths, merged, are what one pass leaves of it. -/
def MergesTo (value : Json) : Prop :=
  ∀ paths : List (List String), paths.Pairwise Apart →
    (part? paths value).map content = (restrict? paths value).map content

/-- Only paths that lead on into a value need to be considered. -/
theorem mergesTo_of {value : Json}
    (hinto : ∀ paths : List (List String), paths.Pairwise Apart → paths ≠ [] → [] ∉ paths →
      (part? paths value).map content = (restrict? paths value).map content) : MergesTo value := by
  intro paths hapart
  by_cases hempty : paths = []
  · rw [hempty, restrict?_nil]
    rfl
  · by_cases hnil : [] ∈ paths
    · rw [part?_of_nil_mem hapart hnil, restrict?_of_nil_mem hnil]
    · exact hinto paths hapart hempty hnil

theorem mergesTo_object (hnodup : (fields.map Prod.fst).Nodup)
    (hfields : ∀ field ∈ fields, MergesTo field.2) : MergesTo (.object fields) := by
  refine mergesTo_of fun paths hapart hempty hnil => ?_
  obtain ⟨kept, hkept, -, hlookup⟩ := itemPart_object hnil fields
  have hsame (name : String) :
      ((lookupName name fields).bind (part? (below name paths))).map content =
        (lookupName name (restrictFields paths fields)).map content := by
    rw [lookupName_restrictFields hnodup]
    cases hchild : lookupName name fields with
    | none => rfl
    | some child =>
      exact hfields _ (NameMap.mem_of_lookupName hchild) _ (apart_below hapart name)
  rw [restrict?_object hempty hnil]
  cases hpart : part? paths (.object fields) with
  | none =>
    have hnone : restrictFields paths fields = [] := by
      refine eq_nil_of_lookupName fun name => Option.map_eq_none_iff.1 ((hsame name).symm.trans ?_)
      rw [(part?_object_eq_none_iff hnil).1 hpart name, Option.map_none]
    rw [hnone]
    rfl
  | some part =>
    have hsome : (restrictFields paths fields).isEmpty = false := by
      refine List.isEmpty_eq_false_iff.2 fun hnone => ?_
      have hmissing : part? paths (.object fields) = none := by
        refine (part?_object_eq_none_iff hnil).2 fun name => ?_
        rw [← Option.map_eq_none_iff (f := content), hsame name, hnone]
        rfl
      rw [hmissing] at hpart
      cases hpart
    rw [itemPart, hpart, Option.getD_some] at hkept
    rw [hsome, hkept, Option.map_some, content_object]
    simp [hlookup, hsame]

/-- On each value with its names once, at whatever depth. -/
theorem mergesTo_of_namesOnce (value : Json) (hnames : value.namesOnce) : MergesTo value := by
  induction value using Json.induction_on with
  | scalar value harray hobject =>
    refine mergesTo_of fun paths _ hempty _ => ?_
    rw [part?_of_scalar hempty harray hobject, restrict?_of_scalar hempty harray hobject]
  | array items ih =>
    refine mergesTo_of fun paths hapart hempty hnil => ?_
    have hitems : items.map (content ∘ itemPart paths) = items.map (content ∘ restrict paths) :=
      List.map_congr_left fun item hitem =>
        content_getD (ih item hitem (namesOnce_array_iff.1 hnames item hitem) paths hapart) _
    rw [part?_array hnil hempty, restrict?_array hempty hnil]
    simp [hitems]
  | object fields ih =>
    obtain ⟨hnodup, hfields⟩ := namesOnce_object_iff.1 hnames
    exact mergesTo_object hnodup fun field hfield => ih field hfield (hfields field hfield)

theorem namesOnce_itemPart_of {value : Json} (hnames : value.namesOnce)
    (hapart : paths.Pairwise Apart)
    (hinto : paths ≠ [] → [] ∉ paths → (itemPart paths value).namesOnce) :
    (itemPart paths value).namesOnce := by
  by_cases hempty : paths = []
  · rw [hempty]
    rfl
  · by_cases hnil : [] ∈ paths
    · rwa [itemPart_of_nil_mem hapart hnil]
    · exact hinto hempty hnil

/-- The part of a value whose objects have their names once is such a value again. -/
theorem namesOnce_itemPart (value : Json) (hnames : value.namesOnce)
    (hapart : paths.Pairwise Apart) : (itemPart paths value).namesOnce := by
  induction value using Json.induction_on generalizing paths with
  | scalar value harray hobject =>
    refine namesOnce_itemPart_of hnames hapart fun hempty _ => ?_
    rwa [itemPart_of_scalar hempty harray hobject]
  | array items ih =>
    refine namesOnce_itemPart_of hnames hapart fun hempty hnil => ?_
    rw [itemPart_array hnil hempty]
    refine namesOnce_array_iff.2 (List.forall_mem_map.2 fun item hitem => ?_)
    exact ih item hitem (namesOnce_array_iff.1 hnames item hitem) hapart
  | object fields ih =>
    refine namesOnce_itemPart_of hnames hapart fun _ hnil => ?_
    obtain ⟨kept, hkept, hnodup, hlookup⟩ := itemPart_object hnil fields
    rw [hkept]
    refine namesOnce_object_iff.2 ⟨hnodup, fun field hfield => ?_⟩
    obtain ⟨child, hchild, hpart⟩ := Option.bind_eq_some_iff.1
      ((hlookup field.1).symm.trans (NameMap.lookupName_of_mem hnodup hfield))
    have hmem := NameMap.mem_of_lookupName hchild
    have hrest := ih _ hmem ((namesOnce_object_iff.1 hnames).2 _ hmem) (apart_below hapart field.1)
    rwa [itemPart, hpart, Option.getD_some] at hrest

end Parts

section Documents

variable {paths others : List String} {fields : List (String × Json)}

theorem namesOnce_restrict_of {segments : List (List String)} {value : Json}
    (hnames : value.namesOnce)
    (hinto : segments ≠ [] → [] ∉ segments → (restrict segments value).namesOnce) :
    (restrict segments value).namesOnce := by
  by_cases hempty : segments = []
  · rw [hempty, restrict, restrict?_nil]
    rfl
  · by_cases hnil : [] ∈ segments
    · rwa [restrict, restrict?_of_nil_mem hnil]
    · exact hinto hempty hnil

theorem namesOnce_restrict (value : Json) (hnames : value.namesOnce)
    (segments : List (List String)) : (restrict segments value).namesOnce := by
  induction value using Json.induction_on generalizing segments with
  | scalar value harray hobject =>
    refine namesOnce_restrict_of hnames fun hempty _ => ?_
    rwa [restrict, restrict?_of_scalar hempty harray hobject]
  | array items ih =>
    refine namesOnce_restrict_of hnames fun hempty hnil => ?_
    rw [restrict, restrict?_array hempty hnil]
    refine namesOnce_array_iff.2 (List.forall_mem_map.2 fun item hitem => ?_)
    exact ih item hitem (namesOnce_array_iff.1 hnames item hitem) segments
  | object fields ih =>
    refine namesOnce_restrict_of hnames fun hempty hnil => ?_
    obtain ⟨hnodup, hfields⟩ := namesOnce_object_iff.1 hnames
    rw [restrict, restrict?_object hempty hnil]
    split
    case isTrue => rfl
    case isFalse =>
      refine namesOnce_object_iff.2
        ⟨hnodup.sublist (restrictFields_sublist segments fields), fun field hfield => ?_⟩
      obtain ⟨child, hchild, hpart⟩ := mem_restrictFields_iff.1 hfield
      have hrest := ih _ hchild (hfields _ hchild) (below field.1 segments)
      rwa [restrict, hpart, Option.getD_some] at hrest

theorem content_project (paths : List String) {document : Json} (hnames : document.namesOnce) :
    (project paths document).content =
      (restrict ((idField :: paths).map splitPath) document).content := by
  rw [project_eq_itemPart, restrict, ← (heads_absorb (idField :: paths)).restrict?_eq]
  exact content_getD (mergesTo_of_namesOnce document hnames _ (apart_absorb _)) _

theorem restrict_congr (h : ∀ path, path ∈ others ↔ path ∈ paths) (document : Json) :
    restrict ((idField :: others).map splitPath) document =
      restrict ((idField :: paths).map splitPath) document := by
  have hsame : Heads ((idField :: others).map splitPath) ((idField :: paths).map splitPath) :=
    .of_mem_iff fun path => by simp only [List.mem_map, List.mem_cons, h]
  rw [restrict, restrict, hsame.restrict?_eq]

/-- Up to the order of fields, a projection is the document restricted once by all of the paths and
the one to its id. The order of the paths makes no difference, nor does repeating one. -/
theorem content_project_eq_restrict (paths : List String) {document : Json}
    (hnames : document.namesOnce) :
    (project paths document).namesOnce ∧
      (restrict ((idField :: paths).map splitPath) document).namesOnce ∧
      (project paths document).content =
        (restrict ((idField :: paths).map splitPath) document).content ∧
      ∀ others : List String, (∀ path, path ∈ others ↔ path ∈ paths) →
        (project others document).content = (project paths document).content := by
  refine ⟨?_, namesOnce_restrict document hnames _, content_project paths hnames,
    fun others hsame => ?_⟩
  · rw [project_eq_itemPart]
    exact namesOnce_itemPart document hnames (apart_absorb _)
  · rw [content_project others hnames, content_project paths hnames, restrict_congr hsame]

end Documents

/-- Shelves with books, some without a title or a year and one on a shelf of its own. -/
def library : Json :=
  .object [("name", .string "Annex"), ("address", .null),
    ("shelves", .array [
      .array [.object [("title", .string "Kindred"), ("year", .int 1979), ("pages", .int 264)]],
      .object [("pages", .int 12)],
      .string "empty",
      .object [("year", .int 1929), ("title", .object [("main", .string "Passing")])]]),
    ("_id", .int 7)]

/-- Two paths meet below the shelves, one leads on from a null, one lies below another and one leads
to nothing; then they are given in another order and two of them twice. -/
theorem project_library :
    let left := Json.object [("address", .null),
      ("shelves", .array [
        .array [.object [("title", .string "Kindred"), ("year", .int 1979)]],
        .object [],
        .string "empty",
        .object [("year", .int 1929), ("title", .object [("main", .string "Passing")])]]),
      ("_id", .int 7)]
    let paths := ["shelves.title", "shelves.year", "address.city", "shelves.title.main",
      "staff.name"]
    let others := ["shelves.title.main", "staff.name", "shelves.year", "shelves.title",
      "shelves.title.main", "address.city", "shelves.year"]
    library.namesOnce ∧ (project paths library).namesOnce ∧ left.namesOnce ∧
      (project paths library).content = left.content ∧
      (∀ path, path ∈ others ↔ path ∈ paths) ∧
      (project others library).content = (project paths library).content := by
  intro left paths others
  have hnames : library.namesOnce := by decide
  have hsame : ∀ path, path ∈ others ↔ path ∈ paths := by
    intro path
    simp only [others, paths, List.mem_cons, List.not_mem_nil]
    tauto
  have hleft : restrict ((idField :: paths).map splitPath) library = left := rfl
  have hproject := content_project_eq_restrict paths hnames
  rw [hleft] at hproject
  obtain ⟨hpart, hrestricted, hcontent, hset⟩ := hproject
  exact ⟨hnames, hpart, hrestricted, hcontent, hsame, hset others hsame⟩

end LinkedDocs.Projection
