import LinkedDocs.Json.Reader
import LinkedDocs.Proofs.NameMap

namespace LinkedDocs

section Fields

variable {α : Type} {name other : String} {value : α} {fields : List (String × α)}

theorem mem_putField {field : String × α} (h : field ∈ putField name value fields) :
    field = (name, value) ∨ field ∈ fields := by
  induction fields with
  | nil => exact .inl (List.mem_singleton.1 h)
  | cons head rest ih =>
    obtain ⟨first, existing⟩ := head
    rw [putField] at h
    split at h
    · exact (List.mem_cons.1 h).imp id (List.mem_cons_of_mem _)
    · rcases List.mem_cons.1 h with rfl | h
      · exact .inr List.mem_cons_self
      · exact (ih h).imp id (List.mem_cons_of_mem _)

theorem nodup_putField (hnodup : (fields.map Prod.fst).Nodup) :
    ((putField name value fields).map Prod.fst).Nodup := by
  induction fields with
  | nil => exact List.nodup_singleton _
  | cons head rest ih =>
    obtain ⟨first, existing⟩ := head
    obtain ⟨hfirst, hrest⟩ := List.nodup_cons.1 hnodup
    rw [putField]
    split
    case isTrue hname => exact List.nodup_cons.2 ⟨hname ▸ hfirst, hrest⟩
    case isFalse hname =>
      refine List.nodup_cons.2 ⟨fun hmem => ?_, ih hrest⟩
      obtain ⟨field, hfield, hfieldName⟩ := List.mem_map.1 hmem
      rcases mem_putField hfield with rfl | hfield
      · exact hname hfieldName.symm
      · exact hfirst (List.mem_map.2 ⟨field, hfield, hfieldName⟩)

theorem putField_eq_self (hlookup : lookupName name fields = some value) :
    putField name value fields = fields := by
  induction fields with
  | nil => cases hlookup
  | cons head rest ih =>
    obtain ⟨first, existing⟩ := head
    rw [lookupName] at hlookup
    rw [putField]
    by_cases hname : first = name
    · rw [if_pos hname] at hlookup ⊢
      cases hlookup
      rw [hname]
    · rw [if_neg hname] at hlookup ⊢
      rw [ih hlookup]

theorem replaceByLast_perm {last : String × α} (hnodup : (fields.map Prod.fst).Nodup)
    (hname : name ∈ fields.map Prod.fst) :
    (replaceByLast name last fields).Perm (last :: fields.filter fun field => field.1 ≠ name) := by
  induction fields with
  | nil => cases hname
  | cons head rest ih =>
    obtain ⟨hfirst, hrest⟩ := List.nodup_cons.1 hnodup
    rw [replaceByLast]
    by_cases hhead : head.1 = name
    · rw [if_pos hhead, List.filter_cons_of_neg (by simpa using hhead)]
      rw [List.filter_eq_self.2 fun field hfield => ?_]
      rw [decide_eq_true_eq]
      exact fun heq => hfirst (List.mem_map.2 ⟨field, hfield, heq.trans hhead.symm⟩)
    · have hmem : name ∈ rest.map Prod.fst :=
        (List.mem_cons.1 hname).resolve_left fun heq => hhead heq.symm
      rw [if_neg hhead, List.filter_cons_of_pos (by simpa using hhead)]
      exact ((ih hrest hmem).cons head).trans (.swap _ _ _)

/-- Removing a field that is there leaves the other fields, in some order. -/
theorem removeField_perm (hnodup : (fields.map Prod.fst).Nodup)
    (hname : name ∈ fields.map Prod.fst) :
    (removeField name fields).Perm (fields.filter fun field => field.1 ≠ name) := by
  cases hlast : fields.getLast? with
  | none =>
    rw [List.getLast?_eq_none_iff.1 hlast] at hname
    cases hname
  | some last =>
    obtain ⟨init, rfl⟩ := List.getLast?_eq_some_iff.1 hlast
    rw [List.map_append, List.map_singleton] at hname hnodup
    rw [removeField, hlast, List.dropLast_concat, List.filter_append]
    obtain ⟨hinit, -, hdisjoint⟩ := List.nodup_append.1 hnodup
    dsimp only
    by_cases hend : last.1 = name
    · rw [if_pos hend, List.filter_cons_of_neg (by simpa using hend), List.filter_nil,
        List.append_nil, List.filter_eq_self.2 fun field hfield => ?_]
      rw [decide_eq_true_eq, ← hend]
      exact hdisjoint _ (List.mem_map_of_mem hfield) _ (List.mem_singleton_self _)
    · have hmem : name ∈ init.map Prod.fst :=
        (List.mem_append.1 hname).resolve_right fun hmem => hend (List.mem_singleton.1 hmem).symm
      rw [if_neg hend, List.filter_cons_of_pos (by simpa using hend), List.filter_nil]
      exact (replaceByLast_perm hinit hmem).trans (List.perm_append_singleton _ _).symm

theorem nodup_removeField (hnodup : (fields.map Prod.fst).Nodup)
    (hname : name ∈ fields.map Prod.fst) : ((removeField name fields).map Prod.fst).Nodup :=
  ((removeField_perm hnodup hname).map _).nodup_iff.2
    (hnodup.sublist (List.filter_sublist.map Prod.fst))

theorem lookupName_removeField (hnodup : (fields.map Prod.fst).Nodup)
    (hname : name ∈ fields.map Prod.fst) (other : String) :
    lookupName other (removeField name fields) =
      if other = name then none else lookupName other fields := by
  have hperm := removeField_perm hnodup hname
  have hafter := nodup_removeField hnodup hname
  refine Option.ext fun value => ?_
  rw [← NameMap.lookupName_filter_ne]
  constructor
  · intro h
    exact NameMap.lookupName_of_mem (hnodup.sublist (List.filter_sublist.map Prod.fst))
      (hperm.mem_iff.1 (NameMap.mem_of_lookupName h))
  · intro h
    exact NameMap.lookupName_of_mem hafter (hperm.mem_iff.2 (NameMap.mem_of_lookupName h))

end Fields

namespace Json

mutual

/-- Whether every object in a value has each of its names once. -/
def namesOnce (value : Json) : Bool :=
  match value with
  | .null => true
  | .bool _ => true
  | .number _ => true
  | .string _ => true
  | .array items => namesOnceItems items
  | .object fields => decide (fields.map Prod.fst).Nodup && namesOnceFields fields
termination_by structural value

def namesOnceItems (items : List Json) : Bool :=
  match items with
  | [] => true
  | item :: rest => namesOnce item && namesOnceItems rest
termination_by structural items

def namesOnceFields (fields : List (String × Json)) : Bool :=
  match fields with
  | [] => true
  | (_, value) :: rest => namesOnce value && namesOnceFields rest
termination_by structural fields

end

theorem namesOnce_array_iff {items : List Json} :
    (Json.array items).namesOnce ↔ ∀ item ∈ items, item.namesOnce := by
  rw [namesOnce]
  induction items with
  | nil => simp [namesOnceItems]
  | cons item rest ih => rw [namesOnceItems, Bool.and_eq_true, ih, List.forall_mem_cons]

theorem namesOnce_object_iff {fields : List (String × Json)} :
    (Json.object fields).namesOnce ↔
      (fields.map Prod.fst).Nodup ∧ ∀ field ∈ fields, field.2.namesOnce := by
  rw [namesOnce, Bool.and_eq_true, decide_eq_true_eq]
  refine and_congr_right' ?_
  induction fields with
  | nil => simp [namesOnceFields]
  | cons field rest ih => rw [namesOnceFields, Bool.and_eq_true, ih, List.forall_mem_cons]

theorem namesOnce_of_lookupName {fields : List (String × Json)}
    (h : (Json.object fields).namesOnce) {name : String} {child : Json}
    (hlookup : lookupName name fields = some child) : child.namesOnce :=
  (namesOnce_object_iff.1 h).2 _ (NameMap.mem_of_lookupName hlookup)

theorem nodup_mergeFields (fields : List (String × Json)) :
    ((mergeFields fields).map Prod.fst).Nodup := by
  have hfold : ∀ (fields merged : List (String × Json)), (merged.map Prod.fst).Nodup →
      ((fields.foldl (fun merged field => putField field.1 field.2 merged) merged).map
        Prod.fst).Nodup := by
    intro fields
    induction fields with
    | nil => exact fun _ hmerged => hmerged
    | cons field rest ih => exact fun merged hmerged => ih _ (nodup_putField hmerged)
  exact hfold fields [] List.nodup_nil

theorem mem_mergeFields {fields : List (String × Json)} {field : String × Json}
    (h : field ∈ mergeFields fields) : field ∈ fields := by
  have hfold : ∀ fields merged : List (String × Json),
      field ∈ fields.foldl (fun merged field => putField field.1 field.2 merged) merged →
        field ∈ fields ∨ field ∈ merged := by
    intro fields
    induction fields with
    | nil => exact fun _ hmem => .inr hmem
    | cons first rest ih =>
      intro merged hmem
      rcases ih _ hmem with hrest | hput
      · exact .inl (List.mem_cons_of_mem _ hrest)
      · rcases mem_putField hput with rfl | hmerged
        · exact .inl List.mem_cons_self
        · exact .inr hmerged
  exact (hfold fields [] h).resolve_right List.not_mem_nil

theorem collapse_array (items : List Json) : (array items).collapse = .array (items.map collapse) := by
  rw [collapse]
  congr 1
  induction items with
  | nil => rfl
  | cons item rest ih => rw [collapseItems, ih, List.map_cons]

theorem collapse_object (fields : List (String × Json)) :
    (object fields).collapse =
      .object (mergeFields (fields.map fun field => (field.1, field.2.collapse))) := by
  rw [collapse]
  congr 2
  induction fields with
  | nil => rfl
  | cons field rest ih => rw [collapseFields, ih, List.map_cons]

theorem namesOnce_collapse (value : Json) : value.collapse.namesOnce := by
  induction value using Json.induction_on with
  | scalar value harray hobject =>
    cases value with
    | array items => cases harray
    | object fields => cases hobject
    | _ => rfl
  | array items ih =>
    rw [collapse_array]
    exact namesOnce_array_iff.2 (List.forall_mem_map.2 ih)
  | object fields ih =>
    rw [collapse_object]
    refine namesOnce_object_iff.2 ⟨nodup_mergeFields _, fun field hfield => ?_⟩
    obtain ⟨first, hfirst, rfl⟩ := List.mem_map.1 (mem_mergeFields hfield)
    exact ih first hfirst

/-- Every value that is read from a text has each name once in each object. -/
theorem namesOnce_of_read? {text : String} {value : Json} (h : read? text = some value) :
    value.namesOnce := by
  obtain ⟨raw, -, rfl⟩ := Option.map_eq_some_iff.1 h
  exact namesOnce_collapse raw

end Json

end LinkedDocs
