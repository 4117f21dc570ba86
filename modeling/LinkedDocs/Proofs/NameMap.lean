import LinkedDocs.NameMap
import Mathlib.Data.List.Nodup
import Mathlib.Data.List.Pairwise

namespace LinkedDocs.NameMap

universe u

variable {α β : Type u}

theorem mem_of_lookupName {name : String} {value : α} {entries : List (String × α)}
    (h : lookupName name entries = some value) : (name, value) ∈ entries := by
  induction entries with
  | nil => cases h
  | cons head rest ih =>
    obtain ⟨first, existing⟩ := head
    rw [lookupName] at h
    split at h
    case isTrue hname =>
      cases h
      exact hname ▸ List.mem_cons_self
    case isFalse => exact List.mem_cons_of_mem _ (ih h)

theorem lookupName_eq_none_iff {name : String} {entries : List (String × α)} :
    lookupName name entries = none ↔ name ∉ entries.map Prod.fst := by
  induction entries with
  | nil => simp [lookupName]
  | cons head rest ih =>
    obtain ⟨first, existing⟩ := head
    by_cases hname : first = name
    · simp [lookupName, hname]
    · simp [lookupName, hname, ih, Ne.symm hname]

theorem lookupName_of_mem {name : String} {value : α} {entries : List (String × α)}
    (hnodup : (entries.map Prod.fst).Nodup) (h : (name, value) ∈ entries) :
    lookupName name entries = some value := by
  induction entries with
  | nil => cases h
  | cons head rest ih =>
    obtain ⟨first, existing⟩ := head
    obtain ⟨hfirst, hrest⟩ := List.nodup_cons.1 hnodup
    rcases List.mem_cons.1 h with heq | hmem
    · cases heq
      simp [lookupName]
    · have hmemNames : name ∈ rest.map Prod.fst := List.mem_map_of_mem (f := Prod.fst) hmem
      have hne : first ≠ name := fun heq => hfirst (heq ▸ hmemNames)
      rw [lookupName, if_neg hne, ih hrest hmem]

theorem nodup_keys (map : NameMap α) : map.keys.Nodup := by
  rw [keys, List.Nodup, List.pairwise_map]
  refine map.increasing.imp fun {first second} hlt heq => ?_
  exact String.lt_irrefl second.1 (by rwa [heq] at hlt)

theorem mem_entries_iff {map : NameMap α} {name : String} {value : α} :
    (name, value) ∈ map.entries ↔ map.get? name = some value :=
  ⟨lookupName_of_mem map.nodup_keys, mem_of_lookupName⟩

theorem mem_values_iff {map : NameMap α} {value : α} :
    value ∈ map.values ↔ ∃ name, map.get? name = some value := by
  simp only [values, List.mem_map, Prod.exists, mem_entries_iff, exists_eq_right]

theorem mem_values_of_get? {map : NameMap α} {name : String} {value : α}
    (h : map.get? name = some value) : value ∈ map.values :=
  mem_values_iff.2 ⟨name, h⟩

theorem mem_keys_iff {map : NameMap α} {name : String} :
    name ∈ map.keys ↔ ∃ value, map.get? name = some value := by
  rw [← Option.ne_none_iff_exists', get?, Ne, lookupName_eq_none_iff, not_not, keys]

theorem isEmpty_eq_false_iff {map : NameMap α} :
    map.isEmpty = false ↔ ∃ name value, map.get? name = some value := by
  rw [isEmpty, List.isEmpty_eq_false_iff_exists_mem]
  simp only [Prod.exists, mem_entries_iff]

theorem get?_filter {map : NameMap α} {keep : String → α → Bool} {name : String} {value : α} :
    (map.filter keep).get? name = some value ↔ map.get? name = some value ∧ keep name value := by
  rw [← mem_entries_iff, ← mem_entries_iff]
  exact List.mem_filter

theorem get?_mapValues {map : NameMap α} {change : String → α → β} {name : String} {value : β} :
    (map.mapValues change).get? name = some value ↔
      ∃ before, map.get? name = some before ∧ change name before = value := by
  rw [← mem_entries_iff]
  simp only [← mem_entries_iff, mapValues, List.mem_map, Prod.exists, Prod.mk.injEq]
  constructor
  · rintro ⟨_, before, hmem, rfl, rfl⟩
    exact ⟨before, hmem, rfl⟩
  · rintro ⟨before, hmem, rfl⟩
    exact ⟨name, before, hmem, rfl, rfl⟩

theorem insertEntry_eq_self {entries : List (String × α)} (h : NamesIncrease entries) {name : String}
    {value : α} (hlookup : lookupName name entries = some value) :
    insertEntry name value entries = entries := by
  induction entries with
  | nil => cases hlookup
  | cons head rest ih =>
    obtain ⟨other, existing⟩ := head
    obtain ⟨hother, hrest⟩ := List.pairwise_cons.1 h
    rw [lookupName] at hlookup
    split at hlookup
    case isTrue hname =>
      cases hlookup
      rw [insertEntry, if_neg (hname ▸ String.lt_irrefl other), if_pos hname.symm, hname]
    case isFalse hname =>
      have hlt : other < name := hother _ (mem_of_lookupName hlookup)
      have hnot : ¬name < other := fun hgt => String.lt_irrefl other (String.lt_trans hlt hgt)
      rw [insertEntry, if_neg hnot, if_neg (Ne.symm hname), ih hrest hlookup]

/-- Adding an entry that is there changes nothing. -/
theorem insert_eq_self {map : NameMap α} {name : String} {value : α}
    (h : map.get? name = some value) : map.insert name value = map :=
  ext (insertEntry_eq_self map.increasing h)

theorem get?_foldl_insert {entries : List (String × α)} {map : NameMap α} {name : String} {value : α}
    (h : (entries.foldl (fun map entry => map.insert entry.1 entry.2) map).get? name = some value) :
    (name, value) ∈ entries ∨ map.get? name = some value := by
  induction entries generalizing map with
  | nil => exact .inr h
  | cons entry rest ih =>
    rcases ih h with hmem | hget
    · exact .inl (List.mem_cons_of_mem _ hmem)
    · rw [get?_insert] at hget
      split at hget
      case isTrue hname =>
        cases hget
        exact .inl (hname ▸ List.mem_cons_self)
      case isFalse => exact .inr hget

theorem mem_of_get?_ofList {entries : List (String × α)} {name : String} {value : α}
    (h : (ofList entries).get? name = some value) : (name, value) ∈ entries := by
  rcases get?_foldl_insert h with hmem | hget
  · exact hmem
  · cases hget

theorem get?_foldl_insert_of_mem {entries : List (String × α)} {map : NameMap α} {name : String}
    {value : α} (hnodup : (entries.map Prod.fst).Nodup)
    (h : (name, value) ∈ entries ∨ name ∉ entries.map Prod.fst ∧ map.get? name = some value) :
    (entries.foldl (fun map entry => map.insert entry.1 entry.2) map).get? name = some value := by
  induction entries generalizing map with
  | nil => exact (h.resolve_left List.not_mem_nil).2
  | cons entry rest ih =>
    obtain ⟨hfirst, hrest⟩ := List.nodup_cons.1 hnodup
    refine ih hrest ?_
    rcases h with hmem | ⟨hnone, hget⟩
    · rcases List.mem_cons.1 hmem with rfl | hmem
      · exact .inr ⟨hfirst, by rw [get?_insert, if_pos rfl]⟩
      · exact .inl hmem
    · obtain ⟨hne, hnone⟩ := not_or.1 (List.mem_cons.not.1 hnone)
      exact .inr ⟨hnone, by rw [get?_insert, if_neg hne, hget]⟩

theorem get?_ofList_of_mem {entries : List (String × α)} {name : String} {value : α}
    (hnodup : (entries.map Prod.fst).Nodup) (h : (name, value) ∈ entries) :
    (ofList entries).get? name = some value :=
  get?_foldl_insert_of_mem hnodup (.inl h)

theorem get?_foldl_insert_map {names : List String} (f : String → α) {map : NameMap α}
    (name : String) :
    ((names.map fun name => (name, f name)).foldl
        (fun map entry => map.insert entry.1 entry.2) map).get? name =
      if name ∈ names then some (f name) else map.get? name := by
  induction names generalizing map with
  | nil => simp
  | cons first rest ih =>
    rw [List.map_cons, List.foldl_cons, ih, get?_insert]
    by_cases hrest : name ∈ rest <;> by_cases hfirst : name = first <;> simp [hrest, hfirst]

theorem get?_ofList_map (names : List String) (f : String → α) (name : String) :
    (ofList (names.map fun name => (name, f name))).get? name =
      if name ∈ names then some (f name) else none :=
  get?_foldl_insert_map f name

/-- Maps with the same look-ups are equal. -/
theorem ext_get? {left right : NameMap α} (h : ∀ name, left.get? name = right.get? name) :
    left = right := by
  have hmem : ∀ entry, entry ∈ left.entries ↔ entry ∈ right.entries := by
    rintro ⟨name, value⟩
    rw [mem_entries_iff, mem_entries_iff, h]
  have hnodup (map : NameMap α) : map.entries.Nodup := .of_map _ map.nodup_keys
  have hperm := (List.perm_ext_iff_of_nodup (hnodup left) (hnodup right)).2 hmem
  refine ext (hperm.eq_of_pairwise (fun first second _ _ hlt hgt => ?_) left.increasing
    right.increasing)
  exact absurd (String.lt_trans hlt hgt) (String.lt_irrefl _)

/-- Of two values for a name the later one stays. -/
theorem insert_insert (map : NameMap α) (name : String) (first second : α) :
    (map.insert name first).insert name second = map.insert name second := by
  refine ext_get? fun other => ?_
  by_cases hname : other = name <;> simp [get?_insert, hname]

theorem get?_getD_empty (maps : NameMap (NameMap α)) (outer inner : String) :
    (maps.getD outer .empty).get? inner = (maps.get? outer).bind fun map => map.get? inner := by
  rw [getD]
  cases maps.get? outer <;> rfl

theorem isEmpty_insert (map : NameMap α) (name : String) (value : α) :
    (map.insert name value).isEmpty = false :=
  isEmpty_eq_false_iff.2 ⟨name, value, by rw [get?_insert, if_pos rfl]⟩

theorem get?_ofList_eq_some_iff {entries : List (String × α)} {name : String} {value : α}
    (hnodup : (entries.map Prod.fst).Nodup) :
    (ofList entries).get? name = some value ↔ (name, value) ∈ entries :=
  ⟨mem_of_get?_ofList, get?_ofList_of_mem hnodup⟩

/-- Maps to maps that hold something are equal when their look-ups on both levels are. -/
theorem ext_get?_bind {left right : NameMap (NameMap α)}
    (hleft : ∀ name map, left.get? name = some map → map.isEmpty = false)
    (hright : ∀ name map, right.get? name = some map → map.isEmpty = false)
    (h : ∀ outer inner, ((left.get? outer).bind fun map => map.get? inner) =
      (right.get? outer).bind fun map => map.get? inner) : left = right := by
  refine ext_get? fun outer => ?_
  have houter := h outer
  cases hl : left.get? outer with
  | none =>
    cases hr : right.get? outer with
    | none => rfl
    | some map =>
      obtain ⟨inner, value, hinner⟩ := isEmpty_eq_false_iff.1 (hright outer map hr)
      rw [hl, hr] at houter
      exact absurd ((houter inner).trans hinner) nofun
  | some map =>
    cases hr : right.get? outer with
    | none =>
      obtain ⟨inner, value, hinner⟩ := isEmpty_eq_false_iff.1 (hleft outer map hl)
      rw [hl, hr] at houter
      exact absurd ((houter inner).symm.trans hinner) nofun
    | some other =>
      rw [hl, hr] at houter
      rw [ext_get? houter]

end LinkedDocs.NameMap
