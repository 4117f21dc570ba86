namespace LinkedDocs

universe u

variable {α : Type u}

def lookupName (name : String) : List (String × α) → Option α
  | [] => none
  | (first, value) :: rest => if first = name then some value else lookupName name rest

/-- Entries whose names strictly increase. -/
def NamesIncrease (entries : List (String × α)) : Prop :=
  entries.Pairwise fun first second => first.1 < second.1

structure NameMap (α : Type u) where
  entries : List (String × α)
  increasing : NamesIncrease entries := by exact List.Pairwise.nil

namespace NameMap

def insertEntry (name : String) (value : α) : List (String × α) → List (String × α)
  | [] => [(name, value)]
  | (other, existing) :: rest =>
    if name < other then (name, value) :: (other, existing) :: rest
    else if name = other then (name, value) :: rest
    else (other, existing) :: insertEntry name value rest

theorem fst_mem_insertEntry {name : String} {value : α} {entry : String × α}
    {entries : List (String × α)} (h : entry ∈ insertEntry name value entries) :
    entry.1 = name ∨ entry ∈ entries := by
  induction entries with
  | nil => simp_all [insertEntry]
  | cons head rest ih =>
    obtain ⟨other, existing⟩ := head
    rw [insertEntry] at h
    split at h
    · rcases List.mem_cons.1 h with rfl | h
      · exact .inl rfl
      · exact .inr h
    · split at h
      · rcases List.mem_cons.1 h with rfl | h
        · exact .inl rfl
        · exact .inr (List.mem_cons_of_mem _ h)
      · rcases List.mem_cons.1 h with rfl | h
        · exact .inr List.mem_cons_self
        · exact (ih h).imp id (List.mem_cons_of_mem _)

theorem namesIncrease_insertEntry (name : String) (value : α) {entries : List (String × α)}
    (h : NamesIncrease entries) : NamesIncrease (insertEntry name value entries) := by
  induction entries with
  | nil => exact List.pairwise_singleton _ _
  | cons head rest ih =>
    obtain ⟨other, existing⟩ := head
    obtain ⟨hother, hrest⟩ := List.pairwise_cons.1 h
    rw [insertEntry]
    split
    case isTrue hlt =>
      refine List.pairwise_cons.2 ⟨fun entry hentry => ?_, h⟩
      rcases List.mem_cons.1 hentry with rfl | hentry
      · exact hlt
      · exact String.lt_trans hlt (hother entry hentry)
    case isFalse hnot =>
      split
      case isTrue heq =>
        exact List.pairwise_cons.2 ⟨fun entry hentry => heq ▸ hother entry hentry, hrest⟩
      case isFalse hne =>
        refine List.pairwise_cons.2 ⟨fun entry hentry => ?_, ih hrest⟩
        rcases fst_mem_insertEntry hentry with hname | hentry
        · rcases Decidable.em (other < name) with hlt | hge
          · rw [hname]
            exact hlt
          · exact absurd (String.le_antisymm (String.not_lt.1 hge) (String.not_lt.1 hnot)) hne
        · exact hother entry hentry

def empty : NameMap α := ⟨[], List.Pairwise.nil⟩

instance : EmptyCollection (NameMap α) := ⟨empty⟩

instance : Inhabited (NameMap α) := ⟨empty⟩

def get? (map : NameMap α) (name : String) : Option α :=
  lookupName name map.entries

def getD (map : NameMap α) (name : String) (default : α) : α :=
  (map.get? name).getD default

def contains (map : NameMap α) (name : String) : Bool :=
  (map.get? name).isSome

/-- Adds an entry, or replaces the value of an existing one. -/
def insert (map : NameMap α) (name : String) (value : α) : NameMap α :=
  ⟨insertEntry name value map.entries, namesIncrease_insertEntry name value map.increasing⟩

def erase (map : NameMap α) (name : String) : NameMap α :=
  ⟨map.entries.filter fun entry => entry.1 ≠ name, map.increasing.filter _⟩

def filter (map : NameMap α) (keep : String → α → Bool) : NameMap α :=
  ⟨map.entries.filter fun entry => keep entry.1 entry.2, map.increasing.filter _⟩

def mapValues {β : Type u} (map : NameMap α) (change : String → α → β) : NameMap β :=
  ⟨map.entries.map fun entry => (entry.1, change entry.1 entry.2),
    by simpa [NamesIncrease, List.pairwise_map] using map.increasing⟩

/-- The entries in any order; of a repeated name the last value stays. -/
def ofList (entries : List (String × α)) : NameMap α :=
  entries.foldl (fun map entry => map.insert entry.1 entry.2) empty

def keys (map : NameMap α) : List String :=
  map.entries.map Prod.fst

def values (map : NameMap α) : List α :=
  map.entries.map Prod.snd

def size (map : NameMap α) : Nat :=
  map.entries.length

def isEmpty (map : NameMap α) : Bool :=
  map.entries.isEmpty

@[ext]
theorem ext {left right : NameMap α} (h : left.entries = right.entries) : left = right := by
  cases left
  cases right
  cases h
  rfl

instance [DecidableEq α] : DecidableEq (NameMap α) := fun left right =>
  decidable_of_iff (left.entries = right.entries) ⟨ext, fun h => h ▸ rfl⟩

instance [Repr α] : Repr (NameMap α) := ⟨fun map precedence => reprPrec map.entries precedence⟩

@[simp]
theorem get?_empty (name : String) : (empty : NameMap α).get? name = none := rfl

theorem lookupName_insertEntry (name other : String) (value : α) (entries : List (String × α)) :
    lookupName other (insertEntry name value entries) =
      if other = name then some value else lookupName other entries := by
  induction entries with
  | nil => simp [insertEntry, lookupName, eq_comm]
  | cons head rest ih =>
    obtain ⟨first, existing⟩ := head
    grind [insertEntry, lookupName]

theorem get?_insert (map : NameMap α) (name other : String) (value : α) :
    (map.insert name value).get? other =
      if other = name then some value else map.get? other :=
  lookupName_insertEntry name other value map.entries

theorem lookupName_filter_ne (name other : String) (entries : List (String × α)) :
    lookupName other (entries.filter fun entry => entry.1 ≠ name) =
      if other = name then none else lookupName other entries := by
  induction entries with
  | nil => simp [lookupName]
  | cons head rest ih =>
    obtain ⟨first, existing⟩ := head
    grind [lookupName]

theorem get?_erase (map : NameMap α) (name other : String) :
    (map.erase name).get? other = if other = name then none else map.get? other :=
  lookupName_filter_ne name other map.entries

end NameMap

end LinkedDocs
