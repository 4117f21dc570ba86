import LinkedDocs.Identifier
import LinkedDocs.Selector.Symbol
import Mathlib.Data.List.Nodup

namespace LinkedDocs

def ObjectKey.IsValid : ObjectKey → Prop
  | .field name => Identifier.isValid name
  | .wildcard => True

namespace Selector

inductive WellFormed : Selector → Prop
  | identity : WellFormed .identity
  | field {name : String} {next : Selector} (hname : Identifier.isValid name)
      (hnext : WellFormed next) : WellFormed (.field name next)
  | index {position : Nat} {next : Selector} (hposition : position < UInt64.size)
      (hnext : WellFormed next) : WellFormed (.index position next)
  | shortcut {next : Selector} (hnext : WellFormed next) : WellFormed (.shortcut next)
  | map {next : Selector} (hnext : WellFormed next) : WellFormed (.map next)
  | hardMap {next : Selector} (hnext : WellFormed next) : WellFormed (.hardMap next)
  | filter {predicate : PredicateName} {next : Selector} (hnext : WellFormed next) :
      WellFormed (.filter predicate next)
  | switch {predicate : PredicateName} {accepted otherwise : Selector}
      (haccepted : WellFormed accepted) (hotherwise : WellFormed otherwise) :
      WellFormed (.switch predicate accepted otherwise)
  | filterQuery {query : Json} {next : Selector} (hquery : query.isObject)
      (hnext : WellFormed next) : WellFormed (.filterQuery query next)
  | tuple {items : List Selector} (hne : items ≠ []) (hitems : ∀ item ∈ items, WellFormed item) :
      WellFormed (.tuple items)
  | object {entries : List (ObjectKey × Selector)} (hne : entries ≠ [])
      (hkeys : (entries.map Prod.fst).Nodup) (hvalid : ∀ entry ∈ entries, entry.1.IsValid)
      (hentries : ∀ entry ∈ entries, WellFormed entry.2) : WellFormed (.object entries)

/-- A symbol table whose selectors are well formed. -/
def SymbolTable.WellFormed (symbols : SymbolTable) : Prop :=
  ∀ token nested, symbols.get? token = some (.selector nested) → nested.WellFormed

theorem WellFormed.extend {first next selector : Selector} (hfirst : first.WellFormed)
    (hnext : next.WellFormed) (hextend : extend next first = some selector) :
    selector.WellFormed := by
  induction hfirst generalizing selector with
  | identity =>
    cases hextend
    exact hnext
  | field hname _ ih =>
    obtain ⟨inner, hinner, rfl⟩ := Option.map_eq_some_iff.1 hextend
    exact .field hname (ih hinner)
  | index hposition _ ih =>
    obtain ⟨inner, hinner, rfl⟩ := Option.map_eq_some_iff.1 hextend
    exact .index hposition (ih hinner)
  | shortcut _ ih =>
    obtain ⟨inner, hinner, rfl⟩ := Option.map_eq_some_iff.1 hextend
    exact .shortcut (ih hinner)
  | map _ ih =>
    obtain ⟨inner, hinner, rfl⟩ := Option.map_eq_some_iff.1 hextend
    exact .map (ih hinner)
  | hardMap _ ih =>
    obtain ⟨inner, hinner, rfl⟩ := Option.map_eq_some_iff.1 hextend
    exact .hardMap (ih hinner)
  | filter _ ih =>
    obtain ⟨inner, hinner, rfl⟩ := Option.map_eq_some_iff.1 hextend
    exact .filter (ih hinner)
  | switch haccepted hotherwise ihaccepted ihotherwise =>
    rw [Selector.extend] at hextend
    split at hextend
    · obtain ⟨inner, hinner, rfl⟩ := Option.map_eq_some_iff.1 hextend
      exact .switch (ihaccepted hinner) hotherwise
    · obtain ⟨inner, hinner, rfl⟩ := Option.map_eq_some_iff.1 hextend
      exact .switch haccepted (ihotherwise hinner)
  | filterQuery hquery _ ih =>
    obtain ⟨inner, hinner, rfl⟩ := Option.map_eq_some_iff.1 hextend
    exact .filterQuery hquery (ih hinner)
  | tuple => cases hextend
  | object => cases hextend

theorem WellFormed.chain {first next selector : Selector} (hfirst : first.WellFormed)
    (hnext : next.WellFormed) (hchain : first.chain next = some selector) :
    selector.WellFormed := by
  unfold Selector.chain at hchain
  split at hchain
  · cases hchain
    exact hfirst
  · exact hfirst.extend hnext hchain

theorem mem_putEntry {key : ObjectKey} {selector : Selector} {entry : ObjectKey × Selector}
    {entries : List (ObjectKey × Selector)} (h : entry ∈ putEntry key selector entries) :
    entry = (key, selector) ∨ entry ∈ entries := by
  induction entries with
  | nil => simpa [putEntry] using h
  | cons head rest ih =>
    obtain ⟨first, existing⟩ := head
    rw [putEntry] at h
    split at h
    · exact (List.mem_cons.1 h).imp id (List.mem_cons_of_mem _)
    · rcases List.mem_cons.1 h with rfl | h
      · exact .inr List.mem_cons_self
      · exact (ih h).imp id (List.mem_cons_of_mem _)

theorem putEntry_ne_nil (key : ObjectKey) (selector : Selector)
    (entries : List (ObjectKey × Selector)) : putEntry key selector entries ≠ [] := by
  cases entries with
  | nil => simp [putEntry]
  | cons head rest =>
    rw [putEntry]
    split <;> simp

theorem nodup_keys_putEntry (key : ObjectKey) (selector : Selector)
    {entries : List (ObjectKey × Selector)} (h : (entries.map Prod.fst).Nodup) :
    ((putEntry key selector entries).map Prod.fst).Nodup := by
  induction entries with
  | nil => simp [putEntry]
  | cons head rest ih =>
    obtain ⟨first, existing⟩ := head
    obtain ⟨hfirst, hrest⟩ := List.nodup_cons.1 h
    rw [putEntry]
    split
    case isTrue heq =>
      subst heq
      exact h
    case isFalse hne =>
      refine List.nodup_cons.2 ⟨fun hmem => ?_, ih hrest⟩
      obtain ⟨entry, hentry, hkey⟩ := List.mem_map.1 hmem
      rcases mem_putEntry hentry with rfl | hentry
      · exact hne hkey.symm
      · exact hfirst (hkey ▸ List.mem_map_of_mem hentry)

theorem forall_mem_putEntry {P : ObjectKey × Selector → Prop} {key : ObjectKey}
    {selector : Selector} {entries : List (ObjectKey × Selector)} (hnew : P (key, selector))
    (h : ∀ entry ∈ entries, P entry) : ∀ entry ∈ putEntry key selector entries, P entry := by
  intro entry hentry
  rcases mem_putEntry hentry with rfl | hentry
  · exact hnew
  · exact h entry hentry

/-- Entries with valid keys and well-formed selectors. -/
structure EntriesWellFormed (entries : List (ObjectKey × Selector)) : Prop where
  valid : ∀ entry ∈ entries, entry.1.IsValid
  wellFormed : ∀ entry ∈ entries, entry.2.WellFormed

theorem EntriesWellFormed.nil : EntriesWellFormed [] :=
  ⟨fun _ hentry => absurd hentry List.not_mem_nil, fun _ hentry => absurd hentry List.not_mem_nil⟩

theorem EntriesWellFormed.cons {key : ObjectKey} {selector : Selector}
    {entries : List (ObjectKey × Selector)} (hkey : key.IsValid) (hselector : selector.WellFormed)
    (h : EntriesWellFormed entries) : EntriesWellFormed ((key, selector) :: entries) :=
  ⟨List.forall_mem_cons.2 ⟨hkey, h.valid⟩, List.forall_mem_cons.2 ⟨hselector, h.wellFormed⟩⟩

theorem EntriesWellFormed.object_foldl {entries merged : List (ObjectKey × Selector)}
    (h : EntriesWellFormed entries) (hmerged : EntriesWellFormed merged)
    (hkeys : (merged.map Prod.fst).Nodup) (hne : entries ≠ [] ∨ merged ≠ []) :
    (Selector.object
      (entries.foldl (fun merged entry => putEntry entry.1 entry.2 merged) merged)).WellFormed := by
  induction entries generalizing merged with
  | nil =>
    exact .object (hne.resolve_left fun h => h rfl) hkeys hmerged.valid hmerged.wellFormed
  | cons entry rest ih =>
    obtain ⟨hvalid, hrestValid⟩ := List.forall_mem_cons.1 h.valid
    obtain ⟨hentry, hrest⟩ := List.forall_mem_cons.1 h.wellFormed
    have hput : EntriesWellFormed (putEntry entry.1 entry.2 merged) :=
      ⟨forall_mem_putEntry (P := fun entry => entry.1.IsValid) hvalid hmerged.valid,
        forall_mem_putEntry (P := fun entry => entry.2.WellFormed) hentry hmerged.wellFormed⟩
    exact ih ⟨hrestValid, hrest⟩ hput (nodup_keys_putEntry _ _ hkeys)
      (.inr (putEntry_ne_nil _ _ _))

theorem EntriesWellFormed.ofEntries {entries : List (ObjectKey × Selector)}
    (h : EntriesWellFormed entries) (hne : entries ≠ []) : (ofEntries entries).WellFormed :=
  h.object_foldl .nil List.nodup_nil (.inl hne)

end Selector

end LinkedDocs
