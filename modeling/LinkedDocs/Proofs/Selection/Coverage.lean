import LinkedDocs.Proofs.Collection.Reading
import LinkedDocs.Proofs.Projection.Part
import LinkedDocs.Proofs.Selector.WellFormed

namespace LinkedDocs

namespace Selector

open Projection

/-- Whether values kept at some paths have what is read; `none` stands for the whole value. -/
def Covers (segments : List (List String)) : Option (List String) → Prop
  | none => [] ∈ segments
  | some paths => ∀ path ∈ paths, ∃ kept ∈ segments, kept <+: splitPath path

theorem covers_of_nil_mem {segments : List (List String)} (hnil : [] ∈ segments)
    (reads : Option (List String)) : Covers segments reads := by
  cases reads with
  | none => exact hnil
  | some paths => exact fun _ _ => ⟨[], hnil, List.nil_prefix⟩

/-- A projection covers the paths at which it is made. -/
theorem covers_kept (paths : List String) : Covers (kept paths) (some paths) := by
  intro path hpath
  obtain ⟨kept, hkept, hparts⟩ := exists_mem_absorb (List.mem_cons_of_mem idField hpath)
  exact ⟨splitPath kept, List.mem_map_of_mem hkept, hparts⟩

theorem covers_absorb {segments : List (List String)} {paths all : List String}
    (hsubset : ∀ path ∈ paths, path ∈ all) (h : Covers segments (some (absorb all))) :
    Covers segments (some paths) := by
  intro path hpath
  obtain ⟨kept, hkept, hparts⟩ := exists_mem_absorb (hsubset path hpath)
  obtain ⟨segment, hsegment, hlonger⟩ := h kept hkept
  exact ⟨segment, hsegment, hlonger.trans hparts⟩

theorem covers_uniteReads {segments : List (List String)} {left right : Option (List String)}
    (h : Covers segments (uniteReads left right)) :
    Covers segments left ∧ Covers segments right := by
  cases left with
  | none => exact ⟨h, covers_of_nil_mem h right⟩
  | some left =>
    cases right with
    | none => exact ⟨covers_of_nil_mem h _, h⟩
    | some right =>
      exact ⟨covers_absorb (fun _ => List.mem_append_left _) h,
        covers_absorb (fun _ => List.mem_append_right _) h⟩

theorem covers_foldl_uniteReads {segments : List (List String)} {rest : List (Option (List String))}
    {first : Option (List String)} (h : Covers segments (rest.foldl uniteReads first)) :
    Covers segments first ∧ ∀ reads ∈ rest, Covers segments reads := by
  induction rest generalizing first with
  | nil => exact ⟨h, fun _ hmem => absurd hmem List.not_mem_nil⟩
  | cons second rest ih =>
    obtain ⟨hunited, hrest⟩ := ih h
    obtain ⟨hfirst, hsecond⟩ := covers_uniteReads hunited
    exact ⟨hfirst, List.forall_mem_cons.2 ⟨hsecond, hrest⟩⟩

/-- What covers united reads covers each of them. -/
theorem covers_of_mem {segments : List (List String)} {all : List (Option (List String))}
    (h : Covers segments (uniteAllReads all)) : ∀ reads ∈ all, Covers segments reads := by
  cases all with
  | nil => exact fun _ hmem => absurd hmem List.not_mem_nil
  | cons first rest =>
    obtain ⟨hfirst, hrest⟩ := covers_foldl_uniteReads h
    exact List.forall_mem_cons.2 ⟨hfirst, hrest⟩

theorem itemReads_eq_map (foreignKeys : ForeignKeys) (above : List String)
    (items : List Selector) :
    itemReads foreignKeys above items = items.map (readsAt foreignKeys above) := by
  induction items with
  | nil => rfl
  | cons item rest ih => rw [itemReads, ih, List.map_cons]

def entryRead (foreignKeys : ForeignKeys) (above : List String) :
    ObjectKey × Selector → Option (List String)
  | (.field name, next) => some (fieldReads foreignKeys (above ++ [name]) name
      (readsAt foreignKeys (above ++ [name]) next))
  | (.wildcard, _) => none

theorem entryReads_eq_map (foreignKeys : ForeignKeys) (above : List String)
    (entries : List (ObjectKey × Selector)) :
    entryReads foreignKeys above entries = entries.map (entryRead foreignKeys above) := by
  induction entries with
  | nil => rfl
  | cons entry rest ih =>
    obtain ⟨key, next⟩ := entry
    cases key <;> rw [entryReads, ih, List.map_cons, entryRead]

/-- What covers the reads through a field keeps the field whole, or covers below it what the
selector of the field reads. -/
theorem covers_fieldReads {segments : List (List String)} (hnil : [] ∉ segments) {name : String}
    (hname : Identifier.isValid name) {foreignKeys : ForeignKeys} {path : List String}
    {reads : Option (List String)}
    (h : Covers segments (some (fieldReads foreignKeys path name reads))) :
    [] ∈ below name segments ∨ foreignKeys.contains (joinPath path) = false ∧ reads ≠ none ∧
      Covers (below name segments) reads := by
  have hwhole (h : Covers segments (some [name])) : [] ∈ below name segments := by
    obtain ⟨segment, hsegment, hparts⟩ := h name List.mem_cons_self
    rw [splitPath_eq_singleton (Identifier.dot_notMem hname)] at hparts
    cases segment with
    | nil => exact absurd hsegment hnil
    | cons first rest =>
      obtain ⟨rfl, hrest⟩ := List.cons_prefix_cons.1 hparts
      exact mem_below_iff.2 (List.prefix_nil.1 hrest ▸ hsegment)
  unfold fieldReads at h
  split at h
  case isTrue => exact .inl (hwhole h)
  case isFalse hforeign =>
    cases reads with
    | none => exact .inl (hwhole h)
    | some paths =>
      refine .inr ⟨Bool.eq_false_iff.2 hforeign, Option.some_ne_none _, fun path hpath => ?_⟩
      obtain ⟨segment, hsegment, hparts⟩ := h _ (List.mem_map_of_mem hpath)
      rw [splitPath_cons (Identifier.dot_notMem hname)] at hparts
      cases segment with
      | nil => exact absurd hsegment hnil
      | cons first rest =>
        obtain ⟨rfl, hrest⟩ := List.cons_prefix_cons.1 hparts
        exact ⟨rest, mem_below_iff.2 hsegment, hrest⟩

theorem ne_nil_of_covers {segments : List (List String)} {reads : Option (List String)}
    (h : Covers segments reads) (hreads : reads ≠ some []) : segments ≠ [] := by
  rintro rfl
  cases reads with
  | none => exact List.not_mem_nil h
  | some paths =>
    cases paths with
    | nil => exact hreads rfl
    | cons path rest =>
      obtain ⟨segment, hsegment, -⟩ := h path List.mem_cons_self
      exact List.not_mem_nil hsegment

theorem fieldReads_ne_nil {foreignKeys : ForeignKeys} {path : List String} {name : String}
    {reads : Option (List String)} (h : reads ≠ some []) :
    fieldReads foreignKeys path name reads ≠ [] := by
  unfold fieldReads
  split
  · exact List.cons_ne_nil _ _
  · cases reads with
    | none => exact List.cons_ne_nil _ _
    | some paths =>
      intro hnil
      exact h (congrArg some (List.map_eq_nil_iff.1 hnil))

theorem uniteReads_ne_nil {left right : Option (List String)} (h : left ≠ some []) :
    uniteReads left right ≠ some [] := by
  intro hunited
  cases left with
  | none => cases hunited
  | some left =>
    cases right with
    | none => cases hunited
    | some right =>
      cases left with
      | nil => exact h rfl
      | cons path rest =>
        obtain ⟨kept, hkept, -⟩ :=
          exists_mem_absorb (List.mem_append_left right (List.mem_cons_self (a := path) (l := rest)))
        simp only [uniteReads, Option.some.injEq] at hunited
        exact List.not_mem_nil (hunited ▸ hkept)

theorem foldl_uniteReads_ne_nil {rest : List (Option (List String))} {first : Option (List String)}
    (h : first ≠ some []) : rest.foldl uniteReads first ≠ some [] := by
  induction rest generalizing first with
  | nil => exact h
  | cons second rest ih => exact ih (uniteReads_ne_nil h)

theorem uniteAllReads_ne_nil {all : List (Option (List String))} (hne : all ≠ [])
    (h : ∀ reads ∈ all, reads ≠ some []) : uniteAllReads all ≠ some [] := by
  cases all with
  | nil => exact absurd rfl hne
  | cons first rest => exact foldl_uniteReads_ne_nil (h first List.mem_cons_self)

theorem WellFormed.readsAt_ne_nil {selector : Selector} (h : selector.WellFormed)
    (foreignKeys : ForeignKeys) (above : List String) :
    readsAt foreignKeys above selector ≠ some [] := by
  induction h generalizing above with
  | identity => exact (Option.some_ne_none _).symm
  | filter => exact (Option.some_ne_none _).symm
  | switch => exact (Option.some_ne_none _).symm
  | shortcut => exact (Option.some_ne_none _).symm
  | field _ _ ih => exact fun hnil => fieldReads_ne_nil (ih _) (Option.some.inj hnil)
  | index _ _ ih => exact ih above
  | map _ ih => exact ih above
  | hardMap _ ih => exact ih above
  | filterQuery _ _ ih => exact ih above
  | tuple hne _ ih =>
    rw [readsAt, itemReads_eq_map]
    refine uniteAllReads_ne_nil (by simpa using hne) fun reads hreads => ?_
    obtain ⟨item, hitem, rfl⟩ := List.mem_map.1 hreads
    exact ih item hitem above
  | object hne _ _ _ ih =>
    rw [readsAt, entryReads_eq_map]
    refine uniteAllReads_ne_nil (by simpa using hne) fun reads hreads => ?_
    obtain ⟨⟨key, next⟩, hentry, rfl⟩ := List.mem_map.1 hreads
    cases key with
    | field name => exact fun hnil => fieldReads_ne_nil (ih _ hentry _) (Option.some.inj hnil)
    | wildcard => exact (Option.some_ne_none _).symm

theorem foldl_uniteReads_eq_some {rest : List (Option (List String))} {first : Option (List String)}
    {paths : List String} (h : rest.foldl uniteReads first = some paths) : first ≠ none := by
  induction rest generalizing first with
  | nil => simp_all
  | cons second rest ih =>
    rintro rfl
    exact ih h rfl

variable [Platform]
variable (options : SelectionOptions) (session : Session)

/-- A selector that reads some paths only needs a field, an item or a set of documents, and an
object without fields has none of them. -/
theorem WellFormed.result?_resolve_empty {selector : Selector} (h : selector.WellFormed)
    {foreignKeys : ForeignKeys} {above : List String}
    (hreads : readsAt foreignKeys above selector ≠ none) (place : Place) :
    (selector.resolve options (.value (.object [])) place).result? session = none := by
  induction h generalizing above place with
  | identity => exact absurd rfl hreads
  | filter => exact absurd rfl hreads
  | switch => exact absurd rfl hreads
  | shortcut => exact absurd rfl hreads
  | field => rfl
  | index => rfl
  | map => rfl
  | hardMap => rfl
  | filterQuery => rfl
  | @tuple items hne _ ih =>
    cases items with
    | nil => exact absurd rfl hne
    | cons first rest =>
      have hfirst : readsAt foreignKeys above first ≠ none := by
        obtain ⟨paths, hpaths⟩ := Option.ne_none_iff_exists'.1 hreads
        rw [readsAt, itemReads_eq_map, List.map_cons, uniteAllReads] at hpaths
        exact foldl_uniteReads_eq_some hpaths
      have hfails := ih first List.mem_cons_self hfirst place
      rw [resolve, (reads_resolveItems _ _ _ _).result?_bind fun _ => .pure _, resolveItems,
        (reads_resolve _ _ _ _).result?_bind
          fun _ => .bind (reads_resolveItems _ _ _ _) fun _ => .pure _,
        hfails]
      rfl
  | @object entries hne _ _ _ _ =>
    cases entries with
    | nil => exact absurd rfl hne
    | cons first rest =>
      obtain ⟨key, next⟩ := first
      cases key with
      | field name => rfl
      | wildcard =>
        obtain ⟨paths, hpaths⟩ := Option.ne_none_iff_exists'.1 hreads
        rw [readsAt, entryReads_eq_map, List.map_cons, uniteAllReads] at hpaths
        exact absurd rfl (foldl_uniteReads_eq_some hpaths)

end Selector

end LinkedDocs
