import LinkedDocs.Platform.Native
import LinkedDocs.Proofs.Selection.Coverage
import LinkedDocs.Proofs.Selector.Producing
import LinkedDocs.Proofs.Store.Finding

/-!
Selecting from a set of documents reads only the paths that the selector can reach, and by index
only one document. That is not seen in the result: it is the one of resolving the selector against
the array of all matching documents, each of them whole.
-/

namespace LinkedDocs

open Projection

/-- A place in the documents of a collection, up to the indices on the way to it. -/
structure Place.IsAt (place : Place) (collection : Collection) (names : List String) : Prop where
  collection_eq : place.collection = collection
  names_eq : stackNames place.stack = names

namespace Place.IsAt

variable {place : Place} {collection : Collection} {names : List String}

theorem index (h : place.IsAt collection names) (position : Nat) :
    (place.below (.index position)).IsAt collection names :=
  ⟨h.collection_eq, (stackNames_index _ _).trans h.names_eq⟩

theorem key (h : place.IsAt collection names) {name : String} (hname : Identifier.isValid name) :
    (place.below (.key name)).IsAt collection (names ++ [name]) :=
  ⟨h.collection_eq, (stackNames_key hname _).trans (by rw [h.names_eq])⟩

end Place.IsAt

def SelectionOptions.foreignKeys (options : SelectionOptions) (collection : Collection) :
    ForeignKeys :=
  if options.followForeignKeys then collection.foreignKeys else .empty

section

variable [Platform]

namespace Resolution

variable (options : SelectionOptions) (session : Session)

theorem follow_of_not_contains {place : Place} {collection : Collection} {names : List String}
    (hplace : place.IsAt collection names)
    (h : (options.foreignKeys collection).contains (joinPath names) = false) (next : Selector)
    (resolution : Resolution) (value : Json) :
    follow options next resolution place value = resolution (.value value) place := by
  have hnone : (if options.followForeignKeys then place.collection.foreignKeyAt? place.stack
      else none) = none := by
    rw [Collection.foreignKeyAt?, canonicalKey_eq, hplace.collection_eq, hplace.names_eq]
    simp only [SelectionOptions.foreignKeys, NameMap.contains] at h
    split <;> simp_all
  unfold follow
  rw [hnone]

section Spread

variable {f : Json → Place → Access Json} {segments : List (List String)}
  {collection : Collection} {names : List String}

omit [Platform] in
mutual

/-- What a resolution of objects does not miss, it does not miss in arrays of them either. -/
theorem result?_spread_itemPart (hf : ∀ value place, (f value place).Reads)
    (hnil : [] ∉ segments) (hne : segments ≠ [])
    (hobject : ∀ place : Place, place.IsAt collection names → ∀ fields,
      (f (.object fields) place).result? session =
        (f (itemPart segments (.object fields)) place).result? session)
    (value : Json) (place : Place) (hplace : place.IsAt collection names) :
    (spread f place value).result? session =
      (spread f place (itemPart segments value)).result? session := by
  cases value with
  | object fields =>
    have hsame := hobject place hplace fields
    obtain ⟨kept, hkept, -⟩ := itemPart_object hnil fields
    rw [hkept] at hsame ⊢
    exact hsame
  | array items =>
    rw [itemPart_array hnil hne, spread, spread,
      (Resolution.reads_spreadItems hf _ _ _).result?_bind fun _ => .pure _,
      (Resolution.reads_spreadItems hf _ _ _).result?_bind fun _ => .pure _,
      result?_spreadItems_itemPart hf hnil hne hobject items place hplace 0]
  | _ => rw [itemPart_of_scalar hne rfl rfl]
termination_by structural value

theorem result?_spreadItems_itemPart (hf : ∀ value place, (f value place).Reads)
    (hnil : [] ∉ segments) (hne : segments ≠ [])
    (hobject : ∀ place : Place, place.IsAt collection names → ∀ fields,
      (f (.object fields) place).result? session =
        (f (itemPart segments (.object fields)) place).result? session)
    (items : List Json) (place : Place) (hplace : place.IsAt collection names) (position : Nat) :
    (spreadItems f place position items).result? session =
      (spreadItems f place position (items.map (itemPart segments))).result? session := by
  cases items with
  | nil => rfl
  | cons item rest =>
    have hreads (value : Json) := Resolution.reads_spread hf (place.below (.index position)) value
    have hothers (items : List Json) := Resolution.reads_spreadItems hf place (position + 1) items
    rw [List.map_cons, spreadItems, spreadItems,
      (hreads _).result?_bind fun _ => .bind (hothers _) fun _ => .pure _,
      (hreads _).result?_bind fun _ => .bind (hothers _) fun _ => .pure _,
      result?_spread_itemPart hf hnil hne hobject item _ (hplace.index position)]
    congr 1
    funext resolved
    rw [(hothers _).result?_bind fun _ => .pure _, (hothers _).result?_bind fun _ => .pure _,
      result?_spreadItems_itemPart hf hnil hne hobject rest place hplace (position + 1)]
termination_by structural items

end

end Spread

omit [Platform] in
theorem result?_eachFrom_map {resolution : Resolution} (hreads : resolution.Reads)
    {collection : Collection} {names : List String} {change : Json → Json}
    (hsame : ∀ place : Place, place.IsAt collection names → ∀ value,
      (resolution (.value value) place).result? session =
        (resolution (.value (change value)) place).result? session)
    {place : Place} (hplace : place.IsAt collection names) (position : Nat) (items : List Json) :
    (resolution.eachFrom place position items).result? session =
      (resolution.eachFrom place position (items.map change)).result? session := by
  induction items generalizing position with
  | nil => rfl
  | cons item rest ih =>
    have hothers (items : List Json) := reads_eachFrom hreads place (position + 1) items
    rw [List.map_cons, eachFrom, eachFrom,
      (hreads _ _).result?_bind fun _ => .bind (hothers _) fun _ => .pure _,
      (hreads _ _).result?_bind fun _ => .bind (hothers _) fun _ => .pure _,
      hsame _ (hplace.index position)]
    congr 1
    funext resolved
    rw [(hothers _).result?_bind fun _ => .pure _, (hothers _).result?_bind fun _ => .pure _, ih]

end Resolution

/-- A set of documents that has the given ones when it is read. -/
structure LazyDocuments.Holds (documents : LazyDocuments) (session : Session)
    (items : List Json) : Prop where
  fetch : documents.fetch.answer session = .ok items
  fetchOne : ∀ position, (documents.fetchOne position).answer session =
    .ok (items[position]?.getD .null)

namespace Selector

variable (options : SelectionOptions) (session : Session)

/-- That, at a place, a selector resolves against the part of a value as against the value, wherever
the part covers what it reads. -/
def ResolvesParts (selector : Selector) (collection : Collection) (names : List String) : Prop :=
  ∀ segments : List (List String), segments.Pairwise Apart →
    Covers segments (readsAt (options.foreignKeys collection) names selector) →
    ∀ place : Place, place.IsAt collection names → ∀ value,
      (selector.resolve options (.value value) place).result? session =
        (selector.resolve options (.value (itemPart segments value)) place).result? session

variable {options session}

theorem result?_field_itemPart {next : Selector} (hwellFormed : next.WellFormed) {name : String}
    (hname : Identifier.isValid name) {collection : Collection} {names : List String}
    (hnext : next.ResolvesParts options session collection (names ++ [name]))
    {segments : List (List String)} (hapart : segments.Pairwise Apart) (hnil : [] ∉ segments)
    (hcovers : Covers segments (some (fieldReads (options.foreignKeys collection) (names ++ [name])
      name (readsAt (options.foreignKeys collection) (names ++ [name]) next))))
    {place : Place} (hplace : place.IsAt collection names) {fields kept : List (String × Json)}
    (hkept : ∀ name, lookupName name kept =
      (lookupName name fields).bind (part? (below name segments))) :
    (Resolution.field options name next (next.resolve options) place fields).result? session =
      (Resolution.field options name next (next.resolve options) place kept).result? session := by
  unfold Resolution.field
  rw [hkept]
  cases hchild : lookupName name fields with
  | none => rfl
  | some child =>
    rw [Option.bind_some]
    rcases covers_fieldReads hnil hname hcovers with hwhole | ⟨hforeign, hreads, hbelow⟩
    · rw [part?_of_nil_mem (apart_below hapart name) hwhole]
    · have hresolves := hnext (below name segments) (apart_below hapart name) hbelow _
        (hplace.key hname) child
      have hfollow (value : Json) := Resolution.follow_of_not_contains options (hplace.key hname)
        hforeign next (next.resolve options) value
      cases hpart : part? (below name segments) child with
      | some part =>
        rw [itemPart, hpart, Option.getD_some] at hresolves
        dsimp only
        rw [hfollow, hfollow, hresolves]
      | none =>
        rw [itemPart, hpart, Option.getD_none,
          hwellFormed.result?_resolve_empty options session hreads] at hresolves
        dsimp only
        rw [hfollow, hresolves]
        rfl

/-- Only parts that are not the whole value, and that are not empty, need a proof. -/
theorem WellFormed.resolvesParts_of {selector : Selector} (h : selector.WellFormed)
    {collection : Collection} {names : List String}
    (hparts : ∀ segments : List (List String), segments.Pairwise Apart → [] ∉ segments →
      segments ≠ [] → Covers segments (readsAt (options.foreignKeys collection) names selector) →
      ∀ place : Place, place.IsAt collection names → ∀ value,
        (selector.resolve options (.value value) place).result? session =
          (selector.resolve options (.value (itemPart segments value)) place).result? session) :
    selector.ResolvesParts options session collection names := by
  intro segments hapart hcovers place hplace value
  by_cases hnil : [] ∈ segments
  · rw [itemPart_of_nil_mem hapart hnil]
  · have hne := ne_nil_of_covers hcovers (h.readsAt_ne_nil _ _)
    exact hparts segments hapart hnil hne hcovers place hplace value

theorem resolvesParts_of_reads_eq_none {selector : Selector} {collection : Collection}
    {names : List String}
    (h : readsAt (options.foreignKeys collection) names selector = none) :
    selector.ResolvesParts options session collection names := by
  intro segments hapart hcovers place hplace value
  rw [h] at hcovers
  rw [itemPart_of_nil_mem hapart hcovers]

variable {collection : Collection} {names : List String} {next : Selector}

theorem ResolvesParts.field (hwellFormed : next.WellFormed) {name : String}
    (hname : Identifier.isValid name)
    (hnext : next.ResolvesParts options session collection (names ++ [name])) :
    (Selector.field name next).ResolvesParts options session collection names := by
  refine (WellFormed.field hname hwellFormed).resolvesParts_of ?_
  intro segments hapart hnil hne hcovers place hplace value
  rw [resolve, resolve]
  simp only [Subject.read, pure_bind]
  refine Resolution.result?_spread_itemPart session (fun value place => ?_) hnil hne
    (fun place hplace fields => ?_) value place hplace
  · split
    · exact Resolution.reads_field _ _ _ (reads_resolve _ next) _ _
    · exact .throw _
  · obtain ⟨kept, hpart, -, hkept⟩ := itemPart_object hnil fields
    rw [hpart]
    exact result?_field_itemPart hwellFormed hname hnext hapart hnil hcovers hplace hkept

theorem ResolvesParts.index (hwellFormed : next.WellFormed) {position : Nat}
    (hposition : position < UInt64.size)
    (hnext : next.ResolvesParts options session collection names) :
    (Selector.index position next).ResolvesParts options session collection names := by
  refine (WellFormed.index hposition hwellFormed).resolvesParts_of ?_
  intro segments hapart hnil hne hcovers place hplace value
  cases value with
  | array items =>
    rw [itemPart_array hnil hne, resolve, resolve]
    simp only [pure_bind, List.getElem?_map]
    cases hitem : items[position]? with
    | none => rfl
    | some item => exact hnext segments hapart hcovers _ (hplace.index position) item
  | object fields =>
    obtain ⟨kept, hpart, -⟩ := itemPart_object hnil fields
    rw [hpart]
    rfl
  | _ => rw [itemPart_of_scalar hne rfl rfl]

/-- Resolving against each item of the part of an array, whatever is then made of the results. -/
theorem result?_each_itemPart (hnext : next.ResolvesParts options session collection names)
    {segments : List (List String)} (hapart : segments.Pairwise Apart) (hnil : [] ∉ segments)
    (hne : segments ≠ [])
    (hcovers : Covers segments (readsAt (options.foreignKeys collection) names next))
    {place : Place} (hplace : place.IsAt collection names) (finish : List Json → Json)
    (value : Json) :
    (do
      let items ← place.items .notMappable (.value value)
      return finish (← Resolution.each (next.resolve options) place items) :
        Access Json).result? session =
      (do
        let items ← place.items .notMappable (.value (itemPart segments value))
        return finish (← Resolution.each (next.resolve options) place items) :
          Access Json).result? session := by
  cases value with
  | array items =>
    have heach := Resolution.result?_eachFrom_map session (reads_resolve options next)
      (fun place hplace value => hnext segments hapart hcovers place hplace value) hplace 0 items
    have hreads (items : List Json) :=
      Resolution.reads_eachFrom (reads_resolve options next) place 0 items
    rw [itemPart_array hnil hne]
    simp only [Place.items, Subject.read, pure_bind, Resolution.each]
    rw [(hreads _).result?_bind fun _ => .pure _, (hreads _).result?_bind fun _ => .pure _, heach]
  | object fields =>
    obtain ⟨kept, hpart, -⟩ := itemPart_object hnil fields
    rw [hpart]
    rfl
  | _ => rw [itemPart_of_scalar hne rfl rfl]

theorem ResolvesParts.map (hwellFormed : next.WellFormed)
    (hnext : next.ResolvesParts options session collection names) :
    (Selector.map next).ResolvesParts options session collection names := by
  refine (WellFormed.map hwellFormed).resolvesParts_of ?_
  intro segments hapart hnil hne hcovers place hplace value
  exact result?_each_itemPart hnext hapart hnil hne hcovers hplace
    (fun resolved => .array (Resolution.flatten resolved)) value

theorem ResolvesParts.hardMap (hwellFormed : next.WellFormed)
    (hnext : next.ResolvesParts options session collection names) :
    (Selector.hardMap next).ResolvesParts options session collection names := by
  refine (WellFormed.hardMap hwellFormed).resolvesParts_of ?_
  intro segments hapart hnil hne hcovers place hplace value
  exact result?_each_itemPart hnext hapart hnil hne hcovers hplace .array value

theorem resolvesParts_filterQuery (query : Json) (next : Selector) :
    (Selector.filterQuery query next).ResolvesParts options session collection names := by
  intro segments hapart hcovers place hplace value
  rfl

theorem ResolvesParts.tuple {items : List Selector}
    (hitems : ∀ item ∈ items, item.ResolvesParts options session collection names) :
    (Selector.tuple items).ResolvesParts options session collection names := by
  intro segments hapart hcovers place hplace value
  rw [readsAt, itemReads_eq_map] at hcovers
  have hall : ∀ item ∈ items,
      Covers segments (readsAt (options.foreignKeys collection) names item) :=
    fun item hitem => covers_of_mem hcovers _ (List.mem_map_of_mem hitem)
  have hreads (items : List Selector) (value : Json) :=
    reads_resolveItems options items (.value value) place
  rw [resolve, resolve, (hreads _ _).result?_bind fun _ => .pure _,
    (hreads _ _).result?_bind fun _ => .pure _]
  congr 1
  clear hcovers
  induction items with
  | nil => rfl
  | cons item rest ih =>
    obtain ⟨hitem, hrest⟩ := List.forall_mem_cons.1 hitems
    obtain ⟨hitemCovers, hrestCovers⟩ := List.forall_mem_cons.1 hall
    rw [resolveItems, resolveItems,
      (reads_resolve _ item _ _).result?_bind fun _ => .bind (hreads _ _) fun _ => .pure _,
      (reads_resolve _ item _ _).result?_bind fun _ => .bind (hreads _ _) fun _ => .pure _,
      hitem segments hapart hitemCovers place hplace value]
    congr 1
    funext resolved
    rw [(hreads _ _).result?_bind fun _ => .pure _, (hreads _ _).result?_bind fun _ => .pure _,
      ih hrest hrestCovers]

theorem result?_resolveEntries_itemPart {entries : List (ObjectKey × Selector)}
    (hvalid : ∀ entry ∈ entries, entry.1.IsValid) (hwellFormed : ∀ entry ∈ entries, entry.2.WellFormed)
    (hentries : ∀ entry ∈ entries, ∀ names,
      entry.2.ResolvesParts options session collection names)
    {segments : List (List String)} (hapart : segments.Pairwise Apart) (hnil : [] ∉ segments)
    (hcovers : ∀ entry ∈ entries,
      Covers segments (entryRead (options.foreignKeys collection) names entry))
    (listed : List String) {place : Place} (hplace : place.IsAt collection names)
    {fields kept : List (String × Json)}
    (hkept : ∀ name, lookupName name kept =
      (lookupName name fields).bind (part? (below name segments))) :
    (resolveEntries options listed fields place entries).result? session =
      (resolveEntries options listed kept place entries).result? session := by
  induction entries with
  | nil => rfl
  | cons entry rest ih =>
    obtain ⟨key, next⟩ := entry
    obtain ⟨hkey, hrestValid⟩ := List.forall_mem_cons.1 hvalid
    obtain ⟨hnextWellFormed, hrestWellFormed⟩ := List.forall_mem_cons.1 hwellFormed
    obtain ⟨hnext, hrest⟩ := List.forall_mem_cons.1 hentries
    obtain ⟨hkeyCovers, hrestCovers⟩ := List.forall_mem_cons.1 hcovers
    cases key with
    | wildcard => exact absurd hkeyCovers hnil
    | field name =>
      have hfield := result?_field_itemPart hnextWellFormed hkey (hnext _) hapart hnil hkeyCovers
        hplace hkept
      have hreads (fields : List (String × Json)) :=
        Resolution.reads_field options name next (reads_resolve options next) place fields
      have hothers (fields : List (String × Json)) :=
        reads_resolveEntries options listed fields place rest
      simp only [resolveEntries, Resolution.fields, pure_bind, bind_assoc]
      rw [(hreads _).result?_bind fun _ => .bind (hothers _) fun _ => .pure _,
        (hreads _).result?_bind fun _ => .bind (hothers _) fun _ => .pure _, hfield]
      congr 1
      funext resolved
      rw [(hothers _).result?_bind fun _ => .pure _, (hothers _).result?_bind fun _ => .pure _,
        ih hrestValid hrestWellFormed hrest hrestCovers]

theorem ResolvesParts.object {entries : List (ObjectKey × Selector)}
    (hwellFormed : (Selector.object entries).WellFormed)
    (hvalid : ∀ entry ∈ entries, entry.1.IsValid) (hnexts : ∀ entry ∈ entries, entry.2.WellFormed)
    (hentries : ∀ entry ∈ entries, ∀ names,
      entry.2.ResolvesParts options session collection names) :
    (Selector.object entries).ResolvesParts options session collection names := by
  refine hwellFormed.resolvesParts_of ?_
  intro segments hapart hnil hne hcovers place hplace value
  rw [readsAt, entryReads_eq_map] at hcovers
  have hall : ∀ entry ∈ entries,
      Covers segments (entryRead (options.foreignKeys collection) names entry) :=
    fun entry hentry => covers_of_mem hcovers _ (List.mem_map_of_mem hentry)
  rw [resolve, resolve]
  simp only [Subject.read, pure_bind]
  refine Resolution.result?_spread_itemPart session (fun value place => ?_) hnil hne
    (fun place hplace fields => ?_) value place hplace
  · split
    · exact .bind (reads_resolveEntries _ _ _ _ entries) fun _ => .pure _
    · exact .throw _
  · obtain ⟨kept, hpart, -, hkept⟩ := itemPart_object hnil fields
    have hsame := result?_resolveEntries_itemPart hvalid hnexts hentries hapart hnil hall
      (listedNames entries) hplace hkept
    have hreads (fields : List (String × Json)) :=
      reads_resolveEntries options (listedNames entries) fields place entries
    rw [hpart]
    dsimp only
    rw [(hreads _).result?_bind fun _ => .pure _, (hreads _).result?_bind fun _ => .pure _, hsame]

/-- A well-formed selector does not tell the part of a value that covers its reads from
the value. -/
theorem WellFormed.resolvesParts {selector : Selector} (h : selector.WellFormed)
    (collection : Collection) (names : List String) :
    selector.ResolvesParts options session collection names := by
  induction h generalizing names with
  | identity => exact resolvesParts_of_reads_eq_none rfl
  | filter => exact resolvesParts_of_reads_eq_none rfl
  | switch => exact resolvesParts_of_reads_eq_none rfl
  | shortcut => exact resolvesParts_of_reads_eq_none rfl
  | field hname hnext ih => exact .field hnext hname (ih _)
  | index hposition hnext ih => exact .index hnext hposition (ih names)
  | map hnext ih => exact .map hnext (ih names)
  | hardMap hnext ih => exact .hardMap hnext (ih names)
  | filterQuery => exact resolvesParts_filterQuery _ _
  | tuple _ _ ih => exact .tuple fun item hitem => ih item hitem names
  | object hne hkeys hvalid hentries ih =>
    exact .object (.object hne hkeys hvalid hentries) hvalid hentries ih

mutual

/-- Whether a filter query narrows the very set that the selector is resolved against. -/
def queriesRoot (selector : Selector) : Bool :=
  match selector with
  | .filterQuery _ _ => true
  | .shortcut next => queriesRoot next
  | .tuple items => anyQueriesRoot items
  | .identity => false
  | .field _ _ => false
  | .index _ _ => false
  | .map _ => false
  | .hardMap _ => false
  | .filter _ _ => false
  | .switch _ _ _ => false
  | .object _ => false
termination_by structural selector

def anyQueriesRoot (items : List Selector) : Bool :=
  match items with
  | [] => false
  | item :: rest => queriesRoot item || anyQueriesRoot rest
termination_by structural items

end

section Documents

variable {documents : LazyDocuments} {items : List Json}

/-- What follows the reading of a set of documents gets the array of its documents. -/
theorem result?_read_bind (h : documents.Holds session items) {β : Type} {next : Json → Access β}
    (hnext : ∀ value, (next value).Reads) :
    ((Subject.documents documents).read >>= next).result? session =
      (next (.array items)).result? session := by
  have hread : (Subject.documents documents).read.result? session = some (.array items) := by
    rw [Subject.read, documents.reads_fetch.result?_bind fun _ => .pure _, Access.result?, h.fetch]
    rfl
  rw [(Subject.reads_read _).result?_bind hnext, hread, Option.bind_some]

theorem result?_items_bind (h : documents.Holds session items) (place : Place)
    (fault : Json → ResolutionFault) {β : Type} {next : List Json → Access β}
    (hnext : ∀ items, (next items).Reads) :
    (place.items fault (.documents documents) >>= next).result? session =
      (next items).result? session := by
  have hitems : (place.items fault (.documents documents)).result? session = some items := by
    refine (result?_read_bind h fun value => ?_).trans rfl
    cases value with
    | array items => exact .pure _
    | _ => exact .throw _
  rw [(Place.reads_items _ _ _).result?_bind hnext, hitems, Option.bind_some]

mutual

/-- A set of documents that no filter query narrows resolves as the array of its documents. -/
theorem result?_resolve_documents (h : documents.Holds session items) (selector : Selector)
    (hroot : selector.queriesRoot = false) (place : Place) :
    (selector.resolve options (.documents documents) place).result? session =
      (selector.resolve options (.value (.array items)) place).result? session := by
  cases selector with
  | identity =>
    rw [resolve, resolve, ← bind_pure (Subject.documents documents).read]
    exact result?_read_bind h fun _ => .pure _
  | field name next =>
    refine result?_read_bind h fun _ => Resolution.reads_spread (fun value place => ?_) _ _
    split
    · exact Resolution.reads_field _ _ _ (reads_resolve _ next) _ _
    · exact .throw _
  | index position next =>
    have hone : (documents.fetchOne position).result? session =
        some (items[position]?.getD .null) := by
      rw [Access.result?, h.fetchOne]
      rfl
    rw [resolve, resolve]
    dsimp only
    rw [(documents.reads_fetchOne _).result?_bind fun _ => reads_resolve _ next _ _, hone]
    rfl
  | shortcut next => exact result?_resolve_documents h next hroot place
  | map next =>
    exact result?_items_bind h place _ fun _ =>
      .bind (Resolution.reads_eachFrom (reads_resolve _ next) _ _ _) fun _ => .pure _
  | hardMap next =>
    exact result?_items_bind h place _ fun _ =>
      .bind (Resolution.reads_eachFrom (reads_resolve _ next) _ _ _) fun _ => .pure _
  | filter predicate next =>
    exact result?_items_bind h place _ fun _ => reads_resolve _ next _ _
  | switch predicate accepted otherwise =>
    refine result?_read_bind h fun _ => ?_
    split
    · exact reads_resolve _ accepted _ _
    · exact reads_resolve _ otherwise _ _
  | filterQuery query next => cases hroot
  | tuple selectors =>
    rw [resolve, resolve, (reads_resolveItems _ _ _ _).result?_bind fun _ => .pure _,
      (reads_resolveItems _ _ _ _).result?_bind fun _ => .pure _,
      result?_resolveItems_documents h selectors hroot place]
  | object entries =>
    refine result?_read_bind h fun _ => Resolution.reads_spread (fun value place => ?_) _ _
    split
    · exact .bind (reads_resolveEntries _ _ _ _ entries) fun _ => .pure _
    · exact .throw _
termination_by structural selector

theorem result?_resolveItems_documents (h : documents.Holds session items)
    (selectors : List Selector) (hroot : anyQueriesRoot selectors = false) (place : Place) :
    (resolveItems options selectors (.documents documents) place).result? session =
      (resolveItems options selectors (.value (.array items)) place).result? session := by
  cases selectors with
  | nil => rfl
  | cons item rest =>
    obtain ⟨hitem, hrest⟩ := Bool.or_eq_false_iff.1 hroot
    have hothers (subject : Subject) := reads_resolveItems options rest subject place
    rw [resolveItems, resolveItems,
      (reads_resolve _ item _ _).result?_bind fun _ => .bind (hothers _) fun _ => .pure _,
      (reads_resolve _ item _ _).result?_bind fun _ => .bind (hothers _) fun _ => .pure _,
      result?_resolve_documents h item hitem place]
    congr 1
    funext resolved
    rw [(hothers _).result?_bind fun _ => .pure _, (hothers _).result?_bind fun _ => .pure _,
      result?_resolveItems_documents h rest hrest place]
termination_by structural selectors

end

end Documents

end Selector

end

namespace Collection

open Selector

section

variable [Platform]

/-- Selecting from the documents of a query, of which only what is needed is read, gives what
resolving the selector against all of them, read whole, gives. -/
theorem result?_select_eq_resolve (collection : Collection) (options : SelectionOptions)
    (session : Session) (filter : Json) (documents : List Json) (selector : Selector)
    (hproducible : selector.Producible) (hroot : selector.queriesRoot = false)
    (hfind : (collection.find filter).answer session = .ok documents) :
    (collection.select options filter selector).result? session =
      (collection.resolve options selector (.array documents)).result? session := by
  have hlazy (projection : Option (List String)) :
      ({ collection.lazy filter with projection } : LazyDocuments).Holds session
        (documents.map (Store.view projection)) :=
    ⟨LazyDocuments.answer_fetch hfind projection, LazyDocuments.answer_fetchOne hfind projection⟩
  refine (result?_resolve_documents (hlazy _) selector hroot ⟨collection, []⟩).trans ?_
  change (selector.resolve options (.value (.array (documents.map (Store.view
    (selector.reads (options.foreignKeys collection)))))) ⟨collection, []⟩).result? session = _
  cases hreads : selector.reads (options.foreignKeys collection) with
  | none =>
    rw [show Store.view none = id from rfl, List.map_id]
    rfl
  | some paths =>
    have hcovers : Covers (kept paths) (selector.reads (options.foreignKeys collection)) :=
      hreads ▸ covers_kept paths
    have hparts : selector.ResolvesParts options session collection [] :=
      hproducible.wellFormed.resolvesParts collection []
    have hsame := hparts (kept paths) (apart_absorb _) hcovers ⟨collection, []⟩ ⟨rfl, rfl⟩
      (.array documents)
    rw [itemPart_array (nil_notMem_kept paths) (kept_ne_nil paths)] at hsame
    rw [show Store.view (some paths) = itemPart (kept paths) from
      funext (project_eq_itemPart paths)]
    exact hsame.symm

end

/-- People who refer to a friend. -/
def friends : Collection where
  graph := { collections := .ofList [("people", { foreignKeys := .ofList [("friend",
    { path := ["friend"], collection := "people", onInsert := .bypass, onDelete := .bypass,
      updater := none })] })] }
  name := "people"

def twoFriends : List Json :=
  [.object [("_id", .string "ann"), ("name", .string "Ann"), ("friend", .string "bob")],
    .object [("_id", .string "bob"), ("name", .string "Bob"), ("friend", .null)]]

def friendsSession : Session where
  store := { collections := .ofList [("people", twoFriends)] }

def friendName : Selector := .index 0 (.field "friend" (.field "name" .identity))

theorem parse_friendName : parse "0.friend.name" = .ok friendName := by
  have hlex : lex "0.friend.name" = [⟨.index "0", 0⟩, ⟨.field "friend", 2⟩, ⟨.field "name", 9⟩] := by
    decide +kernel
  refine parseWith_of_readSelector hlex ?_
  simp only [readSelector, decimalValue?, UInt64.size]
  rfl

/-- The name of the friend of the first person, from the set of people and from all of them. -/
theorem result?_select_friendName :
    (friends.find (.object [])).answer friendsSession = .ok twoFriends ∧
      (friends.select {} (.object []) friendName).result? friendsSession = some (.string "Bob") ∧
      (friends.resolve {} friendName (.array twoFriends)).result? friendsSession =
        some (.string "Bob") := by
  have hfind : (friends.find (.object [])).answer friendsSession = .ok twoFriends := rfl
  have hproducible : friendName.Producible :=
    .parsed (fun token nested hnested => by cases hnested) parse_friendName
  have hresolve : (friends.resolve {} friendName (.array twoFriends)).result? friendsSession =
      some (.string "Bob") := rfl
  have hselect := result?_select_eq_resolve friends {} friendsSession (.object []) twoFriends
    friendName hproducible rfl hfind
  exact ⟨hfind, hselect.trans hresolve, hresolve⟩

end Collection

end LinkedDocs
