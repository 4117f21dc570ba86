import LinkedDocs.Proofs.Graph.Built
import LinkedDocs.Proofs.Removal.Marking
import LinkedDocs.Proofs.Removal.Planning

/-!
What the walk over the references does to its draft. The keys that have to be deleted form the
least family that holds the keys of the documents to delete and is closed under the foreign keys
that cascade; every part of the walk stays within this family, lists each key that it marks in one
delete, and does for each of them what the foreign keys that refer to it ask for.
-/

namespace LinkedDocs

open Json

/-- The keys that a delete of a collection lists. -/
def Operation.listedKeys (collection : Collection) : Operation → List Json
  | .delete name filter =>
    if name = collection.name then
      (((filter.field? collection.key).bind fun condition => condition.field? "$in").bind
        Json.array?).getD []
    else []
  | .update _ _ _ _ => []

namespace RemovalDraft

/-- A draft in which keys are marked, and the keys that are new in it. -/
def mark (draft : RemovalDraft) (collection : String) (found : List Json) : RemovalDraft :=
  { draft with deletedKeys := (draft.deletedKeys.mark collection found).2 }

def fresh (draft : RemovalDraft) (collection : String) (found : List Json) : List Json :=
  (draft.deletedKeys.mark collection found).1

def push (draft : RemovalDraft) (operation : Operation) : RemovalDraft :=
  { draft with operations := draft.operations ++ [operation] }

def marked (draft : RemovalDraft) (name : String) : List Json :=
  draft.deletedKeys.get name

/-- The keys that the scheduled deletes of a collection list. -/
def scheduled (graph : Graph) (draft : RemovalDraft) (name : String) : List Json :=
  draft.operations.flatMap (Operation.listedKeys (graph.collection name))

end RemovalDraft

theorem marked_mark (draft : RemovalDraft) (collection : String) (found : List Json)
    (name : String) :
    (draft.mark collection found).marked name =
      draft.marked name ++ if name = collection then draft.fresh collection found else [] :=
  DeletedKeys.get_mark _ _ _ _

theorem marked_prefix_mark (draft : RemovalDraft) (collection : String) (found : List Json)
    (name : String) : draft.marked name <+: (draft.mark collection found).marked name := by
  rw [marked_mark]
  exact List.prefix_append _ _

theorem mem_marked_mark {draft : RemovalDraft} {collection name : String} {found : List Json}
    {key : Json} (h : key ∈ (draft.mark collection found).marked name) :
    key ∈ draft.marked name ∨ (name = collection ∧ key ∈ draft.fresh collection found) := by
  rw [marked_mark] at h
  rcases List.mem_append.1 h with hbefore | hfresh
  · exact .inl hbefore
  · split at hfresh
    case isTrue hname => exact .inr ⟨hname, hfresh⟩
    case isFalse => cases hfresh

theorem fresh_subset (draft : RemovalDraft) (collection : String) (found : List Json) :
    draft.fresh collection found ⊆ found :=
  DeletedKeys.freshKeys_subset _ _

theorem holds_marked_mark (draft : RemovalDraft) (collection : String) {found : List Json}
    {key : Json} (h : key ∈ found) : holds ((draft.mark collection found).marked collection) key := by
  rw [marked_mark, if_pos rfl]
  exact DeletedKeys.holds_append_freshKeys h

theorem differ_mark {draft : RemovalDraft} (h : ∀ name, (draft.marked name).Pairwise Differ)
    (collection : String) (found : List Json) (name : String) :
    ((draft.mark collection found).marked name).Pairwise Differ := by
  rw [marked_mark]
  split
  case isTrue hname =>
    subst hname
    exact DeletedKeys.pairwise_append_freshKeys (h name) found
  case isFalse =>
    rw [List.append_nil]
    exact h name

theorem listedKeys_delete {graph : Graph} {collection : Collection}
    (hgraph : collection.graph = graph) (keys : List Json) (name : String) :
    (Operation.delete collection.name (collection.keysQuery keys)).listedKeys
        (graph.collection name) = if name = collection.name then keys else [] := by
  subst hgraph
  by_cases hname : name = collection.name
  · subst hname
    change (if collection.name = collection.name then _ else []) = _
    rw [if_pos rfl, if_pos rfl]
    simp [Collection.keysQuery, Json.single, Json.oneOf, Json.field?, Json.object?, lookupName,
      Json.array?, Graph.collection, Collection.key, Collection.links]
  · rw [if_neg hname]
    exact if_neg fun heq => hname heq.symm

theorem listedKeys_keysQuery (graph : Graph) (collection : String) (keys : List Json)
    (name : String) :
    (Operation.delete collection ((graph.collection collection).keysQuery keys)).listedKeys
        (graph.collection name) = if name = collection then keys else [] :=
  @listedKeys_delete graph (graph.collection collection) rfl keys name

variable [Platform]

/-- Whether a document holds a key in a foreign key. -/
def Refers (name : String) (key document : Json) : Prop :=
  Filter.accepts document (.single name (.oneOf [key])) = .ok true

/-- The least family of keys that has the keys of some documents of a collection and, with a key,
those of all documents that refer to it in a foreign key that cascades. -/
inductive Cascade (graph : Graph) (store : Store) (origin : String) (roots : List Json) :
    String → Json → Prop
  | root {document key : Json} (hroot : document ∈ roots)
      (hkey : (graph.collection origin).keyOf? document = some key) :
      Cascade graph store origin roots origin key
  | step {target referencing name : String} {foreignKey : ForeignKey} {key document found : Json}
      (hkey : Cascade graph store origin roots target key)
      (hforeign : (graph.links referencing).foreignKeys.get? name = some foreignKey)
      (htarget : foreignKey.collection = target) (hcascades : foreignKey.onDelete = .delete)
      (hmem : document ∈ store.documents referencing) (hrefers : Refers name key document)
      (hfound : (graph.collection referencing).keyOf? document = some found) :
      Cascade graph store origin roots referencing found

/-- Whether a key of a family is referred to in a foreign key that rejects its deletion. -/
def Rejects (graph : Graph) (store : Store) (family : String → Json → Prop) : Prop :=
  ∃ target key referencing name, ∃ foreignKey : ForeignKey, ∃ document,
    family target key ∧ (graph.links referencing).foreignKeys.get? name = some foreignKey ∧
      foreignKey.collection = target ∧ foreignKey.onDelete = .reject ∧
      document ∈ store.documents referencing ∧ Refers name key document

/-- The documents in which a foreign key holds one of some keys. -/
def referringDocuments (store : Store) (referencing name : String) (keys : List Json) : List Json :=
  Filter.matching (store.documents referencing) (.single name (.oneOf keys))

/-- What a draft does about some keys at a foreign key that may hold them. -/
inductive SettledAt (graph : Graph) (store : Store) (draft : RemovalDraft)
    (referencing name : String) (foreignKey : ForeignKey) (keys : List Json) : Prop
  | unreferenced (h : referringDocuments store referencing name keys = [])
  | cascaded (hcascades : foreignKey.onDelete = .delete)
      (h : ∀ document ∈ referringDocuments store referencing name keys, ∀ key,
        (graph.collection referencing).keyOf? document = some key →
          holds (draft.marked referencing) key)
  | detached {operation : Operation}
      (hpolicy : foreignKey.onDelete ≠ .bypass ∧ foreignKey.onDelete ≠ .reject ∧
        foreignKey.onDelete ≠ .delete)
      (hdetach : foreignKey.detach referencing name (.single name (.oneOf keys)) keys =
        .ok operation)
      (hmem : operation ∈ draft.operations)

/-- Whether a draft does about a key what every foreign key asks for that may hold it. -/
def Settled (graph : Graph) (store : Store) (draft : RemovalDraft) (target : String) (key : Json) :
    Prop :=
  ∀ referencing name foreignKey,
    (graph.links referencing).foreignKeys.get? name = some foreignKey →
      foreignKey.collection = target → foreignKey.onDelete ≠ .bypass →
      ∃ keys, key ∈ keys ∧ SettledAt graph store draft referencing name foreignKey keys

/-- Whether an operation deletes documents with some keys, or detaches the documents that hold some
keys in a foreign key. -/
inductive Operation.IsPlanned (graph : Graph) : Operation → Prop
  | delete (name : String) (keys : List Json) :
      IsPlanned graph (.delete name ((graph.collection name).keysQuery keys))
  | detach {referencing name : String} {foreignKey : ForeignKey} {keys : List Json}
      {operation : Operation}
      (hforeign : (graph.links referencing).foreignKeys.get? name = some foreignKey)
      (hpolicy : foreignKey.onDelete ≠ .bypass ∧ foreignKey.onDelete ≠ .reject ∧
        foreignKey.onDelete ≠ .delete)
      (hdetach : foreignKey.detach referencing name (.single name (.oneOf keys)) keys =
        .ok operation) : IsPlanned graph operation

/-- How a part of the walk changes its draft. -/
structure Advances (graph : Graph) (store : Store) (family : String → Json → Prop)
    (before after : RemovalDraft) : Prop where
  marked : ∀ name, before.marked name <+: after.marked name
  operations : before.operations <+: after.operations
  planned : ∀ operation ∈ after.operations,
    operation ∈ before.operations ∨ operation.IsPlanned graph
  sound : ∀ name, ∀ key ∈ after.marked name, key ∈ before.marked name ∨ family name key
  settled : ∀ name, ∀ key ∈ after.marked name,
    key ∈ before.marked name ∨ Settled graph store after name key
  differ : (∀ name, (before.marked name).Pairwise Differ) →
    ∀ name, (after.marked name).Pairwise Differ
  /-- The keys newly marked are the keys newly listed. -/
  balanced : ∀ name (test : Json → Bool),
    (before.scheduled graph name).countP test + (after.marked name).countP test =
      (after.scheduled graph name).countP test + (before.marked name).countP test

section Advances

variable {graph : Graph} {store : Store} {family : String → Json → Prop}
  {before middle after : RemovalDraft}

theorem SettledAt.mono {referencing name : String} {foreignKey : ForeignKey} {keys : List Json}
    (hmarked : ∀ name, before.marked name <+: after.marked name)
    (hoperations : before.operations <+: after.operations)
    (h : SettledAt graph store before referencing name foreignKey keys) :
    SettledAt graph store after referencing name foreignKey keys := by
  cases h with
  | unreferenced h => exact .unreferenced h
  | cascaded hcascades h =>
    exact .cascaded hcascades fun document hmem key hkey =>
      holds_mono (hmarked referencing).subset (h document hmem key hkey)
  | detached hpolicy hdetach hmem => exact .detached hpolicy hdetach (hoperations.subset hmem)

theorem Settled.mono {target : String} {key : Json}
    (hmarked : ∀ name, before.marked name <+: after.marked name)
    (hoperations : before.operations <+: after.operations)
    (h : Settled graph store before target key) : Settled graph store after target key := by
  intro referencing name foreignKey hforeign htarget hpolicy
  obtain ⟨keys, hkey, hsettled⟩ := h referencing name foreignKey hforeign htarget hpolicy
  exact ⟨keys, hkey, hsettled.mono hmarked hoperations⟩

theorem Settled.push {draft : RemovalDraft} (operation : Operation) {target : String} {key : Json}
    (h : Settled graph store draft target key) :
    Settled graph store (draft.push operation) target key := by
  refine Settled.mono ?_ ?_ h
  · exact fun _ => List.prefix_rfl
  · exact List.prefix_append _ _

theorem Advances.refl (draft : RemovalDraft) : Advances graph store family draft draft where
  marked _ := List.prefix_rfl
  operations := List.prefix_rfl
  planned _ := .inl
  sound _ _ := .inl
  settled _ _ := .inl
  differ := id
  balanced _ _ := rfl

theorem Advances.trans (hfirst : Advances graph store family before middle)
    (hsecond : Advances graph store family middle after) :
    Advances graph store family before after where
  marked name := (hfirst.marked name).trans (hsecond.marked name)
  operations := hfirst.operations.trans hsecond.operations
  planned operation hoperation := by
    rcases hsecond.planned operation hoperation with hmiddle | hplanned
    · exact hfirst.planned operation hmiddle
    · exact .inr hplanned
  sound name key hkey := by
    rcases hsecond.sound name key hkey with hmiddle | hfamily
    · exact hfirst.sound name key hmiddle
    · exact .inr hfamily
  settled name key hkey := by
    rcases hsecond.settled name key hkey with hmiddle | hsettled
    · exact (hfirst.settled name key hmiddle).imp id
        (Settled.mono hsecond.marked hsecond.operations)
    · exact .inr hsettled
  differ hbefore := hsecond.differ (hfirst.differ hbefore)
  balanced name test := by
    have hbefore := hfirst.balanced name test
    have hafter := hsecond.balanced name test
    omega

theorem Advances.push (draft : RemovalDraft) {operation : Operation}
    (hplanned : operation.IsPlanned graph)
    (h : ∀ collection, operation.listedKeys collection = []) :
    Advances graph store family draft (draft.push operation) where
  marked _ := List.prefix_rfl
  operations := List.prefix_append _ _
  planned other hother := by
    rcases List.mem_append.1 hother with hbefore | hlast
    · exact .inl hbefore
    · exact .inr (List.mem_singleton.1 hlast ▸ hplanned)
  sound _ _ := .inl
  settled _ _ := .inl
  differ := id
  balanced name test := by
    simp [RemovalDraft.push, RemovalDraft.scheduled, RemovalDraft.marked, h]

/-- Marking keys, settling the new ones and scheduling their delete advances a draft. -/
theorem Advances.delete {collection : Collection} (hgraph : collection.graph = graph)
    {found : List Json} (hfamily : ∀ key ∈ found, family collection.name key)
    (hafter : Advances graph store family (before.mark collection.name found) after)
    (hsettled : ∀ key ∈ before.fresh collection.name found,
      Settled graph store after collection.name key) :
    Advances graph store family before (after.push
      (.delete collection.name (collection.keysQuery (before.fresh collection.name found)))) where
  marked name := (marked_prefix_mark before _ _ name).trans (hafter.marked name)
  operations := hafter.operations.trans (List.prefix_append _ _)
  planned operation hoperation := by
    rcases List.mem_append.1 hoperation with hbefore | hlast
    · exact hafter.planned operation hbefore
    · subst hgraph
      rw [List.mem_singleton.1 hlast]
      exact .inr (.delete collection.name _)
  sound name key hkey := by
    rcases hafter.sound name key hkey with hmarked | hafterFamily
    · obtain hbefore | ⟨rfl, hfresh⟩ := mem_marked_mark hmarked
      · exact .inl hbefore
      · exact .inr (hfamily key (fresh_subset _ _ _ hfresh))
    · exact .inr hafterFamily
  settled name key hkey := by
    rcases hafter.settled name key hkey with hmarked | hsettledAfter
    · obtain hbefore | ⟨rfl, hfresh⟩ := mem_marked_mark hmarked
      · exact .inl hbefore
      · exact .inr (.push _ (hsettled key hfresh))
    · exact .inr (.push _ hsettledAfter)
  differ hbefore := hafter.differ (differ_mark hbefore _ _)
  balanced name test := by
    have hbalanced := hafter.balanced name test
    have hscheduled : (after.push (.delete collection.name (collection.keysQuery
        (before.fresh collection.name found)))).scheduled graph name = after.scheduled graph name ++
          if name = collection.name then before.fresh collection.name found else [] := by
      simp only [RemovalDraft.scheduled, RemovalDraft.push, List.flatMap_append,
        List.flatMap_cons, List.flatMap_nil, List.append_nil, listedKeys_delete hgraph]
    rw [hscheduled, List.countP_append]
    rw [marked_mark, List.countP_append] at hbalanced
    change (before.scheduled graph name).countP test + (after.marked name).countP test = _ at hbalanced
    change (before.scheduled graph name).countP test + (after.marked name).countP test = _
    omega

end Advances

end LinkedDocs
