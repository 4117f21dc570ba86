import LinkedDocs.Platform.Native
import LinkedDocs.Proofs.Removal.Termination

namespace LinkedDocs

open Json

section

variable [Platform]

theorem closedUnderCascade_cascade (graph : Graph) (store : Store) (origin : String)
    (roots : List Json) :
    Collection.ClosedUnderCascade graph store (Cascade graph store origin roots) :=
  fun _ _ _ _ _ _ _ hkey hforeign htarget hcascades hmem hrefers hfound =>
    .step hkey hforeign htarget hcascades hmem hrefers hfound

theorem Refers.congr {name : String} (hname : isMarked name = false) {left right document : Json}
    (hsame : left.sameValue right) (h : Refers name left document) : Refers name right document := by
  rw [Refers, Filter.accepts_oneOf hname, Except.ok.injEq] at h ⊢
  rwa [← Filter.anyAmong_congr hsame]

/-- Whether the keys of all documents are marked that refer to a key in a foreign key that
cascades. -/
def RemovalDraft.Follows (draft : RemovalDraft) (graph : Graph) (store : Store) (target : String)
    (key : Json) : Prop :=
  ∀ ⦃referencing name : String⦄ ⦃foreignKey : ForeignKey⦄ ⦃document found : Json⦄,
    (graph.links referencing).foreignKeys.get? name = some foreignKey →
      foreignKey.collection = target → foreignKey.onDelete = .delete →
      document ∈ store.documents referencing → Refers name key document →
      (graph.collection referencing).keyOf? document = some found →
      holds (draft.marked referencing) found

theorem Settled.follows {schema : Schema} {graph : Graph}
    (hbuilt : Graph.build schema = .ok graph) {store : Store} {draft : RemovalDraft}
    {target : String} {key : Json} (h : Settled graph store draft target key) :
    draft.Follows graph store target key := by
  intro referencing name foreignKey document found hforeign htarget hcascades hmem hrefers hfound
  have hname := (Graph.compiled hbuilt hforeign).isMarked_eq_false
  obtain ⟨keys, hkeys, hsettled⟩ := h _ _ _ hforeign htarget
    (by rw [hcascades]; exact DeletePolicy.noConfusion)
  have hreferring := Collection.mem_referringDocuments hname hmem hkeys hrefers
  cases hsettled with
  | unreferenced hnone => exact absurd (hnone ▸ hreferring) List.not_mem_nil
  | cascaded _ hall => exact hall document hreferring found hfound
  | detached hpolicy => exact absurd hcascades hpolicy.2.2

end

theorem reads_storedCount : Collection.storedCount.Reads :=
  ⟨fun store _ => .ok store.collections.values.flatten.length,
    fun session => ⟨session.calls, rfl⟩⟩

namespace Collection

variable {schema : Schema} {graph : Graph} {session : Session}

section

theorem unmarked_empty_le (graph : Graph) (store : Store) :
    unmarked graph store {} ≤ store.collections.values.flatten.length :=
  Nat.le_trans List.countP_le_length (length_storedPairs_le graph store)

variable [Platform]

theorem reads_planNormalized (collection : Collection) (filter : Json) (options : DeleteOptions) :
    (collection.planNormalized filter options).Reads :=
  .bind reads_storedCount fun _ => .bind (reads_planFrom _ _ _ _ _ _) fun _ => .pure _

theorem reads_planDelete (collection : Collection) (filter : Json) (options : DeleteOptions) :
    (collection.planDelete filter options).Reads :=
  .bind (reads_normalize collection filter) fun _ => reads_planNormalized collection _ options

/-- A plan is what the walk makes of an empty draft. -/
theorem answer_planNormalized (collection : Collection) (filter : Json) (options : DeleteOptions) :
    (collection.planNormalized filter options).answer session =
      (planFrom options (session.store.collections.values.flatten.length + 1) collection filter
        options.single).outcome session {} >>= fun result =>
          .ok ⟨result.2.operations, result.1, result.2.deletedKeys⟩ := by
  rw [planNormalized, reads_storedCount.answer_bind fun _ =>
    .bind (reads_planFrom _ _ _ _ _ _) fun _ => .pure _]
  exact Access.Reads.answer_bind (reads_planFrom options _ collection filter options.single {})
    fun _ => .pure _

theorem outcome_of_answer {collection : Collection} {filter : Json} {options : DeleteOptions}
    {plan : RemovalPlan}
    (hplan : (collection.planNormalized filter options).answer session = .ok plan) :
    (planFrom options (session.store.collections.values.flatten.length + 1) collection filter
      options.single).outcome session {} =
        .ok (plan.delete, ⟨plan.operations, plan.deletedKeys⟩) := by
  rw [answer_planNormalized] at hplan
  obtain ⟨result, houtcome, heq⟩ := bind_eq_ok_iff.1 hplan
  cases heq
  exact houtcome

theorem meets_planFrom_empty (hbuilt : Graph.build schema = .ok graph) (name : String)
    {filter : Json} (hevaluates : Filter.Evaluates (session.store.documents name) filter)
    (single : Bool) :
    (planFrom ⟨true, single⟩ (session.store.collections.values.flatten.length + 1)
        (graph.collection name) filter single).Meets session {}
      (Walked graph session.store (Cascade graph session.store name
        (rootsOf session.store (graph.collection name) filter single)) (graph.collection name) filter
        single {})
      (FailsByRejection graph session (Cascade graph session.store name
        (rootsOf session.store (graph.collection name) filter single))) := by
  have hclosed := closedUnderCascade_cascade graph session.store name
    (rootsOf session.store (graph.collection name) filter single)
  exact meets_planFrom_matching hbuilt hclosed rfl (fun less _ => walksCascade hbuilt hclosed rfl less)
    rfl hevaluates (fun document hdocument key hkey => .root hdocument hkey)
    (Nat.le_succ_of_le (unmarked_empty_le graph session.store))

/-- What a plan that was made has done. -/
structure Planned (graph : Graph) (store : Store) (name : String) (filter : Json) (single : Bool)
    (draft : RemovalDraft) : Prop where
  advances : Advances graph store (Cascade graph store name
    (rootsOf store (graph.collection name) filter single)) {} draft
  roots : ∀ document ∈ rootsOf store (graph.collection name) filter single, ∀ key,
    (graph.collection name).keyOf? document = some key → holds (draft.marked name) key

theorem planned_of_answer (hbuilt : Graph.build schema = .ok graph) {name : String}
    {filter : Json} (hevaluates : Filter.Evaluates (session.store.documents name) filter)
    {single : Bool} {plan : RemovalPlan}
    (hplan : ((graph.collection name).planNormalized filter ⟨true, single⟩).answer session =
      .ok plan) :
    Planned graph session.store name filter single
      ⟨plan.operations ++ [plan.delete], plan.deletedKeys⟩ := by
  have hmeets := meets_planFrom_empty hbuilt name hevaluates single
  unfold Planning.Meets at hmeets
  rw [outcome_of_answer hplan] at hmeets
  exact ⟨hmeets.1, hmeets.2⟩

namespace Planned

variable {store : Store} {name : String} {filter : Json} {single : Bool} {draft : RemovalDraft}

theorem sound (h : Planned graph store name filter single draft) {target : String} {key : Json}
    (hkey : key ∈ draft.marked target) :
    Cascade graph store name (rootsOf store (graph.collection name) filter single) target key :=
  (h.advances.sound target key hkey).resolve_left List.not_mem_nil

theorem settled (h : Planned graph store name filter single draft) {target : String} {key : Json}
    (hkey : key ∈ draft.marked target) : Settled graph store draft target key :=
  (h.advances.settled target key hkey).resolve_left List.not_mem_nil

theorem differ (h : Planned graph store name filter single draft) (target : String) :
    (draft.marked target).Pairwise Differ :=
  h.advances.differ (fun _ => List.Pairwise.nil) target

/-- Every key of the cascade is marked: the roots are, and a marked key has the keys marked of all
documents that refer to it in a foreign key that cascades. -/
theorem complete (hbuilt : Graph.build schema = .ok graph)
    (h : Planned graph store name filter single draft) {target : String} {key : Json}
    (hkey : Cascade graph store name (rootsOf store (graph.collection name) filter single) target
      key) : holds (draft.marked target) key := by
  induction hkey with
  | root hroot hkey => exact h.roots _ hroot _ hkey
  | @step target referencing foreignName foreignKey key document found _ hforeign htarget hcascades
      hmem hrefers hfound ih =>
    have hname := (Graph.compiled hbuilt hforeign).isMarked_eq_false
    obtain ⟨marked, hmarked, hsame⟩ := holds_iff.1 ih
    exact (h.settled hmarked).follows hbuilt hforeign htarget hcascades hmem
      (hrefers.congr hname (sameValue_symm hsame)) hfound

end Planned

/-- The plan of a delete marks, up to their values, the keys of the cascade, which is the least
family that has the keys of the documents to delete and is closed under the foreign keys that
cascade. Every key of it is listed once, in one delete of the plan. Whether there is a plan or not,
more fuel than there are documents makes no difference, so the walk ends on every graph. -/
theorem deletedKeys_planNormalized (hbuilt : Graph.build schema = .ok graph) (name : String)
    (filter : Json) (hevaluates : Filter.Evaluates (session.store.documents name) filter)
    (single : Bool) :
    (∀ fuel, session.store.collections.values.flatten.length ≤ fuel →
      ((graph.collection name).planNormalized filter ⟨true, single⟩).answer session =
        (((planFrom ⟨true, single⟩ fuel (graph.collection name) filter single).run {}).answer
          session).map fun result => ⟨result.2.operations, result.1, result.2.deletedKeys⟩) ∧
    ∀ plan, ((graph.collection name).planNormalized filter ⟨true, single⟩).answer session =
        .ok plan →
      (∀ target, ∀ key ∈ plan.deletedKeys.get target,
        Cascade graph session.store name
          (rootsOf session.store (graph.collection name) filter single) target key) ∧
      ∀ target key, Cascade graph session.store name
          (rootsOf session.store (graph.collection name) filter single) target key →
        holds (plan.deletedKeys.get target) key ∧
        ((plan.operations ++ [plan.delete]).flatMap
          (Operation.listedKeys (graph.collection target))).countP
            (fun listed => listed.sameValue key) = 1 := by
  constructor
  · intro fuel hfuel
    have hless := unmarked_empty_le graph session.store
    have hsame : (planFrom ⟨true, single⟩ fuel (graph.collection name) filter single).outcome
        session {} =
        (planFrom ⟨true, single⟩ (session.store.collections.values.flatten.length + 1)
          (graph.collection name) filter single).outcome session {} :=
      outcome_planFrom_eq hbuilt (closedUnderCascade_cascade graph session.store name
        (rootsOf session.store (graph.collection name) filter single)) rfl _ _ _ _ _ _ rfl
        hevaluates (fun document hdocument key hkey => .root hdocument hkey)
        (Nat.le_trans hless hfuel) (Nat.le_succ_of_le hless)
    rw [answer_planNormalized, ← hsame]
    rfl
  · intro plan hplan
    have hplanned := planned_of_answer hbuilt hevaluates hplan
    refine ⟨fun target key => hplanned.sound, fun target key hkey => ?_⟩
    have hholds := hplanned.complete hbuilt hkey
    refine ⟨hholds, ?_⟩
    have hbalanced := hplanned.advances.balanced target fun listed => listed.sameValue key
    have hone := countP_eq_one (hplanned.differ target) hholds
    change 0 + _ = _ + 0 at hbalanced
    rw [Nat.zero_add, Nat.add_zero, hone] at hbalanced
    exact hbalanced.symm

end

/-- Nodes that each have a next one, and notes on nodes. -/
def ringSchema : Schema where
  collections := .ofList [("nodes", { foreignKeys := .ofList [("next", { onDelete := some .delete })] }),
    ("notes", { foreignKeys := .ofList [("node",
      { collection := some "nodes", onDelete := some .delete })] })]

def ringNote : Json :=
  .object [("_id", .string "n"), ("node", .string "a")]

def ringSession : Session where
  store := { collections := .ofList [("nodes", [.object [("_id", .string "a"), ("next", .string "b")],
    .object [("_id", .string "b"), ("next", .string "a")]]), ("notes", [ringNote])] }

/-- Deleting a node deletes its note, once. -/
theorem listed_ringNote : ∃ plan,
    ((ringSchema.graph.collection "nodes").planNormalized (.single "_id" (.oneOf [.string "a"]))
      ⟨true, false⟩).answer ringSession = .ok plan ∧
    ((plan.operations ++ [plan.delete]).flatMap
      (Operation.listedKeys (ringSchema.graph.collection "notes"))).countP
        (fun listed => listed.sameValue (.string "n")) = 1 := by
  have hevaluates : Filter.Evaluates (ringSession.store.documents "nodes")
      (.single "_id" (.oneOf [.string "a"])) := Filter.evaluates_oneOf rfl _ _
  have hnode : Cascade ringSchema.graph ringSession.store "nodes"
      (rootsOf ringSession.store (ringSchema.graph.collection "nodes")
        (.single "_id" (.oneOf [.string "a"])) false) "nodes" (.string "a") :=
    .root List.mem_cons_self rfl
  have hnote : Cascade ringSchema.graph ringSession.store "nodes"
      (rootsOf ringSession.store (ringSchema.graph.collection "nodes")
        (.single "_id" (.oneOf [.string "a"])) false) "notes" (.string "n") := by
    have hforeign : (ringSchema.graph.links "notes").foreignKeys.get? "node" =
        some ⟨["node"], "nodes", .verify, .delete, none⟩ := rfl
    have hmem : ringNote ∈ ringSession.store.documents "notes" := List.mem_cons_self
    have hrefers : Refers "node" (.string "a") ringNote := rfl
    exact .step hnode hforeign rfl rfl hmem hrefers rfl
  obtain ⟨-, hclosure⟩ :=
    deletedKeys_planNormalized (ringSchema.build_graph rfl) "nodes" _ hevaluates false
  exact ⟨_, rfl, ((hclosure _ rfl).2 "notes" (.string "n") hnote).2⟩

end Collection

end LinkedDocs
