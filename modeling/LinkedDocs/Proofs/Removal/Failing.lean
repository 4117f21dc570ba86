import LinkedDocs.Platform.Native
import LinkedDocs.Proofs.Removal.Rejection

namespace LinkedDocs

/-- The failures of a removal. -/
inductive Error.EndsRemoval : Error → Prop
  | store (collection : String) (fault : StoreFault) : EndsRemoval (.store collection fault)
  | invalidQuery (collection : String) (fault : InvalidQueryFault) :
    EndsRemoval (.invalidQuery collection fault)
  | deleteRejected (target referencing name : String) :
    EndsRemoval (.deleteRejected target referencing name)

namespace Access

variable {α β : Type}

/-- Whether a computation can only fail as removals do. -/
def FailsAsRemoval (access : Access α) : Prop :=
  ∀ session error, access.answer session = .error error → error.EndsRemoval

theorem FailsAsRemoval.pure (value : α) : (pure value : Access α).FailsAsRemoval := by
  intro session error h
  cases h

theorem FailsAsRemoval.throw {error : Error} (h : error.EndsRemoval) :
    (throw error : Access α).FailsAsRemoval := by
  intro session other hother
  cases hother
  exact h

theorem FailsAsRemoval.bind {access : Access α} {next : α → Access β}
    (haccess : access.FailsAsRemoval) (hnext : ∀ value, (next value).FailsAsRemoval) :
    (access >>= next).FailsAsRemoval := by
  intro session error h
  rw [answer, runIn_bind] at h
  cases hrun : access.runIn session with
  | mk result after =>
    rw [hrun] at h
    cases result with
    | error _ =>
      cases h
      exact haccess session _ (congrArg Prod.fst hrun)
    | ok value => exact hnext value after error h

theorem FailsAsRemoval.forM {items : List β} {body : β → Access Unit}
    (h : ∀ item, (body item).FailsAsRemoval) :
    (items.forM body : Access Unit).FailsAsRemoval := by
  induction items with
  | nil => exact .pure ()
  | cons first rest ih => exact .bind (h first) fun _ => ih

theorem FailsAsRemoval.call {collection : String} {request : StoreRequest}
    {perform : Store → Except Error α × Store}
    (h : ∀ store error, (perform store).1 = .error error → error.EndsRemoval) :
    (call collection request perform).FailsAsRemoval := by
  intro session error herror
  rw [answer, runIn_call] at herror
  split at herror
  · cases herror
    exact .store _ _
  · exact h _ _ herror

theorem endsRemoval_of_inCollection {collection : String} {result : Except QueryFault α}
    {error : Error} (h : Store.inCollection collection result = .error error) :
    error.EndsRemoval := by
  obtain ⟨_, rfl⟩ := Store.inCollection_eq_error h
  exact .invalidQuery _ _

theorem failsAsRemoval_dropCollection (collection : String) :
    (dropCollection collection).FailsAsRemoval :=
  .call fun _ _ h => by cases h

variable [Platform]

theorem failsAsRemoval_find (collection : String) (filter : Json) (options : FindOptions) :
    (find collection filter options).FailsAsRemoval :=
  .call fun _ _ => endsRemoval_of_inCollection

theorem failsAsRemoval_count (collection : String) (filter : Json) (limit : Option Nat) :
    (count collection filter limit).FailsAsRemoval :=
  .call fun _ _ => endsRemoval_of_inCollection

theorem failsAsRemoval_update (collection : String) (filter update : Json)
    (options : UpdateOptions) : (Access.update collection filter update options).FailsAsRemoval := by
  refine .call fun store error h => ?_
  obtain ⟨_, _, rfl, -⟩ := Store.update_eq_error h
  exact .invalidQuery _ _

theorem failsAsRemoval_deleteMany (collection : String) (filter : Json) :
    (deleteMany collection filter).FailsAsRemoval := by
  refine .call fun store error h => ?_
  obtain ⟨⟨_, rfl⟩, -⟩ := Store.deleteMany_eq_error (Prod.ext h rfl)
  exact .invalidQuery _ _

end Access

open Access

namespace Collection

variable [Platform]

theorem closedUnderFinds_failsAsRemoval :
    ClosedUnderFinds fun _ access => access.FailsAsRemoval where
  pure := .pure
  bind := .bind
  find := failsAsRemoval_find
  invalidQuery _ _ := .throw (.invalidQuery _ _)

theorem failsAsRemoval_storedKeys (collection : Collection) (filter : Json) (limit : Option Nat) :
    (collection.storedKeys filter limit).FailsAsRemoval :=
  closed_storedKeys closedUnderFinds_failsAsRemoval _ _ _

theorem failsAsRemoval_normalize (collection : Collection) (filter : Json) :
    (collection.normalize filter).FailsAsRemoval :=
  closed_normalize closedUnderFinds_failsAsRemoval _ _

end Collection

namespace Planning

variable {α β ι : Type}

/-- Whether a planning computation can only fail as removals do, whatever its draft. -/
def FailsAsRemoval (planning : Planning α) : Prop :=
  ∀ draft, (planning.run draft).FailsAsRemoval

theorem FailsAsRemoval.pure (value : α) : FailsAsRemoval (pure value : Planning α) :=
  fun _ => .pure _

theorem FailsAsRemoval.throw {error : Error} (h : error.EndsRemoval) :
    FailsAsRemoval (throw error : Planning α) := fun _ => .throw h

theorem FailsAsRemoval.lift {access : Access α} (h : access.FailsAsRemoval) :
    FailsAsRemoval (liftM access : Planning α) := fun _ => .bind h fun _ => .pure _

theorem FailsAsRemoval.bind {planning : Planning α} {next : α → Planning β}
    (hplanning : planning.FailsAsRemoval) (hnext : ∀ value, (next value).FailsAsRemoval) :
    FailsAsRemoval (planning >>= next) := fun draft =>
  .bind (hplanning draft) fun result => hnext result.1 result.2

theorem FailsAsRemoval.schedule (operation : Operation) : FailsAsRemoval (schedule operation) :=
  fun _ => .pure _

theorem FailsAsRemoval.mark (collection : String) (keys : List Json) :
    FailsAsRemoval (mark collection keys) := fun _ => .pure _

theorem FailsAsRemoval.forM {items : List ι} {body : ι → Planning Unit}
    (h : ∀ item ∈ items, (body item).FailsAsRemoval) : FailsAsRemoval (items.forM body) := by
  induction items with
  | nil => exact .pure _
  | cons first rest ih =>
    obtain ⟨hfirst, hrest⟩ := List.forall_mem_cons.1 h
    exact .bind hfirst fun _ => ih hrest

end Planning

section

variable [Platform]

namespace Collection

variable {schema : Schema} {graph : Graph}

/-- Following one foreign key does not fail for want of an update target. -/
theorem failsAsRemoval_planReference (collection source : Collection) {name : String}
    {foreignKey : ForeignKey} (hcompiled : foreignKey.Compiled name) (keys : List Json)
    {cascade : Json → Planning Operation} (hcascade : ∀ query, (cascade query).FailsAsRemoval) :
    (planReference collection source name foreignKey keys cascade).FailsAsRemoval := by
  rw [planReference_eq]
  split
  · exact .pure _
  · refine .bind (.lift (failsAsRemoval_count _ _ _)) fun count => ?_
    split
    · exact .pure _
    · unfold planPolicy
      split
      case h_1 => exact .pure _
      case h_2 => exact .throw (.deleteRejected _ _ _)
      case h_3 => exact .bind (hcascade _) fun _ => .schedule _
      case h_4 hbypass hreject hdelete =>
        obtain ⟨operation, hdetach, -⟩ := exists_detach hcompiled hbypass hreject hdelete
          source.name (.single name (.oneOf keys)) keys
        rw [hdetach]
        exact .schedule _

theorem failsAsRemoval_planReferences_succ (hbuilt : Graph.build schema = .ok graph)
    {options : DeleteOptions} {fuel : Nat}
    (hplan : ∀ name filter single,
      (planFrom options fuel (graph.collection name) filter single).FailsAsRemoval)
    (name : String) (keys : List Json) :
    (planReferences options (fuel + 1) (graph.collection name) keys).FailsAsRemoval := by
  unfold planReferences
  dsimp only
  split
  · refine .forM fun references hreferences => .forM fun entry hentry => ?_
    have hforeign := (Graph.mem_references_iff hbuilt).1 ⟨_, hreferences, hentry⟩
    exact failsAsRemoval_planReference _ _ (Graph.compiled hbuilt hforeign.1) _
      fun query => hplan references.1 query false
  · exact .pure _

theorem failsAsRemoval_planFrom (hbuilt : Graph.build schema = .ok graph) (options : DeleteOptions)
    (fuel : Nat) (name : String) (filter : Json) (single : Bool) :
    (planFrom options fuel (graph.collection name) filter single).FailsAsRemoval := by
  induction fuel generalizing name filter single with
  | zero =>
    rw [planFrom_eq]
    exact .bind (.lift (failsAsRemoval_storedKeys _ _ _)) fun _ => .bind (.mark _ _) fun _ =>
      .bind (.pure _) fun _ => .pure _
  | succ fuel ih =>
    rw [planFrom_eq]
    exact .bind (.lift (failsAsRemoval_storedKeys _ _ _)) fun _ => .bind (.mark _ _) fun _ =>
      .bind (failsAsRemoval_planReferences_succ hbuilt ih _ _) fun _ => .pure _

theorem failsAsRemoval_planNormalized (hbuilt : Graph.build schema = .ok graph) (name : String)
    (filter : Json) (options : DeleteOptions) :
    ((graph.collection name).planNormalized filter options).FailsAsRemoval := by
  have hcount : storedCount.FailsAsRemoval := by
    intro session error h
    cases h
  exact .bind hcount fun _ => .bind (failsAsRemoval_planFrom hbuilt _ _ _ _ _ _) fun _ => .pure _

end Collection

theorem Operation.failsAsRemoval_execute (operation : Operation) :
    operation.execute.FailsAsRemoval := by
  cases operation with
  | update collection filter changes arrayFilters =>
    exact .bind (failsAsRemoval_update _ _ _ _) fun _ => .pure _
  | delete collection filter => exact failsAsRemoval_deleteMany _ _

theorem RemovalPlan.failsAsRemoval_execute (plan : RemovalPlan) : plan.execute.FailsAsRemoval :=
  .bind (.forM fun operation => .bind operation.failsAsRemoval_execute fun _ => .pure _) fun _ =>
    plan.delete.failsAsRemoval_execute

end

namespace Collection

variable {schema : Schema} {graph : Graph}

section

variable [Platform]

theorem failsAsRemoval_planDelete (hbuilt : Graph.build schema = .ok graph) (name : String)
    (filter : Json) (options : DeleteOptions) :
    ((graph.collection name).planDelete filter options).FailsAsRemoval :=
  .bind (failsAsRemoval_normalize _ _) fun _ => failsAsRemoval_planNormalized hbuilt _ _ _

theorem failsAsRemoval_delete (hbuilt : Graph.build schema = .ok graph) (name : String)
    (filter : Json) (options : DeleteOptions) :
    ((graph.collection name).delete filter options).FailsAsRemoval :=
  .bind (failsAsRemoval_planDelete hbuilt _ _ _) RemovalPlan.failsAsRemoval_execute

theorem failsAsRemoval_takeOne (hbuilt : Graph.build schema = .ok graph) (name : String)
    (filter : Json) : ((graph.collection name).takeOne filter).FailsAsRemoval := by
  refine .bind (failsAsRemoval_planNormalized hbuilt _ _ _) fun plan => ?_
  split
  · exact .pure _
  · exact .bind (.bind (failsAsRemoval_find _ _ _) fun _ => .pure _) fun _ =>
      .bind plan.failsAsRemoval_execute fun _ => .pure _

theorem failsAsRemoval_findOneAndDelete (hbuilt : Graph.build schema = .ok graph) (name : String)
    (filter : Json) : ((graph.collection name).findOneAndDelete filter).FailsAsRemoval :=
  .bind (failsAsRemoval_normalize _ _) fun _ => failsAsRemoval_takeOne hbuilt _ _

theorem failsAsRemoval_drop (hbuilt : Graph.build schema = .ok graph) (name : String) :
    (graph.collection name).drop.FailsAsRemoval :=
  .bind (failsAsRemoval_delete hbuilt _ _ _) fun _ =>
    .bind (failsAsRemoval_dropCollection _) fun _ => .pure _

/-- A schema has a graph exactly when it is acceptable; and in the graph, a foreign key has an
update target exactly when its delete policy writes to one, so the update for a reference can always
be made and no removal fails for want of it. -/
theorem exists_build_iff_acceptable_and_coherent (schema : Schema) :
    ((∃ graph, Graph.build schema = .ok graph) ↔ schema.Acceptable) ∧
    ∀ graph, Graph.build schema = .ok graph →
      (∀ collection name foreignKey, graph.foreignKey? collection name = some foreignKey →
        (foreignKey.updater.isSome ↔ foreignKey.onDelete.Detaches)) ∧
      (∀ target referencing name foreignKey,
        graph.reference? target referencing name = some foreignKey →
          (foreignKey.updater.isSome ↔ foreignKey.onDelete.Detaches) ∧
          (foreignKey.onDelete.Detaches → ∀ filter keys, ∃ operation,
            foreignKey.detach referencing name filter keys = .ok operation)) ∧
      ∀ name,
        (∀ filter options, ((graph.collection name).planDelete filter options).FailsAsRemoval) ∧
        (∀ filter options, ((graph.collection name).delete filter options).FailsAsRemoval) ∧
        (∀ filter, ((graph.collection name).findOneAndDelete filter).FailsAsRemoval) ∧
        (∀ key, ((graph.collection name).findByKeyAndDelete key).FailsAsRemoval) ∧
        (graph.collection name).drop.FailsAsRemoval := by
  refine ⟨Graph.exists_build_iff, fun graph hbuilt => ⟨?_, ?_, fun name =>
    ⟨fun _ _ => failsAsRemoval_planDelete hbuilt _ _ _,
      fun _ _ => failsAsRemoval_delete hbuilt _ _ _,
      fun _ => failsAsRemoval_findOneAndDelete hbuilt _ _,
      fun _ => failsAsRemoval_takeOne hbuilt _ _,
      failsAsRemoval_drop hbuilt _⟩⟩⟩
  · intro collection name foreignKey hget
    rw [Graph.foreignKey?_eq_links] at hget
    exact (Graph.compiled hbuilt hget).isSome_updater_iff
  · intro target referencing name foreignKey hget
    have hforeign := ((Graph.reference?_eq_some_iff hbuilt).1 hget).1
    rw [Graph.foreignKey?_eq_links] at hforeign
    have hcompiled := Graph.compiled hbuilt hforeign
    refine ⟨hcompiled.isSome_updater_iff, fun hdetaches filter keys => ?_⟩
    obtain ⟨hbypass, hreject, hdelete⟩ := DeletePolicy.detaches_iff.1 hdetaches
    obtain ⟨operation, hdetach, -⟩ :=
      exists_detach hcompiled hbypass hreject hdelete referencing filter keys
    exact ⟨operation, hdetach⟩

end

/-- Journals whose articles have authors. -/
def journalSchema : Schema where
  collections := .ofList [("journals", { foreignKeys := .ofList [
    ("articles.$.authors.$", { collection := some "people", onDelete := some .pull }),
    ("articles.$.reviewer", { collection := some "people", onDelete := some .unset })] })]

def journalAuthors : ForeignKey where
  path := ["articles", "$", "authors", "$"]
  collection := "people"
  onInsert := .verify
  onDelete := .pull
  updater := some ⟨"articles.$[].authors", none⟩

def clashingSchema : Schema where
  collections := .ofList [("journals", { foreignKeys := .ofList [
    ("articles.$.authors", { collection := some "people" }),
    ("articles.authors.$", { collection := some "people" })] })]

theorem acceptable_journalSchema :
    journalSchema.Acceptable ∧ ¬clashingSchema.Acceptable ∧
    journalSchema.graph.reference? "people" "journals" "articles.authors" = some journalAuthors ∧
    ∃ operation, journalAuthors.detach "journals" "articles.authors" (.object [])
      [.string "ada"] = .ok operation := by
  have hjournals := exists_build_iff_acceptable_and_coherent journalSchema
  have hauthors : journalSchema.graph.reference? "people" "journals" "articles.authors" =
      some journalAuthors := rfl
  refine ⟨hjournals.1.1 ⟨_, (journalSchema.build_graph rfl)⟩, fun hacceptable => ?_, hauthors, ?_⟩
  · obtain ⟨graph, hgraph⟩ :=
      (exists_build_iff_acceptable_and_coherent clashingSchema).1.2 hacceptable
    have herror : Graph.build clashingSchema = .error (.sameKey "journals" "articles.$.authors"
      "articles.authors.$" "articles.authors") := rfl
    cases herror.symm.trans hgraph
  · obtain ⟨-, hdetached, -⟩ := hjournals.2 _ (journalSchema.build_graph rfl)
    exact (hdetached _ _ _ _ hauthors).2 (.inr (.inr rfl)) _ _

end Collection

end LinkedDocs
