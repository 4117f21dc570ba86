import LinkedDocs.Platform.Native
import LinkedDocs.Proofs.Removal.Surviving
import LinkedDocs.Proofs.Store.Identity

/-!
What a delete counts: the documents that its last operation takes away. The operations before that
one leave as many documents in a collection as they find there, except for the deletes that list keys
of it. So the count is the number of documents that went as long as no cascade comes back to the
collection, and what it misses otherwise is what those cascades delete.
-/

namespace LinkedDocs

open Json

section

variable [Platform]

theorem Store.length_deleteMany {before after : Store} {name : String} {filter : Json} {count : Nat}
    (h : before.deleteMany name filter = (.ok count, after)) :
    count + (after.documents name).length = (before.documents name).length := by
  have hdocuments := (documents_deleteMany h).2 name
  rw [if_pos rfl] at hdocuments
  have hcount : count = (before.documents name).length - (after.documents name).length := by
    unfold deleteMany at h
    cases hget : before.collections.get? name with
    | none =>
      rw [hget] at h
      cases h
      exact (Nat.sub_self _).symm
    | some documents =>
      rw [hget] at h
      dsimp only at h
      split at h
      case h_2 => cases h
      case h_1 kept hkept =>
        obtain ⟨hresult, rfl⟩ := Prod.mk.inj h
        rw [documents_withDocuments, if_pos rfl, documents_of_get? hget]
        exact (Except.ok.inj hresult).symm
  have hle : (after.documents name).length ≤ (before.documents name).length := by
    rw [hdocuments]
    exact List.length_filter_le _ _
  omega

section Lengths

variable {schema : Schema} {graph : Graph} {before after : Store}

theorem Operation.length_le_of_turnsInto {operation : Operation}
    (h : operation.TurnsInto before after) (name : String) :
    (after.documents name).length ≤ (before.documents name).length := by
  cases operation with
  | update =>
    obtain ⟨count, hupdate⟩ := h
    exact Nat.le_of_eq (Store.forall₂_documents_update rfl hupdate name).length_eq.symm
  | delete =>
    obtain ⟨count, hdelete⟩ := h
    rw [(Store.documents_deleteMany hdelete).2]
    split
    case isTrue hname => exact hname ▸ List.length_filter_le _ _
    case isFalse => exact Nat.le_refl _

theorem Operation.Executes.length_le {operations : List Operation}
    (h : Executes operations before after) (name : String) :
    (after.documents name).length ≤ (before.documents name).length := by
  induction h with
  | nil => exact Nat.le_refl _
  | cons hfirst _ ih => exact Nat.le_trans ih (length_le_of_turnsInto hfirst name)

/-- An operation that lists no keys of a collection leaves as many documents there as it finds. -/
theorem Operation.IsPlanned.length_eq_of_turnsInto (hbuilt : Graph.build schema = .ok graph)
    {operation : Operation} (hplanned : operation.IsPlanned graph) {name : String}
    (hlisted : operation.listedKeys (graph.collection name) = [])
    (h : operation.TurnsInto before after) :
    (after.documents name).length = (before.documents name).length := by
  cases operation with
  | update =>
    obtain ⟨count, hupdate⟩ := h
    exact (Store.forall₂_documents_update rfl hupdate name).length_eq.symm
  | delete =>
    obtain ⟨count, hdelete⟩ := h
    rw [(Store.documents_deleteMany hdelete).2]
    cases hplanned with
    | delete collection keys =>
      rw [listedKeys_keysQuery] at hlisted
      split
      case isFalse => rfl
      case isTrue hname =>
        rw [if_pos hname] at hlisted
        subst hlisted hname
        have hmarked : isMarked (graph.collection name).key = false := Graph.isMarked_key hbuilt name
        refine congrArg List.length (List.filter_eq_self.2 fun document _ => ?_)
        rw [Collection.keysQuery, Filter.matched_of_accepts (Filter.accepts_oneOf hmarked document [])]
        simp [Filter.anyAmong]
    | detach hforeign hpolicy hdetach =>
      obtain ⟨_, _, _, _, heq, -⟩ := (Graph.compiled hbuilt hforeign).exists_detaches hpolicy hdetach
      cases heq

theorem Operation.Executes.length_eq (hbuilt : Graph.build schema = .ok graph)
    {operations : List Operation} (hplanned : ∀ operation ∈ operations, operation.IsPlanned graph)
    {name : String}
    (hlisted : ∀ operation ∈ operations, operation.listedKeys (graph.collection name) = [])
    (h : Executes operations before after) :
    (after.documents name).length = (before.documents name).length := by
  induction h with
  | nil => rfl
  | cons hfirst _ ih =>
    obtain ⟨hoperation, hrest⟩ := List.forall_mem_cons.1 hplanned
    obtain ⟨hnone, hothers⟩ := List.forall_mem_cons.1 hlisted
    exact (ih hrest hothers).trans (hoperation.length_eq_of_turnsInto hbuilt hnone hfirst)

end Lengths

end

namespace Collection

variable {schema : Schema} {graph : Graph} {session : Session}

section

variable [Platform]

/-- The last operation of a plan deletes documents of the collection that the plan is made for. -/
theorem meets_planFrom_delete (options : DeleteOptions) (fuel : Nat) (collection : Collection)
    (filter : Json) (single : Bool) (draft : RemovalDraft) :
    (planFrom options fuel collection filter single).Meets session draft
      (fun operation _ => ∃ keys,
        operation = .delete collection.name (collection.keysQuery keys)) fun _ => True := by
  have hfollow (keys : List Json) := reads_planReferences options fuel collection keys
  rw [planFrom_eq]
  refine .bind (.lift (reads_storedKeys _ _ _))
    (fun _ => .bind (.mark _ _) fun _ => .bind (hfollow _) fun _ => .pure _)
    (.of_forall (fun found _ => ?_) fun _ => trivial)
  refine .bind (.mark _ _) (fun _ => .bind (hfollow _) fun _ => .pure _)
    (.of_forall (fun keys _ => ?_) fun _ => trivial)
  exact .bind (hfollow _) (fun _ => .pure _)
    (.of_forall (fun _ _ => .pure ⟨keys, rfl⟩) fun _ => trivial)

theorem exists_delete_eq_of_answer {collection : Collection} {filter : Json}
    {options : DeleteOptions} {plan : RemovalPlan}
    (hplan : (collection.planDelete filter options).answer session = .ok plan) :
    ∃ keys, plan.delete = .delete collection.name (collection.keysQuery keys) := by
  rw [planDelete, (reads_normalize _ filter).answer_bind fun _ => reads_planNormalized _ _ _]
    at hplan
  obtain ⟨normalized, -, hnormalized⟩ := bind_eq_ok_iff.1 hplan
  have hmeets : Planning.Meets _ session {} _ _ := meets_planFrom_delete options
    (session.store.collections.values.flatten.length + 1) collection normalized options.single {}
  unfold Planning.Meets at hmeets
  rwa [outcome_of_answer hnormalized] at hmeets

/-- A delete that succeeds has carried out the operations of its plan, and then a delete that it
counts. -/
theorem exists_middle_of_delete {collection : Collection} {filter : Json} {options : DeleteOptions}
    {after : Session} {count : Nat}
    (h : (collection.delete filter options).runIn session = (.ok count, after)) :
    ∃ plan middle keys, (collection.planDelete filter options).answer session = .ok plan ∧
      Operation.Executes plan.operations session.store middle ∧
      middle.deleteMany collection.name (collection.keysQuery keys) = (.ok count, after.store) := by
  obtain ⟨plan, planned, hplan, hrun⟩ := Access.runIn_bind_eq_ok h
  have hstore := (reads_planDelete collection filter options).store_runIn session
  rw [hplan] at hstore
  have hanswer : (collection.planDelete filter options).answer session = .ok plan :=
    congrArg Prod.fst hplan
  obtain ⟨keys, hdelete⟩ := exists_delete_eq_of_answer hanswer
  have hbind : ((plan.operations.forM fun operation => do let _ ← operation.execute) >>= fun _ =>
      plan.delete.execute).runIn planned = (.ok count, after) := hrun
  obtain ⟨_, middle, hoperations, hlast⟩ := Access.runIn_bind_eq_ok hbind
  obtain ⟨hexecutes, -, -⟩ := Operation.executes_of_runIn_forM hoperations
  rw [hstore] at hexecutes
  rw [hdelete] at hlast
  have hcall : (Access.deleteMany collection.name (collection.keysQuery keys)).runIn middle =
      (.ok count, after) := hlast
  exact ⟨plan, middle.store, keys, hanswer, hexecutes, (Access.runIn_call_eq_ok hcall).1⟩

/-- A delete never counts more documents than went, and as many as went unless an operation before the
last one deletes documents of the same collection, too. How many these are is what it misses. -/
theorem count_add_length_of_delete (hbuilt : Graph.build schema = .ok graph) (name : String)
    (filter : Json) (options : DeleteOptions) {after : Session} (count : Nat)
    (hdeleted : ((graph.collection name).delete filter options).runIn session =
      (.ok count, after)) :
    ∃ plan, ((graph.collection name).planDelete filter options).answer session = .ok plan ∧
      count + (after.store.documents name).length ≤ (session.store.documents name).length ∧
      ((∀ operation ∈ plan.operations, operation.listedKeys (graph.collection name) = []) →
        count + (after.store.documents name).length = (session.store.documents name).length) ∧
      (graph.KeepsKeys → session.store.NamesOnce → session.store.HasScalarKeys graph →
        count + (after.store.documents name).length +
            ((session.store.documents name).filter fun document =>
              plan.operations.any (·.lists (graph.collection name) document)).length =
          (session.store.documents name).length) := by
  obtain ⟨plan, middle, keys, hplan, hexecutes, hdelete⟩ := exists_middle_of_delete hdeleted
  have haccounts := accounts_of_answer hbuilt hplan
  have hhandles : ∀ operation ∈ plan.operations, operation.Handles graph
      fun name key => key ∈ plan.deletedKeys.get name :=
    fun operation hoperation => haccounts.handles operation (List.mem_append_left _ hoperation)
  have hcount : count + (after.store.documents name).length = (middle.documents name).length :=
    Store.length_deleteMany hdelete
  refine ⟨plan, hplan, hcount ▸ hexecutes.length_le name, fun hlisted => ?_,
    fun hkeeps hnames hkeys => ?_⟩
  · rw [hcount]
    exact hexecutes.length_eq hbuilt
      (fun operation hoperation => (hhandles operation hoperation).isPlanned) hlisted
  · have hscalar : ∀ other, ∀ key ∈ plan.deletedKeys.get other, key.isScalar :=
      fun other key hkey => hkeys.isScalar (haccounts.stored other key hkey)
    have hleft := (hexecutes.forall₂_survives hbuilt hkeeps hhandles hscalar
      (Graph.forall₂_survives_self hnames hkeys plan.deletedKeys name)).length_eq
    rw [hcount, ← hleft, Nat.add_comm, ← List.length_eq_length_filter_add]

end

theorem ringSession_fits : ringSchema.graph.KeepsKeys ∧ ringSession.store.NamesOnce ∧
    ringSession.store.HasScalarKeys ringSchema.graph := by
  refine ⟨Graph.forall_foreignKeys ?keeps, Store.forall_documents ?names,
    Store.forall_documents ?keys⟩
  case keeps => decide
  case names => decide
  case keys => decide

/-- When both nodes of the cycle are to be deleted anyway, both are counted. -/
theorem count_add_length_ring : ∃ plan, ∃ after : Session,
    ((ringSchema.graph.collection "nodes").delete (.object []) {}).runIn ringSession =
      (.ok 2, after) ∧
    ((ringSchema.graph.collection "nodes").planDelete (.object []) {}).answer ringSession =
      .ok plan ∧
    plan.operations.length = 2 ∧
    (∀ operation ∈ plan.operations,
      operation.listedKeys (ringSchema.graph.collection "nodes") = []) ∧
    2 + (after.store.documents "nodes").length = (ringSession.store.documents "nodes").length ∧
    2 + (after.store.documents "nodes").length +
        ((ringSession.store.documents "nodes").filter fun document =>
          plan.operations.any (·.lists (ringSchema.graph.collection "nodes") document)).length =
      (ringSession.store.documents "nodes").length := by
  obtain ⟨hkeeps, hnames, hkeys⟩ := ringSession_fits
  have hresult : ((ringSchema.graph.collection "nodes").delete (.object []) {}).result?
      ringSession = some 2 := by decide
  have hlists : (((ringSchema.graph.collection "nodes").planDelete (.object []) {}).answer
      ringSession).toOption.any fun plan => plan.operations.length = 2 ∧ plan.operations.all
        fun operation => (operation.listedKeys (ringSchema.graph.collection "nodes")).isEmpty := by
    decide
  obtain ⟨after, hdeleted⟩ := Access.exists_runIn_of_result? hresult
  obtain ⟨plan, hplan, -, hcounts, hmisses⟩ :=
    count_add_length_of_delete (ringSchema.build_graph rfl) "nodes" (.object []) {} 2 hdeleted
  rw [hplan] at hlists
  obtain ⟨hlength, hall⟩ := of_decide_eq_true hlists
  have hlisted : ∀ operation ∈ plan.operations,
      operation.listedKeys (ringSchema.graph.collection "nodes") = [] := fun operation hoperation =>
    List.isEmpty_iff.1 (List.all_eq_true.1 hall operation hoperation)
  exact ⟨plan, after, hdeleted, hplan, hlength, hlisted, hcounts hlisted, hmisses hkeeps hnames hkeys⟩

/-- When one of them is deleted, the other one goes too, and is not counted. -/
theorem count_add_length_ne_ring :
    ringSession.store.HasScalarKeys ringSchema.graph ∧
    ((ringSession.store.documents "nodes").filterMap
      (ringSchema.graph.collection "nodes").keyOf?).Pairwise Differ ∧
    ((ringSchema.graph.collection "nodes").delete (.single "_id" (.string "a")) {}).result?
      ringSession = some 1 ∧
    (ringSession.store.documents "nodes").length = 2 ∧
    (((ringSchema.graph.collection "nodes").delete (.single "_id" (.string "a")) {}).runIn
      ringSession).2.store.documents "nodes" = [] := by
  have hlength : ((((ringSchema.graph.collection "nodes").delete (.single "_id" (.string "a"))
      {}).runIn ringSession).2.store.documents "nodes").length = 0 := by decide
  exact ⟨ringSession_fits.2.2, by decide, by decide, rfl, List.length_eq_zero_iff.1 hlength⟩

end Collection

end LinkedDocs
