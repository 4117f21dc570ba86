import LinkedDocs.Proofs.Removal.Closure

namespace LinkedDocs

/-- Whether an operation deletes documents with some keys, or detaches the documents that hold keys
of stored documents in a foreign key. -/
inductive Operation.IsScheduled (graph : Graph) (store : Store) : Operation → Prop
  | delete (name : String) (keys : List Json) :
      IsScheduled graph store (.delete name ((graph.collection name).keysQuery keys))
  | detach {referencing name : String} {foreignKey : ForeignKey} {keys : List Json}
      {operation : Operation}
      (hforeign : (graph.links referencing).foreignKeys.get? name = some foreignKey)
      (hpolicy : foreignKey.onDelete ≠ .bypass ∧ foreignKey.onDelete ≠ .reject ∧
        foreignKey.onDelete ≠ .delete)
      (hkeys : ∀ key ∈ keys, (foreignKey.collection, key) ∈ storedPairs graph store)
      (hdetach : foreignKey.detach referencing name (.single name (.oneOf keys)) keys =
        .ok operation) : IsScheduled graph store operation

/-- Whether an operation deletes documents with keys of a family, or detaches the documents that
hold such keys in a foreign key. -/
inductive Operation.Handles (graph : Graph) (family : String → Json → Prop) : Operation → Prop
  | delete {name : String} {keys : List Json} (hkeys : ∀ key ∈ keys, family name key) :
      Handles graph family (.delete name ((graph.collection name).keysQuery keys))
  | detach {referencing name : String} {foreignKey : ForeignKey} {keys : List Json}
      {operation : Operation}
      (hforeign : (graph.links referencing).foreignKeys.get? name = some foreignKey)
      (hpolicy : foreignKey.onDelete ≠ .bypass ∧ foreignKey.onDelete ≠ .reject ∧
        foreignKey.onDelete ≠ .delete)
      (hkeys : ∀ key ∈ keys, family foreignKey.collection key)
      (hdetach : foreignKey.detach referencing name (.single name (.oneOf keys)) keys =
        .ok operation) : Handles graph family operation

/-- How the walk over the references changes its draft. Each level marks keys of stored documents,
goes on from there, and schedules the delete of the keys that were new. -/
inductive Walks (graph : Graph) (store : Store) : RemovalDraft → RemovalDraft → Prop
  | refl (draft : RemovalDraft) : Walks graph store draft draft
  | trans {before middle after : RemovalDraft} (hfirst : Walks graph store before middle)
      (hsecond : Walks graph store middle after) : Walks graph store before after
  | detach {draft : RemovalDraft} {referencing name : String} {foreignKey : ForeignKey}
      {keys : List Json} {operation : Operation}
      (hforeign : (graph.links referencing).foreignKeys.get? name = some foreignKey)
      (hpolicy : foreignKey.onDelete ≠ .bypass ∧ foreignKey.onDelete ≠ .reject ∧
        foreignKey.onDelete ≠ .delete)
      (hkeys : keys ⊆ draft.marked foreignKey.collection)
      (hdetach : foreignKey.detach referencing name (.single name (.oneOf keys)) keys =
        .ok operation) : Walks graph store draft (draft.push operation)
  | level {before after : RemovalDraft} {name : String} {found : List Json}
      (hfound : ∀ key ∈ found, (name, key) ∈ storedPairs graph store)
      (h : Walks graph store (before.mark name found) after) :
      Walks graph store before (after.push
        (.delete name ((graph.collection name).keysQuery (before.fresh name found))))

section Walks

variable {graph : Graph} {store : Store} {before after : RemovalDraft}

theorem Operation.Handles.mono {family wider : String → Json → Prop} {operation : Operation}
    (h : operation.Handles graph family) (hwider : ∀ name key, family name key → wider name key) :
    operation.Handles graph wider := by
  cases h with
  | delete hkeys => exact .delete fun key hkey => hwider _ key (hkeys key hkey)
  | detach hforeign hpolicy hkeys hdetach =>
    exact .detach hforeign hpolicy (fun key hkey => hwider _ key (hkeys key hkey)) hdetach

theorem Operation.Handles.isPlanned {family : String → Json → Prop} {operation : Operation}
    (h : operation.Handles graph family) : operation.IsPlanned graph := by
  cases h with
  | delete => exact .delete _ _
  | detach hforeign hpolicy _ hdetach => exact .detach hforeign hpolicy hdetach

theorem Operation.Handles.isScheduled {family : String → Json → Prop} {operation : Operation}
    (h : operation.Handles graph family)
    (hstored : ∀ name key, family name key → (name, key) ∈ storedPairs graph store) :
    operation.IsScheduled graph store := by
  cases h with
  | delete => exact .delete _ _
  | detach hforeign hpolicy hkeys hdetach =>
    exact .detach hforeign hpolicy (fun key hkey => hstored _ key (hkeys key hkey)) hdetach

theorem marked_subset_mark (draft : RemovalDraft) (collection : String) (found : List Json)
    (name : String) : draft.marked name ⊆ (draft.mark collection found).marked name :=
  (marked_prefix_mark draft collection found name).subset

theorem fresh_subset_marked (draft : RemovalDraft) (collection : String) (found : List Json) :
    draft.fresh collection found ⊆ (draft.mark collection found).marked collection := by
  rw [marked_mark, if_pos rfl]
  exact List.subset_append_right _ _

namespace Walks

theorem prefix_marked (h : Walks graph store before after) (name : String) :
    before.marked name <+: after.marked name := by
  induction h with
  | refl => exact List.prefix_rfl
  | trans _ _ hfirst hsecond => exact hfirst.trans hsecond
  | detach => exact List.prefix_rfl
  | level _ _ ih => exact (marked_prefix_mark _ _ _ name).trans ih

theorem marked (h : Walks graph store before after) (name : String) :
    before.marked name ⊆ after.marked name :=
  (h.prefix_marked name).subset

theorem operations (h : Walks graph store before after) : before.operations ⊆ after.operations := by
  induction h with
  | refl => exact List.Subset.refl _
  | trans _ _ hfirst hsecond => exact List.Subset.trans hfirst hsecond
  | detach => exact List.subset_append_left _ _
  | level _ _ ih => exact List.Subset.trans ih (List.subset_append_left _ _)

/-- Only keys of stored documents are marked. -/
theorem stored (h : Walks graph store before after) {name : String} {key : Json}
    (hkey : key ∈ after.marked name) :
    key ∈ before.marked name ∨ (name, key) ∈ storedPairs graph store := by
  induction h with
  | refl => exact .inl hkey
  | trans _ _ hfirst hsecond =>
    rcases hsecond hkey with hmiddle | hstored
    · exact hfirst hmiddle
    · exact .inr hstored
  | detach => exact .inl hkey
  | level hfound _ ih =>
    rcases ih hkey with hmarked | hstored
    · obtain hbefore | ⟨rfl, hfresh⟩ := mem_marked_mark hmarked
      · exact .inl hbefore
      · exact .inr (hfound key (fresh_subset _ _ _ hfresh))
    · exact .inr hstored

/-- What is scheduled handles keys that are marked. -/
theorem handles (h : Walks graph store before after) {operation : Operation}
    (hoperation : operation ∈ after.operations) :
    operation ∈ before.operations ∨
      operation.Handles graph fun name key => key ∈ after.marked name := by
  induction h with
  | refl => exact .inl hoperation
  | trans _ hafter hfirst hsecond =>
    rcases hsecond hoperation with hmiddle | hhandles
    · exact (hfirst hmiddle).imp id fun hhandles => hhandles.mono fun name _ => (hafter.marked name ·)
    · exact .inr hhandles
  | detach hforeign hpolicy hkeys hdetach =>
    rcases List.mem_append.1 hoperation with hbefore | hlast
    · exact .inl hbefore
    · rw [List.mem_singleton.1 hlast]
      exact .inr (.detach hforeign hpolicy hkeys hdetach)
  | level _ hafter ih =>
    rcases List.mem_append.1 hoperation with hmiddle | hlast
    · exact ih hmiddle
    · rw [List.mem_singleton.1 hlast]
      exact .inr (.delete fun key hkey => hafter.marked _ (fresh_subset_marked _ _ _ hkey))

/-- Every key that is marked is listed in a delete. -/
theorem listed (h : Walks graph store before after) {name : String} {key : Json}
    (hkey : key ∈ after.marked name) :
    key ∈ before.marked name ∨
      ∃ operation ∈ after.operations, key ∈ operation.listedKeys (graph.collection name) := by
  induction h with
  | refl => exact .inl hkey
  | trans _ hafter hfirst hsecond =>
    rcases hsecond hkey with hmiddle | hlisted
    · refine (hfirst hmiddle).imp id ?_
      rintro ⟨operation, hoperation, hlisted⟩
      exact ⟨operation, hafter.operations hoperation, hlisted⟩
    · exact .inr hlisted
  | detach => exact .inl hkey
  | @level before after collection found _ _ ih =>
    rcases ih hkey with hmarked | ⟨operation, hoperation, hlisted⟩
    · obtain hbefore | ⟨rfl, hfresh⟩ := mem_marked_mark hmarked
      · exact .inl hbefore
      · refine .inr ⟨_, List.mem_append_right _ (List.mem_singleton_self _), ?_⟩
        rw [listedKeys_keysQuery, if_pos rfl]
        exact hfresh
    · exact .inr ⟨operation, List.mem_append_left _ hoperation, hlisted⟩

end Walks

end Walks

/-- What the operations of a plan, the last delete included, have to do with the keys that it
marks. -/
structure RemovalPlan.Accounts (plan : RemovalPlan) (graph : Graph) (store : Store) : Prop where
  handles : ∀ operation ∈ plan.operations ++ [plan.delete],
    operation.Handles graph fun name key => key ∈ plan.deletedKeys.get name
  stored : ∀ name, ∀ key ∈ plan.deletedKeys.get name, (name, key) ∈ storedPairs graph store
  listed : ∀ name, ∀ key ∈ plan.deletedKeys.get name,
    ∃ operation ∈ plan.operations ++ [plan.delete],
      key ∈ operation.listedKeys (graph.collection name)

namespace Collection

variable {schema : Schema} {graph : Graph} {session : Session} {collection : Collection}
  {draft : RemovalDraft}

variable [Platform]

/-- What the walk does at one foreign key: nothing, an update that detaches, or a cascade. -/
theorem grows_planReference {referencing name : String} {foreignKey : ForeignKey}
    (hcompiled : foreignKey.Compiled name) {keys : List Json} {cascade : Json → Planning Operation}
    (hreads : ∀ query, (cascade query).Reads) {grows : RemovalDraft → Prop} (hrefl : grows draft)
    (hdetach : ∀ operation,
      foreignKey.onDelete ≠ .bypass ∧ foreignKey.onDelete ≠ .reject ∧
        foreignKey.onDelete ≠ .delete →
      foreignKey.detach referencing name (.single name (.oneOf keys)) keys = .ok operation →
      (∀ collection, operation.listedKeys collection = []) → grows (draft.push operation))
    (hcascade : (cascade (.single name (.oneOf keys))).Meets session draft
      (fun operation after => grows (after.push operation)) fun _ => True) :
    (planReference collection (graph.collection referencing) name foreignKey keys cascade).Meets
      session draft (fun _ after => grows after) fun _ => True := by
  rw [planReference_eq]
  split
  case isTrue => exact .pure hrefl
  case isFalse hbypass =>
    have hpolicyReads := reads_planPolicy collection (graph.collection referencing) name foreignKey
      keys hreads
    refine .bind (.lift (.count _ _ _)) (fun count => ?reads) (.lift (.count _ _ _)
      (fun count _ => ?answered) fun _ _ => trivial)
    case reads =>
      split
      · exact .pure _
      · exact hpolicyReads
    split
    case answered.isTrue => exact .pure hrefl
    case answered.isFalse =>
      unfold planPolicy
      split
      case h_1 => exact .pure hrefl
      case h_2 => exact .throw trivial
      case h_3 =>
        exact .bind (hreads _) (fun _ => .schedule _)
          (hcascade.mono fun operation after hafter => .schedule hafter)
      case h_4 hreject hdelete =>
        obtain ⟨operation, hdetached, hlists⟩ := exists_detach hcompiled hbypass hreject hdelete
          (graph.collection referencing).name (.single name (.oneOf keys)) keys
        rw [hdetached]
        exact .schedule (hdetach operation ⟨hbypass, hreject, hdelete⟩ hdetached hlists)

/-- What the walk does at all foreign keys that refer to a collection, one after the other. -/
theorem grows_planReferences (hbuilt : Graph.build schema = .ok graph)
    {options : DeleteOptions} {fuel : Nat} {target : String} {keys : List Json}
    {grows : RemovalDraft → RemovalDraft → Prop} (hrefl : ∀ draft, grows draft draft)
    (htrans : ∀ first second third, grows first second → grows second third → grows first third)
    (hreference : ∀ referencing name foreignKey,
      (graph.links referencing).foreignKeys.get? name = some foreignKey →
      foreignKey.collection = target → ∀ before, grows draft before →
      (planReference (graph.collection target) (graph.collection referencing) name foreignKey keys
        fun query => planFrom options fuel (graph.collection referencing) query false).Meets session
          before (fun _ after => grows before after) fun _ => True) :
    (planReferences options (fuel + 1) (graph.collection target) keys).Meets session draft
      (fun _ after => grows draft after) fun _ => True := by
  have hreads (source : Collection) (query : Json) :
      (planFrom options fuel source query false).Reads := reads_planFrom _ _ _ _ _
  unfold planReferences
  dsimp only
  split
  case isFalse => exact .pure (hrefl draft)
  case isTrue =>
    refine .forM_grows (fun references => .forM fun entry =>
      reads_planReference _ _ _ _ _ (hreads _)) hrefl htrans ?_
    intro references hreferences before hbefore
    refine .forM_grows (fun entry => reads_planReference _ _ _ _ _ (hreads _)) hrefl htrans ?_
    intro entry hentry middle hmiddle
    obtain ⟨hforeign, htarget⟩ :=
      (Graph.mem_references_iff hbuilt).1 ⟨references.2, hreferences, hentry⟩
    exact hreference references.1 entry.1 entry.2 hforeign htarget middle
      (htrans _ _ _ hbefore hmiddle)

/-- What a level of the walk does: it finds keys, marks them, goes on from there, and ends with the
delete of the keys that were new. -/
def Levels (graph : Graph) (session : Session) (name : String) (filter : Json) (single : Bool)
    (draft : RemovalDraft) (operation : Operation) (after : RemovalDraft) : Prop :=
  ∃ found,
    ((graph.collection name).storedKeys filter (if single then some 1 else none)).answer session =
        .ok found ∧
      operation = .delete name ((graph.collection name).keysQuery (draft.fresh name found)) ∧
      Walks graph session.store (draft.mark name found) after

theorem Levels.walks (hbuilt : Graph.build schema = .ok graph) {name : String} {filter : Json}
    {single : Bool} {operation : Operation} {after : RemovalDraft}
    (h : Levels graph session name filter single draft operation after) :
    Walks graph session.store draft (after.push operation) := by
  obtain ⟨found, hfound, rfl, hafter⟩ := h
  exact .level (mem_storedPairs_of_answer hbuilt hfound) hafter

/-- A level of the walk, around whatever follows the references to the keys that it marks. -/
theorem levels_planFrom_of {options : DeleteOptions} {fuel : Nat} {name : String} {filter : Json}
    {single : Bool}
    (hreferences : ∀ keys before, keys ⊆ before.marked name →
      (planReferences options fuel (graph.collection name) keys).Meets session before
        (fun _ after => Walks graph session.store before after) fun _ => True) :
    (planFrom options fuel (graph.collection name) filter single).Meets session draft
      (Levels graph session name filter single draft) fun _ => True := by
  have hfollow (keys : List Json) := reads_planReferences options fuel (graph.collection name) keys
  rw [planFrom_eq]
  refine .bind (.lift (reads_storedKeys _ _ _))
    (fun _ => .bind (.mark _ _) fun _ => .bind (hfollow _) fun _ => .pure _)
    (.lift (reads_storedKeys _ _ _) (fun found hfound => ?_) fun _ _ => trivial)
  refine .bind (.mark _ _) (fun _ => .bind (hfollow _) fun _ => .pure _) ?_
  refine .bind (hfollow _) (fun _ => .pure _)
    ((hreferences _ _ (fresh_subset_marked draft name found)).mono ?_)
  intro _ after hafter
  exact .pure ⟨found, hfound, rfl, hafter⟩

theorem walks_planReferences (hbuilt : Graph.build schema = .ok graph)
    {options : DeleteOptions} {fuel : Nat} {target : String}
    (hplan : ∀ source filter before,
      (planFrom options fuel (graph.collection source) filter false).Meets session before
        (fun operation after => Walks graph session.store before (after.push operation))
        fun _ => True)
    {keys : List Json} (hkeys : keys ⊆ draft.marked target) :
    (planReferences options (fuel + 1) (graph.collection target) keys).Meets session draft
      (fun _ after => Walks graph session.store draft after) fun _ => True := by
  refine grows_planReferences hbuilt .refl (fun _ _ _ => .trans) ?_
  intro referencing name foreignKey hforeign htarget before hbefore
  have hmarked : keys ⊆ before.marked target := List.Subset.trans hkeys (hbefore.marked target)
  refine grows_planReference (Graph.compiled hbuilt hforeign)
    (fun _ => reads_planFrom _ _ _ _ _) (.refl before) ?_ (hplan referencing _ before)
  exact fun operation hpolicy hdetach _ => .detach hforeign hpolicy (htarget ▸ hmarked) hdetach

theorem levels_planFrom (hbuilt : Graph.build schema = .ok graph) (options : DeleteOptions)
    (fuel : Nat) (name : String) (filter : Json) (single : Bool) (draft : RemovalDraft) :
    (planFrom options fuel (graph.collection name) filter single).Meets session draft
      (Levels graph session name filter single draft) fun _ => True := by
  induction fuel generalizing name filter single draft with
  | zero => exact levels_planFrom_of fun _ before _ => .pure (.refl before)
  | succ fuel ih =>
    exact levels_planFrom_of fun _ _ hkeys =>
      walks_planReferences hbuilt (fun source filter before =>
        (ih source filter false before).mono fun _ _ hlevels => hlevels.walks hbuilt) hkeys

/-- A plan is one level of the walk, on an empty draft. -/
theorem levels_of_answer (hbuilt : Graph.build schema = .ok graph) {name : String} {filter : Json}
    {options : DeleteOptions} {plan : RemovalPlan}
    (hplan : ((graph.collection name).planNormalized filter options).answer session = .ok plan) :
    Levels graph session name filter options.single {} plan.delete
      ⟨plan.operations, plan.deletedKeys⟩ := by
  have hlevels : Planning.Meets _ session {} _ _ := levels_planFrom hbuilt options
    (session.store.collections.values.flatten.length + 1) name filter options.single {}
  unfold Planning.Meets at hlevels
  rwa [outcome_of_answer hplan] at hlevels

theorem accounts_of_planNormalized (hbuilt : Graph.build schema = .ok graph) {name : String}
    {filter : Json} {options : DeleteOptions} {plan : RemovalPlan}
    (hplan : ((graph.collection name).planNormalized filter options).answer session = .ok plan) :
    plan.Accounts graph session.store := by
  have hwalks := (levels_of_answer hbuilt hplan).walks hbuilt
  have hnone {name : String} {key : Json} : key ∉ ({} : RemovalDraft).marked name :=
    List.not_mem_nil
  exact ⟨fun operation hoperation => (hwalks.handles hoperation).resolve_left List.not_mem_nil,
    fun name key hkey => (hwalks.stored hkey).resolve_left hnone,
    fun name key hkey => (hwalks.listed hkey).resolve_left hnone⟩

theorem accounts_of_answer (hbuilt : Graph.build schema = .ok graph) {name : String}
    {filter : Json} {options : DeleteOptions} {plan : RemovalPlan}
    (hplan : ((graph.collection name).planDelete filter options).answer session = .ok plan) :
    plan.Accounts graph session.store := by
  rw [planDelete, (reads_normalize _ filter).answer_bind fun _ => reads_planNormalized _ _ _]
    at hplan
  obtain ⟨normalized, -, hnormalized⟩ := bind_eq_ok_iff.1 hplan
  exact accounts_of_planNormalized hbuilt hnormalized

theorem isScheduled_of_answer (hbuilt : Graph.build schema = .ok graph) {name : String}
    {filter : Json} {options : DeleteOptions} {plan : RemovalPlan}
    (hplan : ((graph.collection name).planDelete filter options).answer session = .ok plan) :
    ∀ operation ∈ plan.operations ++ [plan.delete],
      operation.IsScheduled graph session.store := by
  have haccounts := accounts_of_answer hbuilt hplan
  exact fun operation hoperation => (haccounts.handles operation hoperation).isScheduled
    haccounts.stored

end Collection

end LinkedDocs
