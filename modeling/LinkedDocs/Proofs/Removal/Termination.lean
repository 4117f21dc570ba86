import LinkedDocs.Proofs.Removal.Walk

/-!
The walk over the references ends on every graph, also on one with cycles. Each level of it marks a
key that was not marked, so whatever fuel there is beyond the number of keys left to mark, the
outcome is the same.
-/

namespace LinkedDocs.Collection

variable {schema : Schema} {graph : Graph} {session : Session} {family : String → Json → Prop}
  {options : DeleteOptions}

variable [Platform]

theorem outcome_planReference_congr (collection source : Collection) (name : String)
    (foreignKey : ForeignKey) (keys : List Json) {cascade other : Json → Planning Operation}
    (hreads : ∀ query, (cascade query).Reads) (hotherReads : ∀ query, (other query).Reads)
    {draft : RemovalDraft}
    (hsame : foreignKey.onDelete = .delete →
      (cascade (.single name (.oneOf keys))).outcome session draft =
        (other (.single name (.oneOf keys))).outcome session draft) :
    (planReference collection source name foreignKey keys cascade).outcome session draft =
      (planReference collection source name foreignKey keys other).outcome session draft := by
  have hpolicy : (planPolicy collection source name foreignKey keys cascade).outcome session draft =
      (planPolicy collection source name foreignKey keys other).outcome session draft := by
    unfold planPolicy
    split
    case h_3 hdelete =>
      rw [Planning.outcome_bind (hreads _) fun _ => .schedule _,
        Planning.outcome_bind (hotherReads _) fun _ => .schedule _, hsame hdelete]
    all_goals rfl
  have hnext {cascade : Json → Planning Operation} (hreads : ∀ query, (cascade query).Reads)
      (count : Nat) :
      (if count = 0 then pure () else planPolicy collection source name foreignKey keys cascade :
        Planning Unit).Reads := by
    split
    · exact .pure _
    · exact reads_planPolicy _ _ _ _ _ hreads
  rw [planReference_eq, planReference_eq]
  split
  case isTrue => rfl
  case isFalse =>
    rw [Planning.outcome_bind (.lift (.count _ _ _)) (hnext hreads),
      Planning.outcome_bind (.lift (.count _ _ _)) (hnext hotherReads),
      Planning.outcome_lift (.count _ _ _)]
    cases (Access.count source.name (.single name (.oneOf keys)) (some 1)).answer session with
    | error error => rfl
    | ok count =>
      rw [ok_bind, ok_bind, ok_bind]
      dsimp only
      split
      · rfl
      · exact hpolicy

/-- Whether walks from all documents of a collection that match a filter query have the same outcome
with two amounts of fuel, as long as no more keys are left to mark than either of them allows. -/
def WalksAlike (options : DeleteOptions) (graph : Graph) (session : Session)
    (family : String → Json → Prop) (fuel other : Nat) : Prop :=
  ∀ (source : Collection) (filter : Json) (draft : RemovalDraft), source.graph = graph →
    Filter.Evaluates (session.store.documents source.name) filter →
    (∀ document ∈ rootsOf session.store source filter false, ∀ key,
      source.keyOf? document = some key → family source.name key) →
    unmarked graph session.store draft.deletedKeys ≤ fuel →
    unmarked graph session.store draft.deletedKeys ≤ other →
    (planFrom options fuel source filter false).outcome session draft =
      (planFrom options other source filter false).outcome session draft

theorem outcome_cascade_eq (hbuilt : Graph.build schema = .ok graph)
    (hclosed : ClosedUnderCascade graph session.store family) {fuel other : Nat}
    (hsame : WalksAlike options graph session family fuel other) {collection : Collection}
    {keys : List Json} (hkeys : ∀ key ∈ keys, family collection.name key) {draft : RemovalDraft}
    (hfuel : unmarked graph session.store draft.deletedKeys ≤ fuel)
    (hother : unmarked graph session.store draft.deletedKeys ≤ other) {referencing name : String}
    {foreignKey : ForeignKey}
    (hforeign : (graph.links referencing).foreignKeys.get? name = some foreignKey)
    (htarget : foreignKey.collection = collection.name) :
    (planReference collection (graph.collection referencing) name foreignKey keys fun query =>
        planFrom options fuel (graph.collection referencing) query false).outcome session draft =
      (planReference collection (graph.collection referencing) name foreignKey keys fun query =>
        planFrom options other (graph.collection referencing) query false).outcome session draft := by
  have hcompiled := Graph.compiled hbuilt hforeign
  refine outcome_planReference_congr _ _ _ _ _ (fun _ => reads_planFrom _ _ _ _ _)
    (fun _ => reads_planFrom _ _ _ _ _) fun hcascades => ?_
  refine hsame _ _ _ rfl (Filter.evaluates_oneOf hcompiled.isMarked_eq_false _ keys) ?_ hfuel hother
  exact fun _ => hclosed.of_mem hcompiled.isMarked_eq_false hkeys hforeign htarget hcascades

theorem outcome_planReferences_eq (hbuilt : Graph.build schema = .ok graph)
    (hclosed : ClosedUnderCascade graph session.store family) {fuel other : Nat}
    (hwalks : WalksCascade options graph session family fuel)
    (hsame : WalksAlike options graph session family fuel other)
    {collection : Collection} (hgraph : collection.graph = graph) {keys : List Json}
    (hkeys : ∀ key ∈ keys, family collection.name key) {draft : RemovalDraft}
    (hfuel : unmarked graph session.store draft.deletedKeys ≤ fuel)
    (hother : unmarked graph session.store draft.deletedKeys ≤ other) :
    (planReferences options (fuel + 1) collection keys).outcome session draft =
      (planReferences options (other + 1) collection keys).outcome session draft := by
  subst hgraph
  have hreads (fuel : Nat) (source : Collection) (query : Json) :
      (planFrom options fuel source query false).Reads :=
    reads_planFrom _ _ _ _ _
  unfold planReferences
  dsimp only
  split
  case isFalse => rfl
  case isTrue =>
    have hless {before : RemovalDraft}
        (hbefore : Advances collection.graph session.store family draft before) :
        unmarked collection.graph session.store before.deletedKeys ≤
          unmarked collection.graph session.store draft.deletedKeys :=
      unmarked_mono fun name => (hbefore.marked name).subset
    have hmeets {before : RemovalDraft}
        (hbefore : Advances collection.graph session.store family draft before)
        {references : String × ForeignKeys} (hreferences : references ∈ collection.references.entries)
        {entry : String × ForeignKey} (hentry : entry ∈ references.2.entries) :=
      have hreference := (Graph.mem_references_iff hbuilt).1 ⟨references.2, hreferences, hentry⟩
      (meets_cascade hbuilt hclosed hwalks hkeys (Nat.le_trans (hless hbefore) hfuel) hreference.1
        hreference.2).mono fun _ _ h => h.1
    refine Planning.outcome_forM_congr (Advances collection.graph session.store family)
      (FailsByRejection collection.graph session family)
      (fun references => .forM fun entry => reads_planReference _ _ _ _ _ (hreads fuel _))
      (fun references => .forM fun entry => reads_planReference _ _ _ _ _ (hreads other _))
      .refl (fun _ _ _ => .trans) ?_ ?_
    · intro references hreferences before hbefore
      exact .forM_grows (fun entry => reads_planReference _ _ _ _ _ (hreads fuel _)) .refl
        (fun _ _ _ => .trans) fun entry hentry middle hmiddle =>
          hmeets (hbefore.trans hmiddle) hreferences hentry
    · intro references hreferences before hbefore
      refine Planning.outcome_forM_congr (Advances collection.graph session.store family)
        (FailsByRejection collection.graph session family)
        (fun entry => reads_planReference _ _ _ _ _ (hreads fuel _))
        (fun entry => reads_planReference _ _ _ _ _ (hreads other _))
        .refl (fun _ _ _ => .trans) ?_ ?_
      · exact fun entry hentry middle hmiddle =>
          hmeets (hbefore.trans hmiddle) hreferences hentry
      · intro entry hentry middle hmiddle
        obtain ⟨hforeign, htarget⟩ :=
          (Graph.mem_references_iff hbuilt).1 ⟨references.2, hreferences, hentry⟩
        have hleft := hless (hbefore.trans hmiddle)
        exact outcome_cascade_eq hbuilt hclosed hsame hkeys (Nat.le_trans hleft hfuel)
          (Nat.le_trans hleft hother) hforeign htarget

theorem outcome_planFrom_of (hbuilt : Graph.build schema = .ok graph) {fuel other : Nat}
    {collection : Collection} {filter : Json} {single : Bool} {draft : RemovalDraft}
    (hgraph : collection.graph = graph)
    (hevaluates : Filter.Evaluates (session.store.documents collection.name) filter)
    (hreferences : ∀ found, found =
        (rootsOf session.store collection filter single).filterMap collection.keyOf? →
      (planReferences options fuel collection (draft.fresh collection.name found)).outcome session
          (draft.mark collection.name found) =
        (planReferences options other collection (draft.fresh collection.name found)).outcome session
          (draft.mark collection.name found)) :
    (planFrom options fuel collection filter single).outcome session draft =
      (planFrom options other collection filter single).outcome session draft := by
  subst hgraph
  have hanswer := answer_storedKeys (Graph.isValid_of_mem_key hbuilt collection.name) hevaluates
    (if single then some 1 else none)
  have hfollow (fuel : Nat) (keys : List Json) := reads_planReferences options fuel collection keys
  have hlast (fuel : Nat) (keys : List Json) : (do
      planReferences options fuel collection keys
      return .delete collection.name (collection.keysQuery keys) : Planning Operation).Reads :=
    .bind (hfollow fuel keys) fun _ => .pure _
  rw [planFrom_eq, planFrom_eq,
    Planning.outcome_bind (.lift (reads_storedKeys _ _ _)) fun _ => .bind (.mark _ _) (hlast fuel),
    Planning.outcome_bind (.lift (reads_storedKeys _ _ _)) fun _ => .bind (.mark _ _) (hlast other),
    Planning.outcome_lift (reads_storedKeys _ _ _), hanswer]
  split
  · rfl
  · rw [ok_bind, ok_bind, ok_bind, Planning.outcome_bind (.mark _ _) (hlast fuel),
      Planning.outcome_bind (.mark _ _) (hlast other)]
    change Planning.outcome _ session (draft.mark collection.name _) =
      Planning.outcome _ session (draft.mark collection.name _)
    rw [Planning.outcome_bind (hfollow fuel _) fun _ => .pure _,
      Planning.outcome_bind (hfollow other _) fun _ => .pure _]
    exact congrArg (· >>= _) (hreferences _ rfl)

/-- Any fuel that allows for the keys left to mark leads to the same outcome. -/
theorem outcome_planFrom_eq (hbuilt : Graph.build schema = .ok graph)
    (hclosed : ClosedUnderCascade graph session.store family) (hpropagate : options.propagate)
    (fuel other : Nat) (collection : Collection) (filter : Json) (single : Bool)
    (draft : RemovalDraft) (hgraph : collection.graph = graph)
    (hevaluates : Filter.Evaluates (session.store.documents collection.name) filter)
    (hroots : ∀ document ∈ rootsOf session.store collection filter single, ∀ key,
      collection.keyOf? document = some key → family collection.name key)
    (hfuel : unmarked graph session.store draft.deletedKeys ≤ fuel)
    (hother : unmarked graph session.store draft.deletedKeys ≤ other) :
    (planFrom options fuel collection filter single).outcome session draft =
      (planFrom options other collection filter single).outcome session draft := by
  induction fuel generalizing other collection filter single draft with
  | zero =>
    refine outcome_planFrom_of hbuilt hgraph hevaluates ?_
    rintro found rfl
    by_cases hne : draft.fresh collection.name
        ((rootsOf session.store collection filter single).filterMap collection.keyOf?) = []
    · rw [hne, planReferences_nil, planReferences_nil]
    · exact absurd (unmarked_mark_found_lt (mem_storedPairs_of_rootsOf hgraph) hne) (by omega)
  | succ fuel ih =>
    refine outcome_planFrom_of hbuilt hgraph hevaluates ?_
    rintro found rfl
    by_cases hne : draft.fresh collection.name
        ((rootsOf session.store collection filter single).filterMap collection.keyOf?) = []
    · rw [hne, planReferences_nil, planReferences_nil]
    · have hless := unmarked_mark_found_lt (mem_storedPairs_of_rootsOf hgraph) hne
      cases other with
      | zero => exact absurd hless (by omega)
      | succ other =>
        refine outcome_planReferences_eq hbuilt hclosed
          (walksCascade hbuilt hclosed hpropagate fuel)
          (fun source filter draft => ih other source filter false draft) hgraph ?_ (by omega)
          (by omega)
        intro key hkey
        obtain ⟨document, hdocument, hkeyOf⟩ := List.mem_filterMap.1 (fresh_subset _ _ _ hkey)
        exact hroots document hdocument key hkeyOf

end LinkedDocs.Collection
