import LinkedDocs.Platform.Native
import LinkedDocs.Proofs.Removal.Surviving
import Mathlib.Data.List.Pairwise

/-!
The order of the deletes in a plan. What follows the references to some keys is scheduled before the
delete of these keys, so documents that refer to a document go before it or with it. The exception
are keys that are marked but not scheduled yet when the walk meets them again: their delete comes
where their level ends, after all deletes to which they lead.
-/

namespace LinkedDocs

open Json

section

variable [Platform]

/-- Whether the delete of a document cascades to a key, up to its value. -/
def CascadesTo (graph : Graph) (store : Store) (collection : String) (document : Json)
    (target : String) (key : Json) : Prop :=
  ∃ other, other.sameValue key ∧ Cascade graph store collection [document] target other

/-- Whether a delete may come before another one: when a document that the later one lists refers to
a key that the earlier one lists, then the later one lists a document whose delete cascades to this
key. -/
def Operation.MayPrecede (graph : Graph) (store : Store) (earlier later : Operation) : Prop :=
  ∀ ⦃referencing name : String⦄ ⦃foreignKey : ForeignKey⦄ ⦃key document : Json⦄,
    (graph.links referencing).foreignKeys.get? name = some foreignKey →
      foreignKey.onDelete = .delete →
      key ∈ earlier.listedKeys (graph.collection foreignKey.collection) →
      document ∈ store.documents referencing → Refers name key document →
      later.lists (graph.collection referencing) document →
      ∃ other ∈ store.documents referencing,
        later.lists (graph.collection referencing) other ∧
          Cascade graph store referencing [other] foreignKey.collection key

/-- What a part of the walk schedules: its deletes list keys that it marks, the references to these
keys are followed, and each delete may precede those after it. -/
structure Sorts (graph : Graph) (store : Store) (before after : RemovalDraft)
    (operations : List Operation) : Prop where
  operations_eq : after.operations = before.operations ++ operations
  marked : ∀ name, before.marked name ⊆ after.marked name
  listed : ∀ operation ∈ operations, ∀ name, ∀ key ∈ operation.listedKeys (graph.collection name),
    key ∈ after.marked name ∧ holds (before.marked name) key = false
  follows : ∀ operation ∈ operations, ∀ name,
    ∀ key ∈ operation.listedKeys (graph.collection name), after.Follows graph store name key
  mayPrecede : operations.Pairwise (Operation.MayPrecede graph store)

/-- Whether what a part of the walk schedules is so. -/
def GrowsInOrder (graph : Graph) (store : Store) (before after : RemovalDraft) : Prop :=
  ∃ operations, Sorts graph store before after operations

section Sorts

variable {graph : Graph} {store : Store} {before middle after draft : RemovalDraft}
  {operations others : List Operation}

omit [Platform] in
theorem Operation.lists_iff {operation : Operation} {collection : Collection} {document : Json} :
    operation.lists collection document ↔ ∃ key, collection.keyOf? document = some key ∧
      holds (operation.listedKeys collection) key := by
  rw [lists]
  cases collection.keyOf? document <;> simp

theorem RemovalDraft.Follows.mono {target : String} {key : Json}
    (h : before.Follows graph store target key)
    (hmarked : ∀ name, before.marked name ⊆ after.marked name) :
    after.Follows graph store target key :=
  fun _ _ _ _ _ hforeign htarget hcascades hmem hrefers hfound =>
    holds_mono (hmarked _) (h hforeign htarget hcascades hmem hrefers hfound)

namespace Sorts

theorem refl (draft : RemovalDraft) : Sorts graph store draft draft [] where
  operations_eq := (List.append_nil _).symm
  marked _ := List.Subset.refl _
  listed _ hoperation := absurd hoperation List.not_mem_nil
  follows _ hoperation := absurd hoperation List.not_mem_nil
  mayPrecede := .nil

/-- An operation that deletes nothing. -/
theorem push (draft : RemovalDraft) {operation : Operation}
    (h : ∀ collection, operation.listedKeys collection = []) :
    Sorts graph store draft (draft.push operation) [operation] where
  operations_eq := rfl
  marked _ := List.Subset.refl _
  listed other hother name key hkey := by
    rw [List.mem_singleton.1 hother, h] at hkey
    cases hkey
  follows other hother name key hkey := by
    rw [List.mem_singleton.1 hother, h] at hkey
    cases hkey
  mayPrecede := List.pairwise_singleton _ _

theorem trans (hfirst : Sorts graph store before middle operations)
    (hsecond : Sorts graph store middle after others) :
    Sorts graph store before after (operations ++ others) where
  operations_eq := by rw [hsecond.operations_eq, hfirst.operations_eq, List.append_assoc]
  marked name := List.Subset.trans (hfirst.marked name) (hsecond.marked name)
  listed operation hoperation name key hkey := by
    rcases List.mem_append.1 hoperation with hold | hnew
    · obtain ⟨hmarked, hunmarked⟩ := hfirst.listed operation hold name key hkey
      exact ⟨hsecond.marked name hmarked, hunmarked⟩
    · obtain ⟨hmarked, hunmarked⟩ := hsecond.listed operation hnew name key hkey
      refine ⟨hmarked, Bool.eq_false_iff.2 fun hheld => ?_⟩
      rw [holds_mono (hfirst.marked name) hheld] at hunmarked
      cases hunmarked
  follows operation hoperation name key hkey := by
    rcases List.mem_append.1 hoperation with hold | hnew
    · exact (hfirst.follows operation hold name key hkey).mono hsecond.marked
    · exact hsecond.follows operation hnew name key hkey
  mayPrecede := by
    refine List.pairwise_append.2 ⟨hfirst.mayPrecede, hsecond.mayPrecede, ?_⟩
    -- what refers to a key of the first part is marked before the second part begins
    intro earlier hearlier later hlater referencing name foreignKey key document hforeign hcascades
      hkey hmem hrefers hlists
    obtain ⟨found, hfound, hheld⟩ := Operation.lists_iff.1 hlists
    obtain ⟨listed, hlisted, hsame⟩ := holds_iff.1 hheld
    have hmarked := hfirst.follows earlier hearlier _ key hkey hforeign rfl hcascades hmem hrefers
      hfound
    have hunmarked := (hsecond.listed later hlater _ listed hlisted).2
    rw [holds_congr hsame, hmarked] at hunmarked
    cases hunmarked

/-- A level of the walk. Its delete comes last; what the walk has met below it leads back to one of
its keys. -/
theorem level {name : String} {found : List Json}
    (h : Sorts graph store (before.mark name found) after operations)
    (hfollows : ∀ key ∈ before.fresh name found, after.Follows graph store name key)
    (hleads : ∀ target, ∀ key ∈ after.marked target,
      key ∈ (before.mark name found).marked target ∨
        ∃ document ∈ store.documents name, ∃ own ∈ before.fresh name found,
          (graph.collection name).keyOf? document = some own ∧
            Cascade graph store name [document] target key) :
    Sorts graph store before (after.push
        (.delete name ((graph.collection name).keysQuery (before.fresh name found))))
      (operations ++ [.delete name ((graph.collection name).keysQuery (before.fresh name found))])
      where
  operations_eq := by
    change after.operations ++ _ = _
    rw [h.operations_eq, List.append_assoc]
    rfl
  marked other := List.Subset.trans (marked_subset_mark before name found other) (h.marked other)
  listed operation hoperation other key hkey := by
    rcases List.mem_append.1 hoperation with hbelow | hlast
    · obtain ⟨hmarked, hunmarked⟩ := h.listed operation hbelow other key hkey
      refine ⟨hmarked, Bool.eq_false_iff.2 fun hheld => ?_⟩
      rw [holds_mono (marked_subset_mark before name found other) hheld] at hunmarked
      cases hunmarked
    · rw [List.mem_singleton.1 hlast, listedKeys_keysQuery] at hkey
      split at hkey
      case isTrue hname =>
        subst hname
        exact ⟨h.marked other (fresh_subset_marked before other found hkey),
          DeletedKeys.holds_eq_false_of_mem_freshKeys hkey⟩
      case isFalse => cases hkey
  follows operation hoperation other key hkey := by
    rcases List.mem_append.1 hoperation with hbelow | hlast
    · exact h.follows operation hbelow other key hkey
    · rw [List.mem_singleton.1 hlast, listedKeys_keysQuery] at hkey
      split at hkey
      case isTrue hname =>
        subst hname
        exact hfollows key hkey
      case isFalse => cases hkey
  mayPrecede := by
    refine List.pairwise_append.2 ⟨h.mayPrecede, List.pairwise_singleton _ _, ?_⟩
    intro earlier hearlier later hlater referencing foreignName foreignKey key document hforeign
      hcascades hkey hmem hrefers hlists
    rw [List.mem_singleton.1 hlater] at hlists ⊢
    obtain ⟨key', hkey', hheld⟩ := Operation.lists_iff.1 hlists
    rw [listedKeys_keysQuery] at hheld
    split at hheld
    case isFalse => cases hheld
    case isTrue hname =>
      subst hname
      obtain ⟨hmarked, hunmarked⟩ := h.listed earlier hearlier _ key hkey
      rcases hleads _ key hmarked with hbefore | ⟨other, hother, own, hown, hkeyOf, hcascade⟩
      · rw [holds_of_mem hbefore] at hunmarked
        cases hunmarked
      · refine ⟨other, hother, Operation.lists_iff.2 ⟨own, hkeyOf, ?_⟩, hcascade⟩
        rw [listedKeys_keysQuery, if_pos rfl]
        exact holds_of_mem hown

end Sorts

theorem GrowsInOrder.refl (draft : RemovalDraft) : GrowsInOrder graph store draft draft :=
  ⟨[], .refl draft⟩

theorem GrowsInOrder.trans (hfirst : GrowsInOrder graph store before middle)
    (hsecond : GrowsInOrder graph store middle after) : GrowsInOrder graph store before after := by
  obtain ⟨operations, hoperations⟩ := hfirst
  obtain ⟨others, hothers⟩ := hsecond
  exact ⟨operations ++ others, hoperations.trans hothers⟩

end Sorts

namespace Collection

variable {schema : Schema} {graph : Graph} {session : Session} {options : DeleteOptions}
  {draft : RemovalDraft}

/-- Below a level of the walk only keys are marked to which the delete of one of its documents
cascades. -/
theorem meets_planReferences_fresh (hbuilt : Graph.build schema = .ok graph)
    (hpropagate : options.propagate) {fuel : Nat} {name : String} {found : List Json}
    (hstored : ∀ key ∈ found, (name, key) ∈ storedPairs graph session.store)
    (hfuel : unmarked graph session.store draft.deletedKeys ≤ fuel)
    (hsorts : ∀ less < fuel, ∀ before, unmarked graph session.store before.deletedKeys ≤ less →
      (planReferences options (less + 1) (graph.collection name)
        (draft.fresh name found)).Meets session before
          (fun _ after => GrowsInOrder graph session.store before after) fun _ => True) :
    (planReferences options fuel (graph.collection name) (draft.fresh name found)).Meets session
      (draft.mark name found)
      (fun _ after => GrowsInOrder graph session.store (draft.mark name found) after ∧
        (∀ key ∈ draft.fresh name found, after.Follows graph session.store name key) ∧
        ∀ target, ∀ key ∈ after.marked target, key ∈ (draft.mark name found).marked target ∨
          ∃ document ∈ session.store.documents name, ∃ own ∈ draft.fresh name found,
            (graph.collection name).keyOf? document = some own ∧
              Cascade graph session.store name [document] target key)
      fun _ => True := by
  by_cases hne : draft.fresh name found = []
  · rw [hne, planReferences_nil]
    exact .pure ⟨.refl _, fun _ hkey => absurd hkey List.not_mem_nil, fun _ _ => .inl⟩
  · have hless : unmarked graph session.store (draft.mark name found).deletedKeys <
        unmarked graph session.store draft.deletedKeys :=
      @unmarked_mark_found_lt graph (graph.collection name) _ _ _ hstored hne
    let family (target : String) (key : Json) : Prop :=
      ∃ document ∈ session.store.documents name, ∃ own ∈ draft.fresh name found,
        (graph.collection name).keyOf? document = some own ∧
          Cascade graph session.store name [document] target key
    have hclosed : ClosedUnderCascade graph session.store family := by
      rintro target referencing foreignName foreignKey key document below
        ⟨other, hother, own, hown, hkeyOf, hcascade⟩ hforeign htarget hcascades hmem hrefers hbelow
      exact ⟨other, hother, own, hown, hkeyOf,
        .step hcascade hforeign htarget hcascades hmem hrefers hbelow⟩
    have hroots : ∀ key ∈ draft.fresh name found, family name key := by
      intro key hkey
      obtain ⟨document, hdocument, hkeyOf⟩ :=
        exists_of_mem_storedPairs (hstored key (fresh_subset _ _ _ hkey))
      exact ⟨document, hdocument, key, hkey, hkeyOf, .root List.mem_cons_self hkeyOf⟩
    cases fuel with
    | zero => exact absurd hless (by omega)
    | succ fuel =>
      refine ((hsorts fuel (Nat.lt_succ_self _) _ (by omega)).and
        (meets_planReferences hbuilt rfl hclosed hpropagate
          (walksCascade hbuilt hclosed hpropagate fuel) hne hroots (by omega))).mono ?_
      rintro _ after ⟨hsorts, hadvances, hsettled⟩
      exact ⟨hsorts, fun key hkey => (hsettled key hkey).follows hbuilt, hadvances.sound⟩

/-- The walk sorts what it schedules, as long as the fuel allows for the keys left to mark. -/
theorem sorts_planFrom (hbuilt : Graph.build schema = .ok graph) (hpropagate : options.propagate)
    (fuel : Nat) (name : String) (filter : Json) (single : Bool) (draft : RemovalDraft)
    (hfuel : unmarked graph session.store draft.deletedKeys ≤ fuel) :
    (planFrom options fuel (graph.collection name) filter single).Meets session draft
      (fun operation after => GrowsInOrder graph session.store draft (after.push operation))
      fun _ => True := by
  induction fuel using Nat.strongRecOn generalizing name filter single draft with
  | ind fuel ih =>
    have hfollow (keys : List Json) := reads_planReferences options fuel (graph.collection name) keys
    rw [planFrom_eq]
    refine .bind (.lift (reads_storedKeys _ _ _))
      (fun _ => .bind (.mark _ _) fun _ => .bind (hfollow _) fun _ => .pure _)
      (.lift (reads_storedKeys _ _ _) (fun found hfound => ?_) fun _ _ => trivial)
    refine .bind (.mark _ _) (fun _ => .bind (hfollow _) fun _ => .pure _) ?_
    refine .bind (hfollow _) (fun _ => .pure _) ((meets_planReferences_fresh hbuilt hpropagate
      (mem_storedPairs_of_answer hbuilt hfound) hfuel ?_).mono ?_)
    · intro less hless before hbefore
      refine grows_planReferences hbuilt .refl (fun _ _ _ => .trans) ?_
      rintro referencing foreignName foreignKey hforeign - middle ⟨_, hmiddle⟩
      refine grows_planReference (Graph.compiled hbuilt hforeign)
        (fun _ => reads_planFrom _ _ _ _ _) (.refl middle)
        (fun _ _ _ hlists => ⟨_, .push middle hlists⟩) (ih less hless _ _ _ middle ?_)
      exact Nat.le_trans (unmarked_mono hmiddle.marked) hbefore
    · rintro _ after ⟨⟨operations, hsorts⟩, hfollows, hleads⟩
      exact .pure ⟨_, hsorts.level hfollows hleads⟩

/-- Without propagation nothing but the delete itself is planned. -/
theorem operations_planFrom_of_not_propagate (single : Bool) (fuel : Nat) (collection : Collection)
    (filter : Json) (first : Bool) (draft : RemovalDraft) :
    (planFrom ⟨false, single⟩ fuel collection filter first).Meets session draft
      (fun _ after => after.operations = draft.operations) fun _ => True := by
  rw [planFrom_eq]
  simp only [planReferences_of_not_propagate, pure_bind]
  exact .bind (.lift (reads_storedKeys _ _ _)) (fun _ => .bind (.mark _ _) fun _ => .pure _)
    (.lift (reads_storedKeys _ _ _) (fun _ _ => .bind (.mark _ _) (fun _ => .pure _) rfl)
      fun _ _ => trivial)

/-- In a plan each operation may precede those after it. -/
theorem pairwise_mayPrecede_of_answer (hbuilt : Graph.build schema = .ok graph) {name : String}
    {filter : Json} {plan : RemovalPlan}
    (hplan : ((graph.collection name).planDelete filter options).answer session = .ok plan) :
    (plan.operations ++ [plan.delete]).Pairwise
      (Operation.MayPrecede graph session.store) := by
  rw [planDelete, (reads_normalize _ filter).answer_bind fun _ => reads_planNormalized _ _ _]
    at hplan
  obtain ⟨normalized, -, hnormalized⟩ := bind_eq_ok_iff.1 hplan
  have houtcome := outcome_of_answer hnormalized
  obtain ⟨propagate, single⟩ := options
  cases propagate with
  | false =>
    have hmeets : Planning.Meets _ session {} _ _ := operations_planFrom_of_not_propagate single
      (session.store.collections.values.flatten.length + 1) (graph.collection name) normalized single
      {}
    unfold Planning.Meets at hmeets
    rw [houtcome] at hmeets
    have hnone : plan.operations = [] := hmeets
    rw [hnone]
    exact List.pairwise_singleton _ _
  | true =>
    have hpropagate : DeleteOptions.propagate ⟨true, single⟩ := rfl
    have hmeets := sorts_planFrom hbuilt hpropagate
      (session.store.collections.values.flatten.length + 1) name normalized single {}
      (Nat.le_succ_of_le (unmarked_empty_le graph session.store))
    unfold Planning.Meets at hmeets
    rw [houtcome] at hmeets
    obtain ⟨operations, hsorts⟩ := hmeets
    have hoperations : plan.operations ++ [plan.delete] = operations := hsorts.operations_eq
    rw [hoperations]
    exact hsorts.mayPrecede

/-- A document that refers to another one in a foreign key that cascades is not deleted after it,
unless the delete of a document that is deleted together with the first one cascades to the second
one. For the first one itself that would be a cycle of references. -/
theorem position_le_of_refers (hbuilt : Graph.build schema = .ok graph) {name : String}
    {filter : Json} {plan : RemovalPlan}
    (hplan : ((graph.collection name).planDelete filter options).answer session = .ok plan)
    {referencing foreignName : String} {foreignKey : ForeignKey}
    (hforeign : (graph.links referencing).foreignKeys.get? foreignName = some foreignKey)
    (hcascades : foreignKey.onDelete = .delete) {document referred key : Json}
    (hdocument : document ∈ session.store.documents referencing)
    (hkey : (graph.collection foreignKey.collection).keyOf? referred = some key)
    (hrefers : Refers foreignName key document) {position other : Nat} {operation next : Operation}
    (hoperation : (plan.operations ++ [plan.delete])[position]? = some operation)
    (hlists : operation.lists (graph.collection referencing) document)
    (hnext : (plan.operations ++ [plan.delete])[other]? = some next)
    (hnextLists : next.lists (graph.collection foreignKey.collection) referred)
    (hapart : ∀ together ∈ session.store.documents referencing,
      operation.lists (graph.collection referencing) together →
        ¬CascadesTo graph session.store referencing together foreignKey.collection key) :
    position ≤ other := by
  by_contra hafter
  obtain ⟨hposition, rfl⟩ := List.getElem?_eq_some_iff.1 hoperation
  obtain ⟨hother, rfl⟩ := List.getElem?_eq_some_iff.1 hnext
  have hprecedes := List.pairwise_iff_getElem.1 (pairwise_mayPrecede_of_answer hbuilt hplan) other
    position hother hposition (Nat.lt_of_not_le hafter)
  obtain ⟨found, hfound, hheld⟩ := Operation.lists_iff.1 hnextLists
  cases hfound.symm.trans hkey
  obtain ⟨listed, hlisted, hsame⟩ := holds_iff.1 hheld
  have hname := (Graph.compiled hbuilt hforeign).isMarked_eq_false
  obtain ⟨together, htogether, hlistsTogether, hcascade⟩ := hprecedes hforeign hcascades hlisted
    hdocument (hrefers.congr hname (sameValue_symm hsame)) hlists
  exact hapart together htogether hlistsTogether ⟨listed, hsame, hcascade⟩

end Collection

/-- Whether the references that cascade form no cycle: no document refers to a key to which its own
delete cascades. -/
def Store.IsAcyclic (graph : Graph) (store : Store) : Prop :=
  ∀ referencing name foreignKey,
    (graph.links referencing).foreignKeys.get? name = some foreignKey →
      foreignKey.onDelete = .delete → ∀ document ∈ store.documents referencing, ∀ key,
        Refers name key document →
          ¬CascadesTo graph store referencing document foreignKey.collection key

section Acyclic

variable {schema : Schema} {graph : Graph} {store : Store}

/-- Whether keys listed for each collection are closed under the references that cascade. -/
def IsClosed (graph : Graph) (store : Store) (keys : String → List Json) : Prop :=
  ∀ referencing name foreignKey,
    (graph.links referencing).foreignKeys.get? name = some foreignKey →
      foreignKey.onDelete = .delete → ∀ document ∈ store.documents referencing,
        ∀ key ∈ keys foreignKey.collection,
          Filter.anyAmong (Filter.lookup document name) [key] →
            ((graph.collection referencing).keyOf? document).all (holds (keys referencing))

theorem IsClosed.closedUnderCascade (hbuilt : Graph.build schema = .ok graph)
    {keys : String → List Json} (h : IsClosed graph store keys) :
    Collection.ClosedUnderCascade graph store fun target key => holds (keys target) key := by
  rintro target referencing name foreignKey key document found hkey hforeign rfl hcascades hmem
    hrefers hfound
  have hname := (Graph.compiled hbuilt hforeign).isMarked_eq_false
  obtain ⟨listed, hlisted, hsame⟩ := holds_iff.1 hkey
  have hlistedRefers := hrefers.congr hname (sameValue_symm hsame)
  rw [Refers, Filter.accepts_oneOf hname, Except.ok.injEq] at hlistedRefers
  have hall := h _ _ _ hforeign hcascades document hmem listed hlisted hlistedRefers
  rwa [hfound] at hall

/-- The delete of a document cascades only to keys that are listed, when what is listed is closed
and has the key of the document. -/
theorem CascadesTo.holds_of_isClosed (hbuilt : Graph.build schema = .ok graph)
    {keys : String → List Json} (hclosed : IsClosed graph store keys)
    {collection target : String} {document key : Json}
    (hroot : ((graph.collection collection).keyOf? document).all (holds (keys collection)))
    (h : CascadesTo graph store collection document target key) : holds (keys target) key := by
  obtain ⟨other, hsame, hcascade⟩ := h
  rw [← holds_congr hsame]
  clear hsame
  induction hcascade with
  | root hdocument hkey =>
    cases List.mem_singleton.1 hdocument
    rwa [hkey] at hroot
  | step _ hforeign htarget hcascades hmem hrefers hfound ih =>
    exact hclosed.closedUnderCascade hbuilt _ _ _ _ _ _ _ ih hforeign htarget hcascades hmem hrefers
      hfound

/-- References form no cycle when what is listed below each document has no key to which it
refers. -/
theorem Store.isAcyclic_of_isClosed (hbuilt : Graph.build schema = .ok graph)
    (below : Json → String → List Json)
    (hclosed : ∀ name, ∀ document ∈ store.documents name, IsClosed graph store (below document) ∧
      ((graph.collection name).keyOf? document).all (holds (below document name)))
    (hnone : ∀ referencing name foreignKey,
      (graph.links referencing).foreignKeys.get? name = some foreignKey →
        foreignKey.onDelete = .delete → ∀ document ∈ store.documents referencing,
          ∀ key ∈ below document foreignKey.collection,
            Filter.anyAmong (Filter.lookup document name) [key] = false) :
    store.IsAcyclic graph := by
  intro referencing name foreignKey hforeign hcascades document hdocument key hrefers hcascade
  have hname := (Graph.compiled hbuilt hforeign).isMarked_eq_false
  obtain ⟨hbelow, hroot⟩ := hclosed referencing document hdocument
  obtain ⟨listed, hlisted, hsame⟩ := holds_iff.1 (hcascade.holds_of_isClosed hbuilt hbelow hroot)
  have hlistedRefers := hrefers.congr hname (sameValue_symm hsame)
  rw [Refers, Filter.accepts_oneOf hname, Except.ok.injEq,
    hnone _ _ _ hforeign hcascades document hdocument listed hlisted] at hlistedRefers
  cases hlistedRefers

end Acyclic

end

namespace Collection

def rowMiddle : Json :=
  .object [("_id", .string "b"), ("next", .string "a")]

def rowLast : Json :=
  .object [("_id", .string "c"), ("next", .string "b")]

def rowSession : Session where
  store := { collections := .ofList [("nodes",
    [.object [("_id", .string "a")], rowMiddle, rowLast])] }

/-- The keys of a node and of those behind it. -/
def rowFrom (node : Json) (name : String) : List Json :=
  if name = "nodes" then
    [.string "a", .string "b", .string "c"].dropWhile fun key =>
      !((ringSchema.graph.collection "nodes").keyOf? node).any key.sameValue
  else []

theorem isClosed_rowFrom : ∀ name, ∀ document ∈ rowSession.store.documents name,
    IsClosed ringSchema.graph rowSession.store (rowFrom document) ∧
      ((ringSchema.graph.collection name).keyOf? document).all (holds (rowFrom document name)) := by
  refine Store.forall_documents fun entry hentry document hdocument => ⟨?_, ?_⟩
  · refine Graph.forall_foreignKeys ?_
    revert entry document
    decide
  · revert entry document
    decide

/-- When the first node is deleted, the last one goes before the middle one, to which it refers. -/
theorem position_le_row : ∃ plan operation next,
    ((ringSchema.graph.collection "nodes").planDelete (.single "_id" (.string "a")) {}).answer
      rowSession = .ok plan ∧
    (plan.operations ++ [plan.delete])[0]? = some operation ∧
    operation.lists (ringSchema.graph.collection "nodes") rowLast ∧
    (plan.operations ++ [plan.delete])[1]? = some next ∧
    next.lists (ringSchema.graph.collection "nodes") rowMiddle ∧ 0 ≤ 1 := by
  have hforeign : (ringSchema.graph.links "nodes").foreignKeys.get? "next" =
      some ⟨["next"], "nodes", .verify, .delete, none⟩ := rfl
  have hmem : rowLast ∈ rowSession.store.documents "nodes" :=
    List.mem_cons_of_mem _ (List.mem_cons_of_mem _ List.mem_cons_self)
  have hrefers : Refers "next" (.string "b") rowLast := rfl
  let last : Operation :=
    .delete "nodes" ((ringSchema.graph.collection "nodes").keysQuery [.string "c"])
  let middle : Operation :=
    .delete "nodes" ((ringSchema.graph.collection "nodes").keysQuery [.string "b"])
  have hlast : last.lists (ringSchema.graph.collection "nodes") rowLast := by decide
  have hmiddle : middle.lists (ringSchema.graph.collection "nodes") rowMiddle := by decide
  obtain ⟨plan, hplan, hfirst, hsecond⟩ : ∃ plan,
      ((ringSchema.graph.collection "nodes").planDelete (.single "_id" (.string "a")) {}).answer
        rowSession = .ok plan ∧
      (plan.operations ++ [plan.delete])[0]? = some last ∧
      (plan.operations ++ [plan.delete])[1]? = some middle := ⟨_, rfl, rfl, rfl⟩
  refine ⟨plan, last, middle, hplan, hfirst, hlast, hsecond, hmiddle, ?_⟩
  refine position_le_of_refers (ringSchema.build_graph rfl) hplan hforeign rfl hmem rfl hrefers
    hfirst hlast hsecond hmiddle ?_
  -- only the last node is deleted by the first operation, and nothing refers to it
  intro together htogether hlists hcascades
  have hroot : ∀ together ∈ rowSession.store.documents "nodes",
      last.lists (ringSchema.graph.collection "nodes") together →
        ((ringSchema.graph.collection "nodes").keyOf? together).all
          (holds (rowFrom rowLast "nodes")) := by
    decide
  exact absurd (hcascades.holds_of_isClosed (ringSchema.build_graph rfl)
    (isClosed_rowFrom "nodes" rowLast hmem).1 (hroot together htogether hlists)) (by decide)

/-- When the first and the last node are deleted together, they are marked together and go after the
middle one. So a node goes after one to which it refers although there is no cycle. -/
theorem not_position_le_row : ∃ plan operation next,
    ((ringSchema.graph.collection "nodes").planDelete
      (.single "_id" (.oneOf [.string "a", .string "c"])) {}).answer rowSession = .ok plan ∧
    rowSession.store.IsAcyclic ringSchema.graph ∧
    rowLast ∈ rowSession.store.documents "nodes" ∧ rowMiddle ∈ rowSession.store.documents "nodes" ∧
    (ringSchema.graph.collection "nodes").keyOf? rowMiddle = some (.string "b") ∧
    Refers "next" (.string "b") rowLast ∧
    (plan.operations ++ [plan.delete])[2]? = some operation ∧
    operation.lists (ringSchema.graph.collection "nodes") rowLast ∧
    (plan.operations ++ [plan.delete])[1]? = some next ∧
    next.lists (ringSchema.graph.collection "nodes") rowMiddle ∧ ¬2 ≤ 1 := by
  have hacyclic : rowSession.store.IsAcyclic ringSchema.graph := by
    refine Store.isAcyclic_of_isClosed (ringSchema.build_graph rfl) rowFrom isClosed_rowFrom ?_
    refine Graph.forall_foreignKeys ?_
    decide
  exact ⟨_, _, _, rfl, hacyclic, List.mem_cons_of_mem _ (List.mem_cons_of_mem _ List.mem_cons_self),
    List.mem_cons_of_mem _ List.mem_cons_self, rfl, rfl, rfl, by decide, rfl, by decide, by decide⟩

end Collection

end LinkedDocs
