import LinkedDocs.Proofs.Collection.Keys
import LinkedDocs.Proofs.Removal.Advance

namespace LinkedDocs

open Json

namespace Collection

variable {graph : Graph} {collection : Collection}

theorem eq_collection (hgraph : collection.graph = graph) :
    graph.collection collection.name = collection := by
  subst hgraph
  rfl

/-- The part of the walk that follows the delete policy of a foreign key that holds keys. -/
def planPolicy (collection source : Collection) (name : String) (foreignKey : ForeignKey)
    (keys : List Json) (cascade : Json → Planning Operation) : Planning Unit :=
  match foreignKey.onDelete with
  | .bypass => pure ()
  | .reject => throw (.deleteRejected collection.name source.name name)
  | .delete => do Planning.schedule (← cascade (.single name (.oneOf keys)))
  | _ =>
    match foreignKey.detach source.name name (.single name (.oneOf keys)) keys with
    | .ok operation => Planning.schedule operation
    | .error error => throw error

theorem reads_planPolicy (collection source : Collection) (name : String)
    (foreignKey : ForeignKey) (keys : List Json) {cascade : Json → Planning Operation}
    (hcascade : ∀ query, (cascade query).Reads) :
    (planPolicy collection source name foreignKey keys cascade).Reads := by
  unfold planPolicy
  split
  · exact .pure _
  · exact .throw _
  · exact .bind (hcascade _) fun _ => .schedule _
  · split
    · exact .schedule _
    · exact .throw _

theorem exists_detach {name : String} {foreignKey : ForeignKey}
    (hcompiled : foreignKey.Compiled name) (hbypass : foreignKey.onDelete ≠ .bypass)
    (hreject : foreignKey.onDelete ≠ .reject) (hdelete : foreignKey.onDelete ≠ .delete)
    (referencing : String) (filter : Json) (keys : List Json) :
    ∃ operation, foreignKey.detach referencing name filter keys = .ok operation ∧
      ∀ collection, operation.listedKeys collection = [] := by
  obtain ⟨updater, hupdater⟩ := hcompiled.exists_updater hbypass hreject hdelete
  unfold ForeignKey.detach
  rw [hupdater]
  dsimp only
  split
  · exact ⟨_, rfl, fun _ => rfl⟩
  · exact ⟨_, rfl, fun _ => rfl⟩
  · exact ⟨_, rfl, fun _ => rfl⟩

/-- A planned operation that lists a key of a collection is a delete there. -/
theorem exists_eq_delete_of_mem_listedKeys {schema : Schema}
    (hbuilt : Graph.build schema = .ok graph) {operation : Operation}
    (hplanned : operation.IsPlanned graph) {name : String} {key : Json}
    (hlisted : key ∈ operation.listedKeys (graph.collection name)) :
    ∃ keys, operation = .delete name ((graph.collection name).keysQuery keys) ∧ key ∈ keys := by
  cases hplanned with
  | delete collection keys =>
    rw [listedKeys_keysQuery] at hlisted
    split at hlisted
    case isTrue hname =>
      subst hname
      exact ⟨keys, rfl, hlisted⟩
    case isFalse => cases hlisted
  | @detach referencing path foreignKey keys _ hforeign hpolicy hdetach =>
    obtain ⟨_, hdetached, hlists⟩ := exists_detach (Graph.compiled hbuilt hforeign) hpolicy.1
      hpolicy.2.1 hpolicy.2.2 referencing (.single path (.oneOf keys)) keys
    cases hdetach.symm.trans hdetached
    rw [hlists] at hlisted
    cases hlisted

variable [Platform]

theorem planReference_eq (collection source : Collection) (name : String) (foreignKey : ForeignKey)
    (keys : List Json) (cascade : Json → Planning Operation) :
    planReference collection source name foreignKey keys cascade =
      if foreignKey.onDelete = .bypass then pure ()
      else (do
        let count ← Access.count source.name (.single name (.oneOf keys)) (some 1)
        if count = 0 then pure ()
        else planPolicy collection source name foreignKey keys cascade) :=
  rfl

theorem reads_planReference (collection source : Collection) (name : String)
    (foreignKey : ForeignKey) (keys : List Json) {cascade : Json → Planning Operation}
    (hcascade : ∀ query, (cascade query).Reads) :
    (planReference collection source name foreignKey keys cascade).Reads := by
  rw [planReference_eq]
  split
  · exact .pure _
  · refine .bind (.lift (.count _ _ _)) fun count => ?_
    split
    · exact .pure _
    · exact reads_planPolicy _ _ _ _ _ hcascade

/-- The part of the walk that follows the references to newly marked keys. -/
def planReferences (options : DeleteOptions) (fuel : Nat) (collection : Collection)
    (keys : List Json) : Planning Unit :=
  match fuel with
  | 0 => pure ()
  | fuel + 1 =>
    if options.propagate && !keys.isEmpty then
      collection.references.entries.forM fun (referencing, foreignKeys) =>
        foreignKeys.entries.forM fun (name, foreignKey) =>
          planReference collection (collection.graph.collection referencing) name foreignKey keys
            fun query =>
              planFrom options fuel (collection.graph.collection referencing) query false
    else pure ()

theorem planFrom_eq (options : DeleteOptions) (fuel : Nat) (collection : Collection)
    (filter : Json) (single : Bool) :
    planFrom options fuel collection filter single = (do
      let found ← collection.storedKeys filter (if single then some 1 else none)
      let keys ← Planning.mark collection.name found
      planReferences options fuel collection keys
      return .delete collection.name (collection.keysQuery keys)) := by
  cases fuel with
  | zero =>
    unfold planFrom planReferences
    simp only [pure_bind, ite_self]
  | succ fuel =>
    unfold planFrom planReferences
    refine bind_congr fun found => bind_congr fun keys => ?_
    dsimp only
    split
    · rfl
    · rw [pure_bind]

/-- Without propagation there is nothing to walk. -/
theorem planReferences_of_not_propagate (single : Bool) (fuel : Nat) (collection : Collection)
    (keys : List Json) : planReferences ⟨false, single⟩ fuel collection keys = pure () := by
  cases fuel <;> rfl

theorem reads_planReferences_succ {options : DeleteOptions} {fuel : Nat}
    (hplan : ∀ collection filter single,
      (planFrom options fuel collection filter single).Reads)
    (collection : Collection) (keys : List Json) :
    (planReferences options (fuel + 1) collection keys).Reads := by
  unfold planReferences
  dsimp only
  split
  · exact .forM fun references => .forM fun entry =>
      reads_planReference _ _ _ _ _ fun query => hplan _ query false
  · exact .pure _

theorem reads_planFrom (options : DeleteOptions) (fuel : Nat) (collection : Collection)
    (filter : Json) (single : Bool) : (planFrom options fuel collection filter single).Reads := by
  induction fuel generalizing collection filter single with
  | zero =>
    rw [planFrom_eq]
    exact .bind (.lift (reads_storedKeys _ _ _)) fun _ => .bind (.mark _ _) fun _ =>
      .bind (.pure _) fun _ => .pure _
  | succ fuel ih =>
    rw [planFrom_eq]
    exact .bind (.lift (reads_storedKeys _ _ _)) fun _ => .bind (.mark _ _) fun _ =>
      .bind (reads_planReferences_succ ih _ _) fun _ => .pure _

theorem reads_planReferences (options : DeleteOptions) (fuel : Nat) (collection : Collection)
    (keys : List Json) : (planReferences options fuel collection keys).Reads := by
  cases fuel with
  | zero => exact .pure _
  | succ fuel => exact reads_planReferences_succ (reads_planFrom options fuel) collection keys

/-- What a failure of the walk means, in a store that answers. -/
def FailsByRejection (graph : Graph) (session : Session) (family : String → Json → Prop)
    (error : Error) : Prop :=
  session.refused.contains .find = false → session.refused.contains .count = false →
    (∃ target referencing name, error = .deleteRejected target referencing name) ∧
      Rejects graph session.store family

section Walk

variable {session : Session} {family : String → Json → Prop}

/-- Counting the referring documents up to one tells whether there are any. -/
theorem answer_count_eq_ok {referencing name : String} (hname : isMarked name = false)
    {keys : List Json} {count : Nat}
    (h : (Access.count referencing (.single name (.oneOf keys)) (some 1)).answer session =
      .ok count) :
    count = 0 ↔ referringDocuments session.store referencing name keys = [] := by
  rw [Access.answer_count, Store.count, Store.inCollection,
    Store.countIn_matching (Filter.evaluates_oneOf hname _ keys)] at h
  split at h
  · cases h
  · cases h
    change (Store.inRoom (some 1) (referringDocuments session.store referencing name keys)).length =
      0 ↔ _
    cases referringDocuments session.store referencing name keys <;> simp [Store.inRoom]

theorem refers_of_mem {referencing name : String} (hname : isMarked name = false)
    {store : Store} {keys : List Json} {document : Json}
    (h : document ∈ referringDocuments store referencing name keys) :
    document ∈ store.documents referencing ∧ ∃ key ∈ keys, Refers name key document := by
  obtain ⟨hmem, hamong⟩ := (Filter.mem_matching_oneOf_iff hname).1 h
  obtain ⟨key, hkey, hone⟩ := Filter.anyAmong_iff.1 hamong
  exact ⟨hmem, key, hkey, by rw [Refers, Filter.accepts_oneOf hname, hone]⟩

theorem mem_referringDocuments {referencing name : String} (hname : isMarked name = false)
    {store : Store} {keys : List Json} {document key : Json}
    (hmem : document ∈ store.documents referencing) (hkey : key ∈ keys)
    (hrefers : Refers name key document) :
    document ∈ referringDocuments store referencing name keys := by
  rw [Refers, Filter.accepts_oneOf hname, Except.ok.injEq] at hrefers
  exact (Filter.mem_matching_oneOf_iff hname).2 ⟨hmem, Filter.anyAmong_iff.2 ⟨key, hkey, hrefers⟩⟩

theorem meets_planPolicy {draft : RemovalDraft} {referencing name : String}
    {foreignKey : ForeignKey} {keys : List Json} {cascade : Json → Planning Operation}
    (hforeign : (graph.links referencing).foreignKeys.get? name = some foreignKey)
    (hcompiled : foreignKey.Compiled name) (htarget : foreignKey.collection = collection.name)
    (hkeys : ∀ key ∈ keys, family collection.name key) (hreads : ∀ query, (cascade query).Reads)
    (hbypass : foreignKey.onDelete ≠ .bypass)
    (hreferred : referringDocuments session.store referencing name keys ≠ [])
    (hcascade : foreignKey.onDelete = .delete →
      (cascade (.single name (.oneOf keys))).Meets session draft
        (fun operation after => Advances graph session.store family draft (after.push operation) ∧
          ∀ document ∈ referringDocuments session.store referencing name keys, ∀ key,
            (graph.collection referencing).keyOf? document = some key →
              holds (after.marked referencing) key)
        (FailsByRejection graph session family)) :
    (planPolicy collection (graph.collection referencing) name foreignKey keys cascade).Meets
      session draft
      (fun _ after => Advances graph session.store family draft after ∧
        SettledAt graph session.store after referencing name foreignKey keys)
      (FailsByRejection graph session family) := by
  unfold planPolicy
  split
  case h_1 hpolicy => exact absurd hpolicy hbypass
  case h_2 hpolicy =>
    refine .throw fun _ _ => ⟨⟨_, _, _, rfl⟩, ?_⟩
    obtain ⟨document, hdocument⟩ := List.exists_mem_of_ne_nil _ hreferred
    obtain ⟨hmem, key, hkey, hrefers⟩ := refers_of_mem hcompiled.isMarked_eq_false hdocument
    exact ⟨_, key, referencing, name, foreignKey, document, hkeys key hkey, hforeign, htarget,
      hpolicy, hmem, hrefers⟩
  case h_3 hpolicy =>
    refine .bind (hreads _) (fun _ => .schedule _) ((hcascade hpolicy).mono ?_)
    rintro operation after ⟨hadvances, hmarked⟩
    exact .schedule ⟨hadvances, .cascaded hpolicy hmarked⟩
  case h_4 hreject hdelete =>
    obtain ⟨operation, hdetach, hlists⟩ := exists_detach hcompiled hbypass hreject hdelete
      (graph.collection referencing).name (.single name (.oneOf keys)) keys
    rw [hdetach]
    refine .schedule ⟨.push draft (.detach hforeign ⟨hbypass, hreject, hdelete⟩ hdetach) hlists, ?_⟩
    exact .detached ⟨hbypass, hreject, hdelete⟩ hdetach
      (List.mem_append_right _ (List.mem_singleton_self operation))

theorem meets_planReference {draft : RemovalDraft} {referencing name : String}
    {foreignKey : ForeignKey} {keys : List Json} {cascade : Json → Planning Operation}
    (hforeign : (graph.links referencing).foreignKeys.get? name = some foreignKey)
    (hcompiled : foreignKey.Compiled name) (htarget : foreignKey.collection = collection.name)
    (hkeys : ∀ key ∈ keys, family collection.name key) (hreads : ∀ query, (cascade query).Reads)
    (hcascade : foreignKey.onDelete = .delete →
      (cascade (.single name (.oneOf keys))).Meets session draft
        (fun operation after => Advances graph session.store family draft (after.push operation) ∧
          ∀ document ∈ referringDocuments session.store referencing name keys, ∀ key,
            (graph.collection referencing).keyOf? document = some key →
              holds (after.marked referencing) key)
        (FailsByRejection graph session family)) :
    (planReference collection (graph.collection referencing) name foreignKey keys cascade).Meets
      session draft
      (fun _ after => Advances graph session.store family draft after ∧
        (foreignKey.onDelete ≠ .bypass →
          SettledAt graph session.store after referencing name foreignKey keys))
      (FailsByRejection graph session family) := by
  rw [planReference_eq]
  split
  case isTrue hbypass => exact .pure ⟨.refl draft, fun hne => absurd hbypass hne⟩
  case isFalse hbypass =>
    refine .bind (.lift (.count _ _ _)) (fun count => ?reads) (.lift (.count _ _ _)
      (fun count hcount => ?answered) fun error herror => ?refused)
    case reads =>
      split
      · exact .pure _
      · exact reads_planPolicy _ _ _ _ _ hreads
    case refused =>
      intro _ hcount
      rw [Access.answer_count, hcount, Store.count, Store.inCollection, Store.countIn_matching
        (Filter.evaluates_oneOf hcompiled.isMarked_eq_false _ keys)] at herror
      cases herror
    case answered =>
      have hzero := answer_count_eq_ok hcompiled.isMarked_eq_false hcount
      split
      case isTrue hcountZero =>
        exact .pure ⟨.refl draft, fun _ => .unreferenced (hzero.1 hcountZero)⟩
      case isFalse hpositive =>
        refine (meets_planPolicy hforeign hcompiled htarget hkeys hreads hbypass
          (fun hnone => hpositive (hzero.2 hnone)) hcascade).mono ?_
        rintro _ after ⟨hadvances, hsettled⟩
        exact ⟨hadvances, fun _ => hsettled⟩

/-- A family of keys that is closed under the foreign keys that cascade. -/
def ClosedUnderCascade (graph : Graph) (store : Store) (family : String → Json → Prop) : Prop :=
  ∀ (target referencing name : String) (foreignKey : ForeignKey) (key document found : Json),
    family target key → (graph.links referencing).foreignKeys.get? name = some foreignKey →
      foreignKey.collection = target → foreignKey.onDelete = .delete →
      document ∈ store.documents referencing → Refers name key document →
      (graph.collection referencing).keyOf? document = some found → family referencing found

theorem ClosedUnderCascade.of_mem {store : Store} (hclosed : ClosedUnderCascade graph store family)
    {target referencing name : String} (hname : isMarked name = false) {foreignKey : ForeignKey}
    {keys : List Json} (hkeys : ∀ key ∈ keys, family target key)
    (hforeign : (graph.links referencing).foreignKeys.get? name = some foreignKey)
    (htarget : foreignKey.collection = target) (hcascades : foreignKey.onDelete = .delete)
    {document : Json} (hdocument : document ∈ referringDocuments store referencing name keys)
    (found : Json) (hfound : (graph.collection referencing).keyOf? document = some found) :
    family referencing found := by
  obtain ⟨hmem, key, hkey, hrefers⟩ := refers_of_mem hname hdocument
  exact hclosed _ _ _ _ _ _ _ (hkeys key hkey) hforeign htarget hcascades hmem hrefers hfound

/-- The documents that a walk starts from. -/
def rootsOf (store : Store) (collection : Collection) (filter : Json) (single : Bool) : List Json :=
  Store.inRoom (if single then some 1 else none)
    (Filter.matching (store.documents collection.name) filter)

/-- What a walk that succeeds has done: with its delete scheduled, it has advanced its draft, and
the keys of the documents that it started from are marked. -/
def Walked (graph : Graph) (store : Store) (family : String → Json → Prop) (collection : Collection)
    (filter : Json) (single : Bool) (before : RemovalDraft) (operation : Operation)
    (after : RemovalDraft) : Prop :=
  Advances graph store family before (after.push operation) ∧
    ∀ document ∈ rootsOf store collection filter single, ∀ key,
      collection.keyOf? document = some key → holds (after.marked collection.name) key

variable {schema : Schema} {options : DeleteOptions}

/-- Whether walks from all documents of a collection that match a filter query do what they have to,
as long as no more keys are left to mark than the fuel allows. -/
def WalksCascade (options : DeleteOptions) (graph : Graph) (session : Session)
    (family : String → Json → Prop) (fuel : Nat) : Prop :=
  ∀ (source : Collection) (filter : Json) (draft : RemovalDraft), source.graph = graph →
    Filter.Evaluates (session.store.documents source.name) filter →
    (∀ document ∈ rootsOf session.store source filter false, ∀ key,
      source.keyOf? document = some key → family source.name key) →
    unmarked graph session.store draft.deletedKeys ≤ fuel →
    (planFrom options fuel source filter false).Meets session draft
      (Walked graph session.store family source filter false draft)
      (FailsByRejection graph session family)

theorem meets_cascade (hbuilt : Graph.build schema = .ok graph)
    (hclosed : ClosedUnderCascade graph session.store family) {fuel : Nat}
    (hwalks : WalksCascade options graph session family fuel) {keys : List Json}
    (hkeys : ∀ key ∈ keys, family collection.name key) {draft : RemovalDraft}
    (hfuel : unmarked graph session.store draft.deletedKeys ≤ fuel) {referencing name : String}
    {foreignKey : ForeignKey}
    (hforeign : (graph.links referencing).foreignKeys.get? name = some foreignKey)
    (htarget : foreignKey.collection = collection.name) :
    (planReference collection (graph.collection referencing) name foreignKey keys fun query =>
        planFrom options fuel (graph.collection referencing) query false).Meets session draft
      (fun _ after => Advances graph session.store family draft after ∧
        (foreignKey.onDelete ≠ .bypass →
          SettledAt graph session.store after referencing name foreignKey keys))
      (FailsByRejection graph session family) := by
  have hcompiled := Graph.compiled hbuilt hforeign
  refine meets_planReference hforeign hcompiled htarget hkeys
    (fun _ => reads_planFrom _ _ _ _ _) fun hcascades => ?_
  refine hwalks (graph.collection referencing) _ draft rfl
    (Filter.evaluates_oneOf hcompiled.isMarked_eq_false _ keys) ?_ hfuel
  exact fun _ => hclosed.of_mem hcompiled.isMarked_eq_false hkeys hforeign htarget hcascades

/-- Each reference to new keys is settled, and what is settled stays so while the others are. -/
theorem meets_planReferences (hbuilt : Graph.build schema = .ok graph)
    (hgraph : collection.graph = graph) (hclosed : ClosedUnderCascade graph session.store family)
    (hpropagate : options.propagate) {fuel : Nat}
    (hwalks : WalksCascade options graph session family fuel) {keys : List Json} (hne : keys ≠ [])
    (hkeys : ∀ key ∈ keys, family collection.name key) {draft : RemovalDraft}
    (hfuel : unmarked graph session.store draft.deletedKeys ≤ fuel) :
    (planReferences options (fuel + 1) collection keys).Meets session draft
      (fun _ after => Advances graph session.store family draft after ∧
        ∀ key ∈ keys, Settled graph session.store after collection.name key)
      (FailsByRejection graph session family) := by
  have hreads (source : Collection) (query : Json) : (planFrom options fuel source query false).Reads :=
    reads_planFrom _ _ _ _ _
  have hloop : options.propagate && !keys.isEmpty := by simp [hpropagate, hne]
  subst hgraph
  have hall : Planning.Meets
      (collection.references.entries.forM fun (referencing, foreignKeys) =>
        foreignKeys.entries.forM fun (name, foreignKey) =>
          planReference collection (collection.graph.collection referencing) name foreignKey keys
            fun query => planFrom options fuel (collection.graph.collection referencing) query false)
      session draft
      (fun _ after => Advances collection.graph session.store family draft after ∧
        ∀ references ∈ collection.references.entries, ∀ entry ∈ references.2.entries,
          entry.2.onDelete ≠ .bypass →
            SettledAt collection.graph session.store after references.1 entry.1 entry.2 keys)
      (FailsByRejection collection.graph session family) := by
    refine .forM _ (fun references => .forM fun entry => reads_planReference _ _ _ _ _ (hreads _))
      .refl (fun _ _ _ => .trans) ?_ ?_
    · exact fun references _ _ hafter hdone entry hentry hpolicy =>
        (hdone entry hentry hpolicy).mono hafter.marked hafter.operations
    · intro references hreferences before hbefore
      refine .forM _ (fun entry => reads_planReference _ _ _ _ _ (hreads _)) .refl
        (fun _ _ _ => .trans) ?_ ?_
      · exact fun _ _ _ hafter hdone hpolicy =>
          (hdone hpolicy).mono hafter.marked hafter.operations
      · intro entry hentry middle hmiddle
        obtain ⟨hforeign, htarget⟩ :=
          (Graph.mem_references_iff hbuilt).1 ⟨references.2, hreferences, hentry⟩
        have hmarked := fun name => (hbefore.trans hmiddle).marked name
        exact meets_cascade hbuilt hclosed hwalks hkeys
          (Nat.le_trans (unmarked_mono fun name => (hmarked name).subset) hfuel) hforeign htarget
  unfold planReferences
  dsimp only
  rw [if_pos hloop]
  refine hall.mono ?_
  rintro _ after ⟨hadvances, hsettled⟩
  refine ⟨hadvances, fun key hkey referencing name foreignKey hforeign htarget hpolicy => ?_⟩
  obtain ⟨foreignKeys, hreferences, hentry⟩ :=
    (Graph.mem_references_iff hbuilt).2 ⟨hforeign, htarget⟩
  exact ⟨keys, hkey, hsettled _ hreferences _ hentry hpolicy⟩

/-- A walk finds keys, marks them and follows the references to those that are new. -/
theorem meets_planFrom_of {fuel : Nat} {filter : Json} {single : Bool} {draft : RemovalDraft}
    (hgraph : collection.graph = graph) {found : List Json}
    (hanswer : (collection.storedKeys filter (if single then some 1 else none)).answer session =
      .ok found)
    (hfamily : ∀ key ∈ found, family collection.name key)
    (hreferences : (planReferences options fuel collection
        (draft.fresh collection.name found)).Meets session (draft.mark collection.name found)
      (fun _ after => Advances graph session.store family (draft.mark collection.name found) after ∧
        ∀ key ∈ draft.fresh collection.name found,
          Settled graph session.store after collection.name key)
      (FailsByRejection graph session family)) :
    (planFrom options fuel collection filter single).Meets session draft
      (fun operation after => Advances graph session.store family draft (after.push operation) ∧
        ∀ key ∈ found, holds (after.marked collection.name) key)
      (FailsByRejection graph session family) := by
  subst hgraph
  have hfollow (keys : List Json) := reads_planReferences options fuel collection keys
  rw [planFrom_eq]
  refine .bind (.lift (reads_storedKeys _ _ _))
    (fun _ => .bind (.mark _ _) fun _ => .bind (hfollow _) fun _ => .pure _)
    (.lift (reads_storedKeys _ _ _) (fun keys hkeys => ?found) fun error herror => ?refused)
  case refused =>
    rw [hanswer] at herror
    cases herror
  case found =>
    rw [hanswer] at hkeys
    cases hkeys
    refine .bind (.mark _ _) (fun _ => .bind (hfollow _) fun _ => .pure _) ?_
    refine .bind (hfollow _) (fun _ => .pure _) (hreferences.mono ?_)
    rintro _ after ⟨hadvances, hsettled⟩
    refine .pure ⟨.delete rfl hfamily hadvances hsettled, fun key hkey => ?_⟩
    exact holds_mono (hadvances.marked collection.name).subset (holds_marked_mark _ _ hkey)

/-- The keys that are found are keys of stored documents. -/
theorem mem_storedPairs_of_answer (hbuilt : Graph.build schema = .ok graph) {name : String}
    {filter : Json} {limit : Option Nat} {found : List Json}
    (h : ((graph.collection name).storedKeys filter limit).answer session = .ok found) :
    ∀ key ∈ found, (name, key) ∈ storedPairs graph session.store := by
  have hvalid : ∀ segment ∈ splitPath (graph.collection name).key, Identifier.isValid segment :=
    Graph.isValid_of_mem_key hbuilt name
  intro key hkey
  obtain ⟨document, hdocument, hkeyOf⟩ := exists_of_storedKeys hvalid h key hkey
  exact mem_storedPairs hdocument hkeyOf

theorem meets_planFrom_of_error {fuel : Nat} {filter : Json} {single : Bool} {draft : RemovalDraft}
    {error : Error}
    (hanswer : (collection.storedKeys filter (if single then some 1 else none)).answer session =
      .error error)
    {ok : Operation → RemovalDraft → Prop} {fail : Error → Prop} (hfail : fail error) :
    (planFrom options fuel collection filter single).Meets session draft ok fail := by
  rw [planFrom_eq]
  refine .bind (.lift (reads_storedKeys _ _ _)) (fun _ => .bind (.mark _ _) fun _ =>
    .bind (reads_planReferences _ _ _ _) fun _ => .pure _)
    (.lift (reads_storedKeys _ _ _) (fun found hfound => ?_) fun fault hfault => ?_)
  · rw [hanswer] at hfound
    cases hfound
  · rw [hanswer] at hfault
    cases hfault
    exact hfail

theorem planReferences_nil (options : DeleteOptions) (fuel : Nat) (collection : Collection) :
    planReferences options fuel collection [] = pure () := by
  cases fuel <;> simp [planReferences]

theorem meets_planReferences_nil (fuel : Nat) (collection : Collection) (draft : RemovalDraft) :
    (planReferences options fuel collection []).Meets session draft
      (fun _ after => Advances graph session.store family draft after ∧
        ∀ key ∈ ([] : List Json), Settled graph session.store after collection.name key)
      (FailsByRejection graph session family) := by
  rw [planReferences_nil]
  exact .pure ⟨.refl _, fun _ hkey => absurd hkey List.not_mem_nil⟩

theorem mem_documents_of_mem_rootsOf {store : Store} {filter : Json} {single : Bool}
    {document : Json} (h : document ∈ rootsOf store collection filter single) :
    document ∈ store.documents collection.name :=
  (Filter.mem_matching_iff.1 ((Store.inRoom_sublist _ _).subset h)).1

omit [Platform] in
theorem unmarked_mark_found_lt {store : Store} {draft : RemovalDraft} {found : List Json}
    (hstored : ∀ key ∈ found, (collection.name, key) ∈ storedPairs graph store)
    (hne : draft.fresh collection.name found ≠ []) :
    unmarked graph store (draft.mark collection.name found).deletedKeys <
      unmarked graph store draft.deletedKeys := by
  obtain ⟨key, hkey⟩ := List.exists_mem_of_ne_nil _ hne
  exact unmarked_mark_lt (hstored key (fresh_subset _ _ _ hkey)) hkey

theorem mem_storedPairs_of_rootsOf (hgraph : collection.graph = graph) {store : Store} {filter : Json}
    {single : Bool} :
    ∀ key ∈ (rootsOf store collection filter single).filterMap collection.keyOf?,
      (collection.name, key) ∈ storedPairs graph store := by
  intro key hkey
  obtain ⟨document, hdocument, hkeyOf⟩ := List.mem_filterMap.1 hkey
  rw [← eq_collection hgraph] at hkeyOf
  exact mem_storedPairs (mem_documents_of_mem_rootsOf hdocument) hkeyOf

theorem meets_planFrom_found (hbuilt : Graph.build schema = .ok graph)
    (hclosed : ClosedUnderCascade graph session.store family) (hpropagate : options.propagate)
    {fuel : Nat} (hwalks : ∀ less < fuel, WalksCascade options graph session family less)
    {filter : Json} {single : Bool} {draft : RemovalDraft} (hgraph : collection.graph = graph)
    {found : List Json}
    (hanswer : (collection.storedKeys filter (if single then some 1 else none)).answer session =
      .ok found)
    (hfamily : ∀ key ∈ found, family collection.name key)
    (hstored : ∀ key ∈ found, (collection.name, key) ∈ storedPairs graph session.store)
    (hfuel : unmarked graph session.store draft.deletedKeys ≤ fuel) :
    (planFrom options fuel collection filter single).Meets session draft
      (fun operation after => Advances graph session.store family draft (after.push operation) ∧
        ∀ key ∈ found, holds (after.marked collection.name) key)
      (FailsByRejection graph session family) := by
  refine meets_planFrom_of hgraph hanswer hfamily ?_
  by_cases hne : draft.fresh collection.name found = []
  · rw [hne]
    exact meets_planReferences_nil _ _ _
  · have hless := unmarked_mark_found_lt hstored hne
    cases fuel with
    | zero => exact absurd hless (by omega)
    | succ fuel =>
      refine meets_planReferences hbuilt hgraph hclosed hpropagate (hwalks fuel (Nat.lt_succ_self _))
        hne (fun key hkey => hfamily key (fresh_subset _ _ _ hkey)) (by omega)

/-- The walk from the documents that match a filter query, where the fuel allows for the walks below
it. -/
theorem meets_planFrom_matching (hbuilt : Graph.build schema = .ok graph)
    (hclosed : ClosedUnderCascade graph session.store family) (hpropagate : options.propagate)
    {fuel : Nat} (hwalks : ∀ less < fuel, WalksCascade options graph session family less)
    {filter : Json} {single : Bool} {draft : RemovalDraft} (hgraph : collection.graph = graph)
    (hevaluates : Filter.Evaluates (session.store.documents collection.name) filter)
    (hroots : ∀ document ∈ rootsOf session.store collection filter single, ∀ key,
      collection.keyOf? document = some key → family collection.name key)
    (hfuel : unmarked graph session.store draft.deletedKeys ≤ fuel) :
    (planFrom options fuel collection filter single).Meets session draft
      (Walked graph session.store family collection filter single draft)
      (FailsByRejection graph session family) := by
  have hvalid := Graph.isValid_of_mem_key hbuilt collection.name
  rw [← hgraph] at hvalid
  have hanswer := answer_storedKeys hvalid hevaluates (if single then some 1 else none)
  by_cases hrefused : session.refused.contains .find
  · rw [if_pos hrefused] at hanswer
    refine meets_planFrom_of_error hanswer fun hfind => ?_
    rw [hfind] at hrefused
    cases hrefused
  · rw [if_neg hrefused] at hanswer
    refine (meets_planFrom_found hbuilt hclosed hpropagate hwalks hgraph hanswer ?_
      (mem_storedPairs_of_rootsOf hgraph) hfuel).mono ?_
    · intro key hkey
      obtain ⟨document, hdocument, hkeyOf⟩ := List.mem_filterMap.1 hkey
      exact hroots document hdocument key hkeyOf
    · rintro operation after ⟨hadvances, hmarked⟩
      exact ⟨hadvances, fun document hdocument key hkey =>
        hmarked key (List.mem_filterMap.2 ⟨document, hdocument, hkey⟩)⟩

/-- Fuel for the keys left to mark is enough for a walk, since each level of it marks one
of them. -/
theorem walksCascade (hbuilt : Graph.build schema = .ok graph)
    (hclosed : ClosedUnderCascade graph session.store family) (hpropagate : options.propagate)
    (fuel : Nat) : WalksCascade options graph session family fuel := by
  induction fuel using Nat.strongRecOn with
  | ind fuel ih =>
    exact fun source filter draft hgraph hevaluates hroots hfuel =>
      meets_planFrom_matching hbuilt hclosed hpropagate ih hgraph hevaluates hroots hfuel

end Walk

end Collection

end LinkedDocs
