import LinkedDocs.Platform.Native
import LinkedDocs.Proofs.Filter.Scalars
import LinkedDocs.Proofs.Removal.Dangling
import LinkedDocs.Proofs.Removal.Scheduling

namespace LinkedDocs

open Json Update

section

theorem field?_eq_follow? {schema : Schema} {graph : Graph} (hbuilt : Graph.build schema = .ok graph)
    {name : String} {document key : Json}
    (hkey : (graph.collection name).keyOf? document = some key) (field : String) :
    document.field? field = document.follow? [field] := by
  rw [Graph.keyOf?_eq_follow? hbuilt] at hkey
  have hvalid := Graph.isValid_of_mem_key hbuilt name
  cases hsplit : splitPath (graph.links name).key with
  | nil => exact absurd hsplit (splitPath_ne_nil _)
  | cons first rest =>
    rw [hsplit] at hkey hvalid
    obtain ⟨fields, -, rfl, -, -⟩ := exists_fields_of_follow? (hvalid first List.mem_cons_self) hkey
    change lookupName field fields = (lookupName field fields).bind some
    rw [Option.bind_fun_some]

variable [Platform]

/-- Whether a delete may change a field of a document: a foreign key that is updated begins there,
and the document refers to a deleted key in it. -/
def Graph.MayChange (graph : Graph) (deleted : DeletedKeys) (collection : String) (document : Json)
    (field : String) : Prop :=
  ∃ name foreignKey key,
    (graph.links collection).foreignKeys.get? name = some foreignKey ∧
      foreignKey.onDelete.updates ∧ foreignKey.path.head? = some field ∧
      key ∈ deleted.get foreignKey.collection ∧ Refers name key document

/-- Whether a document of a collection is what a delete may leave of an earlier one. -/
structure Graph.Remains (graph : Graph) (deleted : DeletedKeys) (collection : String)
    (old new : Json) : Prop where
  keyOf?_eq : (graph.collection collection).keyOf? new = (graph.collection collection).keyOf? old
  field?_eq : ∀ field, ¬graph.MayChange deleted collection old field →
    new.field? field = old.field? field

/-- Whether a document has a key that an operation lists for deletion. -/
def Operation.lists (operation : Operation) (collection : Collection) (document : Json) : Bool :=
  (collection.keyOf? document).any (holds (operation.listedKeys collection))

omit [Platform] in
theorem Operation.filter_lists_eq_self {operation : Operation} {collection : Collection}
    (h : operation.listedKeys collection = []) (documents : List Json) :
    (documents.filter fun document => !operation.lists collection document) = documents := by
  refine List.filter_eq_self.2 fun document _ => ?_
  rw [lists, h]
  cases collection.keyOf? document <;> rfl

/-- What every operation of a plan keeps of a document that it does not delete, whatever operations
came before it. -/
structure Graph.Survives (graph : Graph) (deleted : DeletedKeys) (collection : String)
    (old new : Json) : Prop where
  descends : (graph.collection collection).Descends old new
  isScalar : ((graph.collection collection).keyOf? old).any Json.isScalar
  follow?_eq : ∀ field, ¬graph.MayChange deleted collection old field →
    new.follow? [field] = old.follow? [field]

section Step

variable {schema : Schema} {graph : Graph} {deleted : DeletedKeys} {before after : Store}
  {name : String} {old middle new : Json}

omit [Platform] in
theorem exists_key_of_any {key? : Option Json} (h : key?.any Json.isScalar) :
    ∃ key, key? = some key ∧ key.isScalar := by
  cases key? with
  | none => cases h
  | some key => exact ⟨key, rfl, h⟩

theorem Graph.forall₂_survives_self {store : Store} (hnames : store.NamesOnce)
    (hkeys : store.HasScalarKeys graph) (deleted : DeletedKeys) (name : String) :
    List.Forall₂ (graph.Survives deleted name) (store.documents name) (store.documents name) :=
  List.forall₂_same.2 fun document hdocument =>
    ⟨.refl _ (hnames name document hdocument), hkeys name document hdocument, fun _ _ => rfl⟩

/-- A document matches the delete of some keys exactly if the delete lists its key. -/
theorem Graph.Survives.matched_eq (hbuilt : Graph.build schema = .ok graph)
    (h : graph.Survives deleted name old new) (keys : List Json) :
    Filter.matched ((graph.collection name).keysQuery keys) new =
      ((graph.collection name).keyOf? old).any (holds keys) := by
  obtain ⟨key, hkey, hscalar⟩ := exists_key_of_any h.isScalar
  have hnew := h.descends.keyOf?_eq.trans hkey
  rw [Filter.matched_of_accepts (accepts_keysQuery_of_isScalar hbuilt hnew hscalar keys), hkey]
  rfl

/-- A document that has only lost values and matches the query for some keys referred to one of them
before. -/
theorem exists_refers_of_accepts (hbuilt : Graph.build schema = .ok graph)
    {referencing foreignName : String} {foreignKey : ForeignKey}
    (hforeign : (graph.links referencing).foreignKeys.get? foreignName = some foreignKey)
    {keys : List Json} (hkeys : ∀ key ∈ keys, key.isScalar) (hshrinks : Shrinks old new)
    (haccepts : Filter.accepts new (.single foreignName (.oneOf keys)) = .ok true) :
    ∃ key ∈ keys, Refers foreignName key old := by
  have hcompiled := Graph.compiled hbuilt hforeign
  have hmarked := hcompiled.isMarked_eq_false
  have hnames : ∀ segment ∈ splitPath foreignName, Identifier.isValid segment := by
    rw [hcompiled.splitPath_name]
    exact Filter.isValid_of_mem_names fun _ => hcompiled.isValid_of_mem
  rw [Filter.accepts_oneOf hmarked, Except.ok.injEq] at haccepts
  have hold := Filter.anyAmong_of_shrinks hnames hkeys hshrinks haccepts
  obtain ⟨key, hkey, hany⟩ := Filter.anyAmong_iff.1 hold
  refine ⟨key, hkey, ?_⟩
  rw [Refers, Filter.accepts_oneOf hmarked]
  exact congrArg Except.ok hany

variable {referencing foreignName : String} {foreignKey : ForeignKey} {keys : List Json}

theorem Graph.Survives.afterUpdate (hbuilt : Graph.build schema = .ok graph)
    (hkeeps : graph.KeepsKeys)
    (hforeign : (graph.links referencing).foreignKeys.get? foreignName = some foreignKey)
    (hpolicy : foreignKey.onDelete ≠ .bypass ∧ foreignKey.onDelete ≠ .reject ∧
      foreignKey.onDelete ≠ .delete) (hscalar : ∀ key ∈ keys, key.isScalar)
    (hmarked : ∀ key ∈ keys, key ∈ deleted.get foreignKey.collection)
    {operator : UpdateOperator} {argument : Json} {target : String} {arrayFilters : List Json}
    (hdetaches : foreignKey.Detaches keys operator argument target arrayFilters)
    (h : graph.Survives deleted referencing old middle) {result : Option (Json × Bool)}
    (hresult : Store.updateDocument? (.single foreignName (.oneOf keys))
      (.single operator.name (.single target argument)) arrayFilters middle = .ok result) :
    graph.Survives deleted referencing old (Store.afterUpdate middle result) := by
  have hnames := h.descends.shrinks.namesOnce
  have hdescends := (hdetaches.afterUpdate hbuilt (hkeeps.head?_ne hforeign hpolicy) hnames hresult).1
  refine ⟨h.descends.trans hdescends, h.isScalar, fun field hfield => ?_⟩
  rw [← h.follow?_eq field hfield]
  obtain ⟨-, hsame⟩ | ⟨haccepts, changed, hupdate⟩ := Store.afterUpdate_cases hresult
  · rw [hsame]
  · obtain ⟨first, rest, htarget, hfirst, hhead⟩ := hdetaches.head
    obtain ⟨key, hkey, hrefers⟩ :=
      exists_refers_of_accepts hbuilt hforeign hscalar h.descends.shrinks haccepts
    have hne : field ≠ first := by
      rintro rfl
      exact hfield ⟨foreignName, foreignKey, key, hforeign, DeletePolicy.updates_of_ne hpolicy, hhead,
        hmarked key hkey, hrefers⟩
    rw [htarget] at hupdate
    exact follow?_updateAt hdetaches.erases hfirst hnames hupdate hne []

/-- An operation of a plan leaves, of the documents that are left, those that it does not list. -/
theorem Operation.Handles.forall₂_survives (hbuilt : Graph.build schema = .ok graph)
    (hkeeps : graph.KeepsKeys) {operation : Operation}
    (hhandles : operation.Handles graph fun name key => key ∈ deleted.get name)
    (hscalar : ∀ name, ∀ key ∈ deleted.get name, key.isScalar) (hturns : operation.TurnsInto before after)
    {olds : List Json} (h : List.Forall₂ (graph.Survives deleted name) olds (before.documents name)) :
    List.Forall₂ (graph.Survives deleted name)
      (olds.filter fun document => !operation.lists (graph.collection name) document)
      (after.documents name) := by
  cases hhandles with
  | @delete collection keys hkeys =>
    obtain ⟨count, hdelete⟩ := hturns
    obtain ⟨-, hdocuments⟩ := Store.documents_deleteMany hdelete
    rw [hdocuments]
    split
    case isTrue hname =>
      subst hname
      refine List.rel_filter (fun old new hsurvives => ?_) h
      dsimp only
      rw [hsurvives.matched_eq hbuilt keys, Operation.lists, listedKeys_keysQuery, if_pos rfl]
    case isFalse hname =>
      rw [Operation.filter_lists_eq_self (by rw [listedKeys_keysQuery, if_neg hname])]
      exact h
  | @detach referencing foreignName foreignKey keys _ hforeign hpolicy hkeys hdetach =>
    obtain ⟨operator, argument, target, arrayFilters, rfl, hdetaches⟩ :=
      (Graph.compiled hbuilt hforeign).exists_detaches hpolicy hdetach
    obtain ⟨count, hupdate⟩ := hturns
    rw [Operation.filter_lists_eq_self rfl]
    refine forall₂_trans ?_ h (Store.forall₂_documents_update rfl hupdate name)
    rintro old middle new hsurvives (⟨-, rfl⟩ | ⟨rfl, result, hresult, rfl⟩)
    · exact hsurvives
    · exact hsurvives.afterUpdate hbuilt hkeeps hforeign hpolicy
        (fun key hkey => hscalar _ key (hkeys key hkey)) hkeys hdetaches hresult

/-- A run of such operations leaves the documents that none of them lists. -/
theorem Operation.Executes.forall₂_survives (hbuilt : Graph.build schema = .ok graph)
    (hkeeps : graph.KeepsKeys) {operations : List Operation}
    (hhandles : ∀ operation ∈ operations,
      operation.Handles graph fun name key => key ∈ deleted.get name)
    (hscalar : ∀ name, ∀ key ∈ deleted.get name, key.isScalar)
    (hrun : Operation.Executes operations before after) {olds : List Json}
    (h : List.Forall₂ (graph.Survives deleted name) olds (before.documents name)) :
    List.Forall₂ (graph.Survives deleted name)
      (olds.filter fun document =>
        !operations.any fun operation => operation.lists (graph.collection name) document)
      (after.documents name) := by
  induction hrun generalizing olds with
  | nil => simpa using h
  | cons hfirst _ ih =>
    obtain ⟨hoperation, hrest⟩ := List.forall_mem_cons.1 hhandles
    have hleft := ih hrest (hoperation.forall₂_survives hbuilt hkeeps hscalar hfirst h)
    rw [List.filter_filter] at hleft
    simpa only [List.any_cons, Bool.not_or, Bool.and_comm] using hleft

omit [Platform] in
/-- The keys that the operations of a plan list are those that it marks. -/
theorem RemovalPlan.Accounts.any_lists_eq {plan : RemovalPlan} {origin : Store}
    (hbuilt : Graph.build schema = .ok graph) (h : plan.Accounts graph origin) (document : Json) :
    ((plan.operations ++ [plan.delete]).any fun operation =>
        operation.lists (graph.collection name) document) =
      ((graph.collection name).keyOf? document).any (holds (plan.deletedKeys.get name)) := by
  have hlisted : ∀ operation ∈ plan.operations ++ [plan.delete],
      operation.listedKeys (graph.collection name) ⊆ plan.deletedKeys.get name := by
    intro operation hoperation
    cases h.handles operation hoperation with
    | delete hkeys =>
      rw [listedKeys_keysQuery]
      split
      case isTrue hname => exact fun key hkey => hname ▸ hkeys key hkey
      case isFalse => exact List.nil_subset _
    | detach hforeign hpolicy _ hdetach =>
      obtain ⟨_, _, _, _, rfl, -⟩ := (Graph.compiled hbuilt hforeign).exists_detaches hpolicy hdetach
      exact List.nil_subset _
  cases hkey : (graph.collection name).keyOf? document with
  | none => simp [Operation.lists, hkey]
  | some key =>
    simp only [Operation.lists, hkey, Option.any_some]
    refine Bool.eq_iff_iff.2 ⟨fun hany => ?_, fun hholds => ?_⟩
    · obtain ⟨operation, hoperation, hlists⟩ := List.any_eq_true.1 hany
      exact holds_mono (hlisted operation hoperation) hlists
    · obtain ⟨other, hother, hsame⟩ := holds_iff.1 hholds
      obtain ⟨operation, hoperation, hlists⟩ := h.listed name other hother
      exact List.any_eq_true.2 ⟨operation, hoperation, holds_iff.2 ⟨other, hlists, hsame⟩⟩

end Step

theorem Graph.Survives.remains {schema : Schema} {graph : Graph}
    (hbuilt : Graph.build schema = .ok graph) {deleted : DeletedKeys} {collection : String}
    {old new : Json} (h : graph.Survives deleted collection old new) :
    graph.Remains deleted collection old new := by
  obtain ⟨key, hkey, -⟩ := exists_key_of_any h.isScalar
  refine ⟨h.descends.keyOf?_eq, fun field hfield => ?_⟩
  rw [field?_eq_follow? hbuilt hkey, field?_eq_follow? hbuilt (h.descends.keyOf?_eq.trans hkey),
    h.follow?_eq field hfield]

end

namespace Collection

section

variable [Platform]

/-- A delete takes the documents away whose keys its plan marks, and no others. Those that are left
keep their order and their keys, and change at most in the fields in which they referred to a deleted
key. -/
theorem forall₂_remains_of_delete {schema : Schema} {graph : Graph}
    (hbuilt : Graph.build schema = .ok graph) (hkeeps : graph.KeepsKeys) {session after : Session}
    (hnames : session.store.NamesOnce) (hkeys : session.store.HasScalarKeys graph) (name : String)
    (filter : Json) (options : DeleteOptions) (count : Nat)
    (hdeleted : ((graph.collection name).delete filter options).runIn session =
      (.ok count, after)) :
    ∃ plan, ((graph.collection name).planDelete filter options).answer session = .ok plan ∧
      ∀ collection, List.Forall₂ (graph.Remains plan.deletedKeys collection)
        ((session.store.documents collection).filter fun document =>
          !((graph.collection collection).keyOf? document).any
            (holds (plan.deletedKeys.get collection)))
        (after.store.documents collection) := by
  obtain ⟨plan, hplan, hrun⟩ := executes_of_delete hdeleted
  have haccounts := accounts_of_answer hbuilt hplan
  have hscalar : ∀ other, ∀ key ∈ plan.deletedKeys.get other, key.isScalar :=
    fun other key hkey => hkeys.isScalar (haccounts.stored other key hkey)
  refine ⟨plan, hplan, fun collection => ?_⟩
  have hleft := hrun.forall₂_survives hbuilt hkeeps haccounts.handles hscalar
    (Graph.forall₂_survives_self hnames hkeys plan.deletedKeys collection)
  simp only [haccounts.any_lists_eq hbuilt] at hleft
  exact hleft.imp fun _ _ hsurvives => hsurvives.remains hbuilt

end

/-- When a book is deleted, the other book and the shelf are left, and of the fields of the shelf
only its rows may have changed. -/
theorem forall₂_remains_shelf : ∃ plan, ∃ after : Session,
    ((shelfSchema.graph.collection "books").delete (.single "_id" (.string "b")) {}).runIn
      shelfSession = (.ok 1, after) ∧
    ((shelfSchema.graph.collection "books").planDelete (.single "_id" (.string "b")) {}).answer
      shelfSession = .ok plan ∧
    ∀ collection, List.Forall₂ (shelfSchema.graph.Remains plan.deletedKeys collection)
      ((shelfSession.store.documents collection).filter fun document =>
        !((shelfSchema.graph.collection collection).keyOf? document).any
          (holds (plan.deletedKeys.get collection)))
      (after.store.documents collection) := by
  obtain ⟨hkeeps, hnames, hkeys, -⟩ := shelfSession_fits
  have hresult : ((shelfSchema.graph.collection "books").delete (.single "_id" (.string "b"))
      {}).result? shelfSession = some 1 := by decide +kernel
  obtain ⟨after, hdeleted⟩ := Access.exists_runIn_of_result? hresult
  obtain ⟨plan, hplan, hremains⟩ := forall₂_remains_of_delete (shelfSchema.build_graph rfl) hkeeps
    hnames hkeys "books" (.single "_id" (.string "b")) {} 1 hdeleted
  exact ⟨plan, after, hdeleted, hplan, hremains⟩

end Collection

end LinkedDocs
