import LinkedDocs.Platform.Native
import LinkedDocs.Proofs.Removal.Closure
import LinkedDocs.Proofs.Store.Writing

namespace LinkedDocs

open Json

namespace Access

variable {α β : Type}

/-- Whether a computation is rejected in a session. -/
def IsRejected (access : Access α) (session : Session) : Prop :=
  ∃ target referencing name,
    access.answer session = .error (.deleteRejected target referencing name)

/-- A computation that is never rejected. -/
def NeverRejected (access : Access α) : Prop :=
  ∀ session, ¬access.IsRejected session

/-- A computation that leaves the store as it is when it is rejected. -/
def Atomic (access : Access α) : Prop :=
  ∀ session, access.IsRejected session → (access.runIn session).2.store = session.store

theorem neverRejected_pure (value : α) : (pure value : Access α).NeverRejected := by
  rintro session ⟨_, _, _, h⟩
  cases h

/-- A sequence is rejected when its first part is, or its second part after it. -/
theorem isRejected_bind_iff {access : Access α} {next : α → Access β} {session : Session} :
    (access >>= next).IsRejected session ↔ access.IsRejected session ∨
      ∃ value after, access.runIn session = (.ok value, after) ∧ (next value).IsRejected after := by
  simp only [IsRejected, answer, runIn_bind]
  obtain ⟨result, after⟩ := access.runIn session
  cases result with
  | error error => simp
  | ok value => simp

theorem NeverRejected.bind {access : Access α} {next : α → Access β}
    (haccess : access.NeverRejected) (hnext : ∀ value, (next value).NeverRejected) :
    (access >>= next).NeverRejected := by
  intro session hrejected
  rcases isRejected_bind_iff.1 hrejected with h | ⟨value, after, -, h⟩
  · exact haccess session h
  · exact hnext value after h

theorem NeverRejected.forM {items : List β} {body : β → Access Unit}
    (h : ∀ item, (body item).NeverRejected) : (items.forM body : Access Unit).NeverRejected := by
  induction items with
  | nil => exact neverRejected_pure ()
  | cons first rest ih => exact .bind (h first) fun _ => ih

theorem NeverRejected.call {collection : String} {request : StoreRequest}
    {perform : Store → Except Error α × Store}
    (h : ∀ store target referencing name,
      (perform store).1 ≠ .error (.deleteRejected target referencing name)) :
    (call collection request perform).NeverRejected := by
  rintro session ⟨target, referencing, name, hanswer⟩
  rw [answer, runIn_call] at hanswer
  split at hanswer
  · cases hanswer
  · exact h _ _ _ _ hanswer

theorem Reads.atomic {access : Access α} (h : access.Reads) : access.Atomic := fun session _ =>
  h.store_runIn session

theorem runIn_bind_of_isRejected {access : Access α} (next : α → Access β) {session : Session}
    (h : access.IsRejected session) :
    ((access >>= next).runIn session).2 = (access.runIn session).2 := by
  obtain ⟨target, referencing, name, herror⟩ := h
  rw [answer] at herror
  rw [runIn_bind]
  cases hrun : access.runIn session with
  | mk result after =>
    rw [hrun] at herror
    cases herror
    rfl

theorem Atomic.bind {access : Access α} {next : α → Access β} (haccess : access.Atomic)
    (hnext : ∀ value, (next value).NeverRejected) : (access >>= next).Atomic := by
  intro session hrejected
  rcases isRejected_bind_iff.1 hrejected with h | ⟨value, after, -, h⟩
  · rw [runIn_bind_of_isRejected next h]
    exact haccess session h
  · exact absurd h (hnext value after)

theorem Reads.bind_atomic {access : Access α} {next : α → Access β} (haccess : access.Reads)
    (hnext : ∀ value, (next value).Atomic) : (access >>= next).Atomic := by
  intro session hrejected
  have hstore := haccess.store_runIn session
  rcases isRejected_bind_iff.1 hrejected with h | ⟨value, after, hrun, h⟩
  · rw [runIn_bind_of_isRejected next h]
    exact hstore
  · rw [hrun] at hstore
    rw [runIn_bind, hrun]
    exact (hnext value after h).trans hstore

end Access

theorem Store.inCollection_ne_rejected {α : Type} (collection : String)
    (result : Except QueryFault α) (target referencing name : String) :
    Store.inCollection collection result ≠ .error (.deleteRejected target referencing name) := by
  intro h
  obtain ⟨_, hfault⟩ := inCollection_eq_error h
  cases hfault

section

variable [Platform]

theorem Store.update_ne_rejected (store : Store) (collection : String) (filter update : Json)
    (options : UpdateOptions) (target referencing name : String) :
    (store.update collection filter update options).1 ≠
      .error (.deleteRejected target referencing name) := by
  intro h
  obtain ⟨_, _, hfault, -⟩ := update_eq_error h
  cases hfault

theorem Store.deleteMany_ne_rejected (store : Store) (collection : String) (filter : Json)
    (target referencing name : String) :
    (store.deleteMany collection filter).1 ≠
      .error (.deleteRejected target referencing name) := by
  intro h
  obtain ⟨⟨_, hfault⟩, -⟩ := deleteMany_eq_error (Prod.ext h rfl)
  cases hfault

namespace Access

theorem neverRejected_find (collection : String) (filter : Json) (options : FindOptions) :
    (find collection filter options).NeverRejected :=
  .call fun _ => Store.inCollection_ne_rejected _ _

theorem neverRejected_findOne (collection : String) (filter : Json) :
    (findOne collection filter).NeverRejected :=
  .bind (neverRejected_find _ _ _) fun _ => neverRejected_pure _

theorem neverRejected_update (collection : String) (filter update : Json)
    (options : UpdateOptions) : (Access.update collection filter update options).NeverRejected :=
  .call fun store => store.update_ne_rejected _ _ _ _

theorem neverRejected_deleteMany (collection : String) (filter : Json) :
    (deleteMany collection filter).NeverRejected :=
  .call fun store => store.deleteMany_ne_rejected _ _

omit [Platform] in
theorem neverRejected_dropCollection (collection : String) :
    (dropCollection collection).NeverRejected :=
  .call fun _ _ _ _ h => by cases h

end Access

theorem Operation.neverRejected_execute (operation : Operation) :
    operation.execute.NeverRejected := by
  cases operation with
  | update collection filter changes arrayFilters =>
    exact .bind (Access.neverRejected_update _ _ _ _) fun _ => Access.neverRejected_pure _
  | delete collection filter => exact Access.neverRejected_deleteMany _ _

theorem RemovalPlan.neverRejected_execute (plan : RemovalPlan) : plan.execute.NeverRejected :=
  .bind (.forM fun operation => .bind operation.neverRejected_execute fun _ =>
    Access.neverRejected_pure _) fun _ => plan.delete.neverRejected_execute

end

namespace Collection

variable (collection : Collection)

section

variable [Platform]

theorem atomic_delete (filter : Json) (options : DeleteOptions) :
    (collection.delete filter options).Atomic :=
  (collection.reads_planDelete filter options).atomic.bind RemovalPlan.neverRejected_execute

theorem atomic_takeOne (filter : Json) : (collection.takeOne filter).Atomic := by
  refine (collection.reads_planNormalized filter _).atomic.bind fun plan => ?_
  split
  · exact Access.neverRejected_pure _
  · exact .bind (Access.neverRejected_findOne _ _) fun _ =>
      .bind plan.neverRejected_execute fun _ => Access.neverRejected_pure _

theorem atomic_findOneAndDelete (filter : Json) : (collection.findOneAndDelete filter).Atomic :=
  (collection.reads_normalize filter).bind_atomic collection.atomic_takeOne

theorem atomic_drop : collection.drop.Atomic :=
  (collection.atomic_delete _ _).bind fun _ =>
    .bind (Access.neverRejected_dropCollection _) fun _ => Access.neverRejected_pure _

theorem isRejected_delete_iff {filter : Json} {options : DeleteOptions} {session : Session} :
    (collection.delete filter options).IsRejected session ↔
      (collection.planDelete filter options).IsRejected session := by
  refine Access.isRejected_bind_iff.trans (or_iff_left ?_)
  rintro ⟨plan, after, -, hrejected⟩
  exact plan.neverRejected_execute after hrejected

theorem answer_planDelete {filter normalized : Json} {options : DeleteOptions} {session : Session}
    (hnormalized : (collection.normalize filter).answer session = .ok normalized) :
    (collection.planDelete filter options).answer session =
      (collection.planNormalized normalized options).answer session := by
  rw [planDelete, (collection.reads_normalize filter).answer_bind fun _ =>
    collection.reads_planNormalized _ _, hnormalized, ok_bind]

section Planning

variable {collection} {schema : Schema} {graph : Graph} {session : Session} {name : String}
  {filter : Json} {single : Bool}

/-- Where a plan was made, each key of the cascade is settled, and no foreign key that rejects its
deletion can be. -/
theorem Planned.not_rejects {store : Store} {draft : RemovalDraft}
    (hbuilt : Graph.build schema = .ok graph)
    (h : Planned graph store name filter single draft) :
    ¬Rejects graph store (Cascade graph store name
      (rootsOf store (graph.collection name) filter single)) := by
  rintro ⟨target, key, referencing, foreignName, foreignKey, document, hkey, hforeign, htarget,
    hrejects, hmem, hrefers⟩
  have hname := (Graph.compiled hbuilt hforeign).isMarked_eq_false
  obtain ⟨marked, hmarked, hsame⟩ := holds_iff.1 (h.complete hbuilt hkey)
  have hrefersMarked := hrefers.congr hname (sameValue_symm hsame)
  obtain ⟨keys, hkeys, hsettled⟩ := h.settled hmarked _ _ _ hforeign htarget
    (by rw [hrejects]; exact DeletePolicy.noConfusion)
  cases hsettled with
  | unreferenced hnone =>
    exact absurd (hnone ▸ mem_referringDocuments hname hmem hkeys hrefersMarked) List.not_mem_nil
  | cascaded hcascades _ => rw [hrejects] at hcascades; cases hcascades
  | detached hpolicy => exact hpolicy.2.1 hrejects

/-- Planning a delete fails by rejection, and only by rejection, where a key of the cascade is
referred to in a foreign key that rejects its deletion. -/
theorem isRejected_planNormalized_iff (hbuilt : Graph.build schema = .ok graph)
    (hfind : session.refused.contains .find = false)
    (hcount : session.refused.contains .count = false)
    (hevaluates : Filter.Evaluates (session.store.documents name) filter) :
    ((graph.collection name).planNormalized filter ⟨true, single⟩).IsRejected session ↔
      Rejects graph session.store (Cascade graph session.store name
        (rootsOf session.store (graph.collection name) filter single)) := by
  have hmeets := meets_planFrom_empty hbuilt name hevaluates single
  have hfails : ∀ error, ((graph.collection name).planNormalized filter ⟨true, single⟩).answer
      session = .error error → FailsByRejection graph session (Cascade graph session.store name
        (rootsOf session.store (graph.collection name) filter single)) error := by
    intro error herror
    rw [answer_planNormalized] at herror
    unfold Planning.Meets at hmeets
    cases houtcome : Planning.outcome (planFrom ⟨true, single⟩ _ (graph.collection name) filter
        single) session {} with
    | error fault =>
      rw [houtcome] at herror hmeets
      cases herror
      exact hmeets
    | ok result =>
      rw [houtcome] at herror
      cases herror
  constructor
  · rintro ⟨target, referencing, foreignName, hanswer⟩
    exact (hfails _ hanswer hfind hcount).2
  · intro hrejects
    cases hanswer : ((graph.collection name).planNormalized filter ⟨true, single⟩).answer session with
    | error error =>
      obtain ⟨target, referencing, foreignName, rfl⟩ := (hfails error hanswer hfind hcount).1
      exact ⟨target, referencing, foreignName, hanswer⟩
    | ok plan =>
      exact absurd hrejects (Planned.not_rejects hbuilt (planned_of_answer hbuilt hevaluates hanswer))

end Planning

/-- A delete is rejected exactly when a key of its cascade is referred to in a foreign key that
rejects its deletion; and no removal that is rejected has changed the store. -/
theorem isRejected_delete_iff_rejects_and_atomic {schema : Schema} {graph : Graph}
    (hbuilt : Graph.build schema = .ok graph) (name : String) :
    (∀ (session : Session) (filter normalized : Json) (single : Bool),
      session.refused.contains .find = false → session.refused.contains .count = false →
      ((graph.collection name).normalize filter).answer session = .ok normalized →
      Filter.Evaluates (session.store.documents name) normalized →
      (((graph.collection name).delete filter ⟨true, single⟩).IsRejected session ↔
        Rejects graph session.store (Cascade graph session.store name
          (rootsOf session.store (graph.collection name) normalized single)))) ∧
    (∀ filter options, ((graph.collection name).delete filter options).Atomic) ∧
    (∀ filter, ((graph.collection name).deleteOne filter).Atomic) ∧
    (∀ key, ((graph.collection name).deleteByKey key).Atomic) ∧
    (∀ filter, ((graph.collection name).findOneAndDelete filter).Atomic) ∧
    (∀ key, ((graph.collection name).findByKeyAndDelete key).Atomic) ∧
    (graph.collection name).drop.Atomic := by
  refine ⟨?_, fun _ _ => atomic_delete _ _ _, fun _ => atomic_delete _ _ _,
    fun _ => atomic_delete _ _ _, fun _ => atomic_findOneAndDelete _ _, fun _ => atomic_takeOne _ _,
    atomic_drop _⟩
  intro session filter normalized single hfind hcount hnormalized hevaluates
  rw [isRejected_delete_iff, Access.IsRejected, answer_planDelete _ hnormalized]
  exact isRejected_planNormalized_iff hbuilt hfind hcount hevaluates

end

/-- Nodes that each have a next one, with notes that forbid the deletion of a node. -/
def chainSchema : Schema where
  collections := .ofList [("nodes", { foreignKeys := .ofList [("next", { onDelete := some .delete })] }),
    ("notes", { foreignKeys := .ofList [("node",
      { collection := some "nodes", onDelete := some .reject })] })]

def chainHead : Json :=
  .object [("_id", .string "a"), ("next", .string "b")]

def chainNote : Json :=
  .object [("_id", .string "n"), ("node", .string "a")]

def chainSession : Session where
  store := { collections := .ofList [("nodes", [chainHead, .object [("_id", .string "b")]]),
    ("notes", [chainNote])] }

/-- Deleting the second node would delete the first one, on which the note is. -/
theorem isRejected_delete_chainTail :
    ((chainSchema.graph.collection "nodes").delete (.single "_id" (.string "b"))
      ⟨true, false⟩).IsRejected chainSession ∧
    (((chainSchema.graph.collection "nodes").delete (.single "_id" (.string "b"))
      ⟨true, false⟩).runIn chainSession).2.store = chainSession.store := by
  have hexact := isRejected_delete_iff_rejects_and_atomic (chainSchema.build_graph rfl) "nodes"
  have hevaluates : Filter.Evaluates (chainSession.store.documents "nodes")
      (.single "_id" (.string "b")) := by
    change ∀ document ∈ [chainHead, .object [("_id", .string "b")]], _
    rw [List.forall_mem_cons, List.forall_mem_singleton]
    exact ⟨⟨false, rfl⟩, true, rfl⟩
  have htail : Cascade chainSchema.graph chainSession.store "nodes"
      (rootsOf chainSession.store (chainSchema.graph.collection "nodes") (.single "_id" (.string "b"))
        false)
      "nodes" (.string "b") :=
    .root List.mem_cons_self rfl
  have hnext : (chainSchema.graph.links "nodes").foreignKeys.get? "next" =
      some ⟨["next"], "nodes", .verify, .delete, none⟩ := rfl
  have hnode : (chainSchema.graph.links "notes").foreignKeys.get? "node" =
      some ⟨["node"], "nodes", .verify, .reject, none⟩ := rfl
  have hhead : Cascade chainSchema.graph chainSession.store "nodes"
      (rootsOf chainSession.store (chainSchema.graph.collection "nodes") (.single "_id" (.string "b"))
        false)
      "nodes" (.string "a") :=
    .step htail hnext rfl rfl (List.mem_cons_self : chainHead ∈ _) rfl rfl
  have hrejected := (hexact.1 chainSession (.single "_id" (.string "b")) (.single "_id" (.string "b"))
    false rfl rfl rfl hevaluates).2 ⟨"nodes", .string "a", "notes", "node", _, chainNote, hhead, hnode,
      rfl, rfl, List.mem_cons_self, rfl⟩
  exact ⟨hrejected, hexact.2.1 _ _ chainSession hrejected⟩

end Collection

end LinkedDocs
