import LinkedDocs.Proofs.Removal.Closure
import LinkedDocs.Proofs.Removal.Detaching
import LinkedDocs.Proofs.Store.Writing

namespace LinkedDocs

open Json Update

/-- Whether a delete policy updates the referring documents. -/
def DeletePolicy.updates : DeletePolicy → Bool
  | .unset => true
  | .nullify => true
  | .pull => true
  | _ => false

theorem DeletePolicy.updates_of_ne {policy : DeletePolicy}
    (h : policy ≠ .bypass ∧ policy ≠ .reject ∧ policy ≠ .delete) : policy.updates := by
  obtain ⟨hbypass, hreject, hdelete⟩ := h
  cases policy with
  | bypass => exact absurd rfl hbypass
  | reject => exact absurd rfl hreject
  | delete => exact absurd rfl hdelete
  | _ => rfl

/-- Whether no update that detaches documents of a collection from keys can reach their own key. -/
def Graph.KeepsKeys (graph : Graph) : Prop :=
  ∀ referencing name foreignKey,
    (graph.links referencing).foreignKeys.get? name = some foreignKey →
      foreignKey.onDelete = .unset ∨ foreignKey.onDelete = .nullify ∨ foreignKey.onDelete = .pull →
      foreignKey.path.head? ≠ (splitPath (graph.links referencing).key).head?

theorem Graph.KeepsKeys.head?_ne {graph : Graph} (hkeeps : graph.KeepsKeys)
    {referencing name : String} {foreignKey : ForeignKey}
    (hforeign : (graph.links referencing).foreignKeys.get? name = some foreignKey)
    (hpolicy : foreignKey.onDelete ≠ .bypass ∧ foreignKey.onDelete ≠ .reject ∧
      foreignKey.onDelete ≠ .delete) :
    foreignKey.path.head? ≠ (splitPath (graph.links referencing).key).head? := by
  refine hkeeps referencing name foreignKey hforeign ?_
  cases honDelete : foreignKey.onDelete <;> simp [honDelete] at hpolicy ⊢

/-- Whether a document of a collection can have come from an earlier one. -/
structure Collection.Descends (collection : Collection) (old new : Json) : Prop where
  shrinks : Shrinks old new
  keyOf?_eq : collection.keyOf? new = collection.keyOf? old

/-- Whether every document of a store can have come from one of an earlier store. -/
def Graph.Descends (graph : Graph) (before after : Store) : Prop :=
  ∀ name, ∀ new ∈ after.documents name, ∃ old ∈ before.documents name,
    (graph.collection name).Descends old new

section Descends

variable {graph : Graph} {before middle after : Store}

theorem Collection.Descends.refl (collection : Collection) {document : Json}
    (hnames : document.namesOnce) : collection.Descends document document :=
  ⟨.refl hnames, rfl⟩

theorem Collection.Descends.trans {collection : Collection} {old document new : Json}
    (hfirst : collection.Descends old document) (hsecond : collection.Descends document new) :
    collection.Descends old new :=
  ⟨hfirst.shrinks.trans hsecond.shrinks, hsecond.keyOf?_eq.trans hfirst.keyOf?_eq⟩

theorem Graph.Descends.trans (hfirst : graph.Descends before middle)
    (hsecond : graph.Descends middle after) : graph.Descends before after := by
  intro name new hnew
  obtain ⟨document, hdocument, hdescends⟩ := hsecond name new hnew
  obtain ⟨old, hold, hbefore⟩ := hfirst name document hdocument
  exact ⟨old, hold, hbefore.trans hdescends⟩

theorem Graph.Descends.namesOnce (h : graph.Descends before after) : after.NamesOnce := by
  intro name new hnew
  obtain ⟨_, -, hdescends⟩ := h name new hnew
  exact hdescends.shrinks.namesOnce

end Descends

variable [Platform]

/-- Whether an operation succeeds on a store and turns it into another one. -/
def Operation.TurnsInto (operation : Operation) (before after : Store) : Prop :=
  match operation with
  | .update collection filter changes arrayFilters =>
    ∃ count, before.update collection filter changes { multi := true, arrayFilters } =
      (.ok count, after)
  | .delete collection filter => ∃ count, before.deleteMany collection filter = (.ok count, after)

/-- Whether operations succeed one after the other. -/
inductive Operation.Executes : List Operation → Store → Store → Prop
  | nil (store : Store) : Executes [] store store
  | cons {operation : Operation} {rest : List Operation} {before middle after : Store}
      (hfirst : operation.TurnsInto before middle) (hrest : Executes rest middle after) :
      Executes (operation :: rest) before after

namespace Operation.Executes

variable {before middle after : Store}

theorem append {operations others : List Operation} (h : Executes operations before middle)
    (hothers : Executes others middle after) : Executes (operations ++ others) before after := by
  induction h with
  | nil => exact hothers
  | cons hfirst _ ih => exact .cons hfirst (ih hothers)

theorem append_iff {operations others : List Operation} :
    Executes (operations ++ others) before after ↔
      ∃ middle, Executes operations before middle ∧ Executes others middle after := by
  refine ⟨fun h => ?_, fun ⟨_, h, hothers⟩ => h.append hothers⟩
  induction operations generalizing before with
  | nil => exact ⟨before, .nil before, h⟩
  | cons operation rest ih =>
    obtain _ | ⟨hfirst, hrest⟩ := h
    obtain ⟨middle, hmiddle, hothers⟩ := ih hrest
    exact ⟨middle, .cons hfirst hmiddle, hothers⟩

theorem exists_of_mem {operations : List Operation} {operation : Operation}
    (h : Executes operations before after) (hmem : operation ∈ operations) :
    ∃ earlier later previous next, operations = earlier ++ operation :: later ∧
      Executes earlier before previous ∧ operation.TurnsInto previous next ∧
      Executes later next after := by
  induction h with
  | nil => cases hmem
  | @cons first rest before middle after hfirst hrest ih =>
    rcases List.mem_cons.1 hmem with rfl | hmem
    · exact ⟨[], rest, before, middle, rfl, .nil before, hfirst, hrest⟩
    · obtain ⟨earlier, later, previous, next, rfl, hearlier, hoperation, hlater⟩ := ih hmem
      exact ⟨first :: earlier, later, previous, next, rfl, .cons hfirst hearlier, hoperation, hlater⟩

end Operation.Executes

/-- The method of the store that an operation calls. -/
def Operation.method : Operation → StoreMethod
  | .update _ _ _ _ => .update
  | .delete _ _ => .deleteMany

/-- Whether a session refuses none of some operations. -/
def Session.Allows (session : Session) (operations : List Operation) : Prop :=
  ∀ operation ∈ operations, session.refused.contains operation.method = false

theorem Operation.turnsInto_of_runIn {operation : Operation} {session after : Session} {count : Nat}
    (h : operation.execute.runIn session = (.ok count, after)) :
    operation.TurnsInto session.store after.store ∧
      session.refused.contains operation.method = false ∧ after.refused = session.refused := by
  cases operation with
  | update collection filter changes arrayFilters =>
    have hbind : (Access.update collection filter changes { multi := true, arrayFilters } >>=
        fun updated => pure updated.modified).runIn session = (.ok count, after) := h
    obtain ⟨updated, middle, hcall, hpure⟩ := Access.runIn_bind_eq_ok hbind
    cases hpure
    obtain ⟨hupdate, hallowed⟩ := Access.runIn_call_eq_ok hcall
    exact ⟨⟨updated, hupdate⟩, hallowed⟩
  | delete collection filter =>
    have hcall : (Access.deleteMany collection filter).runIn session = (.ok count, after) := h
    obtain ⟨hdelete, hallowed⟩ := Access.runIn_call_eq_ok hcall
    exact ⟨⟨count, hdelete⟩, hallowed⟩

theorem Operation.executes_of_runIn_forM {operations : List Operation} {session after : Session}
    (h : (operations.forM fun operation => do let _ ← operation.execute : Access Unit).runIn session =
      (.ok (), after)) :
    Executes operations session.store after.store ∧ session.Allows operations ∧
      after.refused = session.refused := by
  induction operations generalizing session with
  | nil =>
    cases h
    exact ⟨.nil _, fun _ hmem => absurd hmem List.not_mem_nil, rfl⟩
  | cons operation rest ih =>
    have hbind : ((operation.execute >>= fun _ => pure ()) >>= fun _ =>
        rest.forM fun operation => do let _ ← operation.execute).runIn session =
          (.ok (), after) := h
    obtain ⟨_, middle, hfirst, hrest⟩ := Access.runIn_bind_eq_ok hbind
    obtain ⟨_, next, hoperation, hpure⟩ := Access.runIn_bind_eq_ok hfirst
    cases hpure
    obtain ⟨hturns, hallowed, hsame⟩ := turnsInto_of_runIn hoperation
    obtain ⟨hexecutes, hallows, hafter⟩ := ih hrest
    rw [Session.Allows, hsame] at hallows
    exact ⟨.cons hturns hexecutes, List.forall_mem_cons.2 ⟨hallowed, hallows⟩, hafter.trans hsame⟩

/-- A plan that is carried out has had all its operations carried out, the delete as the last one,
and none of them refused. -/
theorem RemovalPlan.executes_and_allows_of_runIn {plan : RemovalPlan} {session after : Session}
    {count : Nat} (h : plan.execute.runIn session = (.ok count, after)) :
    Operation.Executes (plan.operations ++ [plan.delete]) session.store after.store ∧
      session.Allows (plan.operations ++ [plan.delete]) := by
  have hbind : ((plan.operations.forM fun operation => do let _ ← operation.execute) >>= fun _ =>
      plan.delete.execute).runIn session = (.ok count, after) := h
  obtain ⟨_, middle, hoperations, hdelete⟩ := Access.runIn_bind_eq_ok hbind
  obtain ⟨hexecutes, hallows, hsame⟩ := Operation.executes_of_runIn_forM hoperations
  obtain ⟨hturns, hallowed, -⟩ := Operation.turnsInto_of_runIn hdelete
  rw [hsame] at hallowed
  exact ⟨hexecutes.append (.cons hturns (.nil _)),
    List.forall_mem_append.2 ⟨hallows, List.forall_mem_singleton.2 hallowed⟩⟩

theorem RemovalPlan.executes_of_runIn {plan : RemovalPlan} {session after : Session} {count : Nat}
    (h : plan.execute.runIn session = (.ok count, after)) :
    Operation.Executes (plan.operations ++ [plan.delete]) session.store after.store :=
  (executes_and_allows_of_runIn h).1

/-- A delete that succeeds has carried out the plan for it. -/
theorem Collection.executes_of_delete {collection : Collection} {filter : Json}
    {options : DeleteOptions} {session after : Session} {count : Nat}
    (h : (collection.delete filter options).runIn session = (.ok count, after)) :
    ∃ plan, (collection.planDelete filter options).answer session = .ok plan ∧
      Operation.Executes (plan.operations ++ [plan.delete]) session.store after.store := by
  obtain ⟨plan, middle, hplan, hrun⟩ := Access.runIn_bind_eq_ok h
  have hstore := (reads_planDelete collection filter options).store_runIn session
  rw [hplan] at hstore
  have hexecutes := RemovalPlan.executes_of_runIn hrun
  rw [hstore] at hexecutes
  exact ⟨plan, congrArg Prod.fst hplan, hexecutes⟩

variable {schema : Schema} {graph : Graph} {before after : Store}

/-- After an update of one target, a document is as it was if it does not match, and as the operator
made it otherwise. -/
theorem Store.afterUpdate_cases {operator : UpdateOperator} {argument : Json} {target : String}
    {arrayFilters : List Json} {filter old : Json} {result : Option (Json × Bool)}
    (h : updateDocument? filter (.single operator.name (.single target argument)) arrayFilters old =
      .ok result) :
    (Filter.accepts old filter = .ok false ∧ afterUpdate old result = old) ∨
      (Filter.accepts old filter = .ok true ∧ ∃ changed,
        updateAt arrayFilters operator argument (splitPath target) old =
          .ok (afterUpdate old result, changed)) := by
  have hupdated := updated_afterUpdate h
  simp only [Updated, apply_single] at hupdated
  exact hupdated

/-- What the update of a foreign key makes of a document of its collection: the document still has
its key, has lost values only, and it did not match or holds none of the keys any more. -/
theorem ForeignKey.Detaches.afterUpdate (hbuilt : Graph.build schema = .ok graph)
    {referencing : String} {foreignKey : ForeignKey}
    (hapart : foreignKey.path.head? ≠ (splitPath (graph.links referencing).key).head?)
    {keys arrayFilters : List Json} {operator : UpdateOperator} {argument : Json} {target : String}
    (hdetaches : foreignKey.Detaches keys operator argument target arrayFilters) {filter old : Json}
    (hnames : old.namesOnce) {result : Option (Json × Bool)}
    (h : Store.updateDocument? filter (.single operator.name (.single target argument)) arrayFilters
      old = .ok result) :
    (graph.collection referencing).Descends old (Store.afterUpdate old result) ∧
      ((Filter.accepts old filter = .ok false ∧ Store.afterUpdate old result = old) ∨
        (Store.afterUpdate old result).Avoids keys foreignKey.path) := by
  obtain ⟨hfalse, hsame⟩ | ⟨-, changed, hupdate⟩ := Store.afterUpdate_cases h
  · exact ⟨hsame.symm ▸ .refl _ hnames, .inl ⟨hfalse, hsame⟩⟩
  · refine ⟨⟨shrinks_updateAt hdetaches.erases hnames hupdate, ?_⟩,
      .inr (hdetaches.avoids hnames hupdate)⟩
    obtain ⟨first, rest, htarget, hfirst, hhead⟩ := hdetaches.head
    rw [Graph.keyOf?_eq_follow? hbuilt, Graph.keyOf?_eq_follow? hbuilt]
    cases hkey : splitPath (graph.links referencing).key with
    | nil => exact absurd hkey (splitPath_ne_nil _)
    | cons segment others =>
      rw [hhead, hkey, List.head?_cons] at hapart
      rw [htarget] at hupdate
      exact follow?_updateAt hdetaches.erases hfirst hnames hupdate
        (fun heq => hapart (congrArg some heq.symm)) others

/-- Every planned operation turns a store into one whose documents descend from it. -/
theorem Operation.descends_of_turnsInto (hbuilt : Graph.build schema = .ok graph)
    (hkeeps : graph.KeepsKeys) {operation : Operation} (hplanned : operation.IsPlanned graph)
    (hnames : before.NamesOnce) (h : operation.TurnsInto before after) :
    graph.Descends before after := by
  cases hplanned with
  | delete collection keys =>
    obtain ⟨count, hdelete⟩ := h
    intro name document hdocument
    have hmem := (Store.mem_documents_deleteMany hdelete name document hdocument).1
    exact ⟨document, hmem, .refl _ (hnames name document hmem)⟩
  | @detach referencing foreignName foreignKey keys _ hforeign hpolicy hdetach =>
    have hcompiled := Graph.compiled hbuilt hforeign
    obtain ⟨operator, argument, target, arrayFilters, rfl, hdetaches⟩ :=
      hcompiled.exists_detaches hpolicy hdetach
    obtain ⟨count, hupdate⟩ := h
    have hapart := hkeeps.head?_ne hforeign hpolicy
    intro name new hnew
    obtain ⟨old, hold, ⟨-, rfl⟩ | ⟨rfl, result, hresult, rfl⟩⟩ :=
      Store.mem_documents_update rfl hupdate name new hnew
    · exact ⟨new, hold, .refl _ (hnames name new hold)⟩
    · exact ⟨old, hold, (hdetaches.afterUpdate hbuilt hapart (hnames name old hold) hresult).1⟩

theorem Operation.Executes.descends (hbuilt : Graph.build schema = .ok graph)
    (hkeeps : graph.KeepsKeys) {operations : List Operation}
    (hplanned : ∀ operation ∈ operations, operation.IsPlanned graph) (hnames : before.NamesOnce)
    (h : Executes operations before after) : graph.Descends before after := by
  induction h with
  | nil => exact fun name document hdocument =>
      ⟨document, hdocument, .refl _ (hnames name document hdocument)⟩
  | cons hfirst _ ih =>
    obtain ⟨hoperation, hrest⟩ := List.forall_mem_cons.1 hplanned
    have hdescends := Operation.descends_of_turnsInto hbuilt hkeeps hoperation hnames hfirst
    exact hdescends.trans (ih hrest hdescends.namesOnce)

end LinkedDocs
