import LinkedDocs.Platform.Native
import LinkedDocs.Proofs.Removal.Execution
import LinkedDocs.Proofs.Removal.Scheduling
import LinkedDocs.Proofs.Update.Completing

/-!
Plans that run to their end. On a store whose documents fit the foreign keys that update them, each
operation that was scheduled succeeds, and the documents after it fit again; so no plan stops half
way.
-/

namespace LinkedDocs

open Json Update

/-- Whether the field in front of a rest of the path may be missing in the documents. Setting a key
to null creates the fields that are missing, and what it creates between two wildcards of the path is
no array. -/
def ForeignKey.mayMiss (foreignKey : ForeignKey) (rest : List String) : Bool :=
  foreignKey.onDelete != .nullify || rest.count wildcard == 0 ||
    rest.count wildcard == foreignKey.path.count wildcard

/-- Whether every document of a store has the shape that the foreign keys ask for which update it. -/
def Store.FitsUpdates (graph : Graph) (store : Store) : Prop :=
  ∀ referencing name foreignKey,
    (graph.links referencing).foreignKeys.get? name = some foreignKey →
      foreignKey.onDelete.updates →
      ∀ document ∈ store.documents referencing,
        document.fitsWhere foreignKey.mayMiss foreignKey.path

/-- Whether no document of a store has the key null, which missing fields would hold. -/
def Store.HasNoNullKeys (graph : Graph) (store : Store) : Prop :=
  ∀ name, ∀ document ∈ store.documents name,
    ((graph.collection name).keyOf? document).all fun key => !key.isNull

/-- Whether no update of a delete policy can reach the id of a document. -/
def Graph.KeepsIds (graph : Graph) : Prop :=
  ∀ referencing name foreignKey,
    (graph.links referencing).foreignKeys.get? name = some foreignKey →
      foreignKey.onDelete.updates → foreignKey.path.head? ≠ some idField

theorem ForeignKey.mayMiss_nil (foreignKey : ForeignKey) : foreignKey.mayMiss [] := by
  simp [mayMiss]

/-- In front of a wildcard a field may be missing only if no wildcard comes before it. -/
theorem ForeignKey.mayMiss_wildcard {foreignKey : ForeignKey}
    (hpolicy : foreignKey.onDelete = .nullify) (before inner : List String) :
    (foreignKey.mayMiss (before ++ wildcard :: inner) &&
      (before ++ wildcard :: inner).count wildcard != foreignKey.path.count wildcard) = false := by
  simp only [mayMiss, hpolicy]
  simp

section

theorem Store.idOf_eq_follow? (document : Json) :
    idOf document = (document.follow? [idField]).getD .null := by
  cases document with
  | object fields =>
    change (lookupName idField fields).getD .null =
      ((lookupName idField fields).bind fun child => some child).getD .null
    cases lookupName idField fields <;> rfl
  | array items =>
    have hindex : index? idField = none := by decide
    simp only [follow?, step?, hindex]
    rfl
  | _ => rfl

theorem Session.allows_of_refused_eq_nil {session : Session} (hrefused : session.refused = [])
    (operations : List Operation) : session.Allows operations := by
  intro operation _
  rw [hrefused]
  rfl

theorem Access.runIn_call_of_eq_ok {α : Type} {collection : String} {request : StoreRequest}
    {perform : Store → Except Error α × Store} {session : Session}
    (hallowed : session.refused.contains request.method = false) {value : α} {after : Store}
    (h : perform session.store = (.ok value, after)) :
    (call collection request perform).runIn session = (.ok value,
      { session with calls := ⟨collection, request⟩ :: session.calls, store := after }) := by
  rw [runIn_call, hallowed, h]
  rfl

variable [Platform]

/-- The update of a foreign key runs to its end on a document that fits it and holds a key. -/
theorem ForeignKey.Compiled.completes {name : String} {foreignKey : ForeignKey}
    (h : foreignKey.Compiled name) {keys : List Json} (hkeys : ∀ key ∈ keys, key.isNull = false)
    {operator : UpdateOperator} {argument : Json} {target : String} {arrayFilters : List Json}
    (hby : foreignKey.DetachesBy keys operator argument target arrayFilters) {document : Json}
    (hnames : document.namesOnce) (hfits : document.fitsWhere foreignKey.mayMiss foreignKey.path)
    (hmatches : Filter.anyAmong (Filter.lookup document name) keys) :
    Completes arrayFilters operator argument (splitPath target) document := by
  obtain ⟨found, hfound⟩ := Filter.exists_candidate_of_anyAmong hkeys hmatches
  rw [Filter.lookup, h.splitPath_name] at hfound
  cases hby with
  | clear hclears hpolicy hlast =>
    rcases h.forSet_cases hlast keys with
      ⟨hwildcard, htarget⟩ | ⟨outer, inner, hsplit, hinner, htarget, hconditions⟩
    · rw [filter_ne_wildcard hwildcard] at hfound
      rw [htarget]
      exact hclears.completes_names hwildcard h.path_ne_nil hnames
        (fitsWhere_names hwildcard hfound hfits)
    · have hpath := (Updater.eq_of_splitAtLastWildcard? hsplit).1
      have hthere := fitsWhere_of_candidate hfound hfits
      rw [hpath] at hthere
      rw [htarget, hconditions]
      refine completes_openWildcards (List.cons_ne_nil _ _) (fun hset before => ?_)
        (fun hvalue hvalueFits => hclears.completes_selected (h.areNames_inner hsplit) hinner hkeys
          hvalue hvalueFits) hnames hthere
      rw [← hpath]
      exact ForeignKey.mayMiss_wildcard (hpolicy.trans (if_pos hset)) before inner
  | @pull outer inner _ hsplit =>
    have hpath := (Updater.eq_of_splitAtLastWildcard? hsplit).1
    rw [hpath] at hfits
    obtain ⟨first, rest, houter, -⟩ := h.exists_outer hsplit
    rw [h.splitPath_forPull hsplit]
    exact completes_pulled (h.areNames_inner hsplit) (by rw [houter]; exact List.cons_ne_nil _ _)
      keys hnames hfits

theorem idOf_updateAt {arrayFilters : List Json} {operator : UpdateOperator} {argument : Json}
    (herases : Erases operator argument) {first : String} (hfirst : Identifier.isValid first)
    (hne : first ≠ idField) {rest : List String} {document : Json} (hnames : document.namesOnce)
    {result : Json × Bool}
    (hupdate : updateAt arrayFilters operator argument (first :: rest) document = .ok result) :
    Store.idOf result.1 = Store.idOf document := by
  rw [Store.idOf_eq_follow?, Store.idOf_eq_follow?,
    follow?_updateAt herases hfirst hnames hupdate hne.symm []]

section Step

variable {schema : Schema} {graph : Graph} {origin before : Store}

/-- The update of a foreign key succeeds on any document that fits it, whether or not the document
matches. -/
theorem ForeignKey.exists_updateDocument? (hbuilt : Graph.build schema = .ok graph)
    (hids : graph.KeepsIds) {referencing name : String} {foreignKey : ForeignKey}
    (hforeign : (graph.links referencing).foreignKeys.get? name = some foreignKey)
    (hupdates : foreignKey.onDelete.updates) {keys : List Json}
    (hkeys : ∀ key ∈ keys, key.isNull = false) {operator : UpdateOperator} {argument : Json}
    {target : String} {arrayFilters : List Json}
    (hby : foreignKey.DetachesBy keys operator argument target arrayFilters) {document : Json}
    (hnames : document.namesOnce) (hfits : document.fitsWhere foreignKey.mayMiss foreignKey.path) :
    ∃ result, Store.updateDocument? (.single name (.oneOf keys))
      (.single operator.name (.single target argument)) arrayFilters document = .ok result := by
  have hcompiled := Graph.compiled hbuilt hforeign
  have hdetaches := hcompiled.detaches hby
  have haccepts := Filter.accepts_oneOf hcompiled.isMarked_eq_false document keys
  refine Store.exists_updateDocument? haccepts fun hmatches => ?_
  obtain ⟨⟨updated, changed⟩, hupdate, -⟩ := hcompiled.completes hkeys hby hnames hfits hmatches
  refine ⟨updated, changed, by rw [apply_single, hupdate], ?_⟩
  obtain ⟨first, rest, htarget, hfirst, hhead⟩ := hdetaches.head
  have hne : first ≠ idField := fun heq => hids _ _ _ hforeign hupdates (by rw [hhead, heq])
  rw [htarget] at hupdate
  have hid := idOf_updateAt hdetaches.erases hfirst hne hnames hupdate
  exact hid ▸ sameValue_refl _

/-- The update of a foreign key trims the documents that fit it. -/
theorem ForeignKey.trims_afterUpdate (hbuilt : Graph.build schema = .ok graph)
    {referencing name : String} {foreignKey : ForeignKey}
    (hforeign : (graph.links referencing).foreignKeys.get? name = some foreignKey)
    {keys : List Json} (hkeys : ∀ key ∈ keys, key.isNull = false) {operator : UpdateOperator}
    {argument : Json} {target : String} {arrayFilters : List Json}
    (hby : foreignKey.DetachesBy keys operator argument target arrayFilters) {document : Json}
    (hnames : document.namesOnce) (hfits : document.fitsWhere foreignKey.mayMiss foreignKey.path)
    {result : Option (Json × Bool)}
    (h : Store.updateDocument? (.single name (.oneOf keys))
      (.single operator.name (.single target argument)) arrayFilters document = .ok result) :
    Trims document (Store.afterUpdate document result) ∧
      (Store.afterUpdate document result).namesOnce := by
  have hcompiled := Graph.compiled hbuilt hforeign
  have herases := (hcompiled.detaches hby).erases
  have haccepts := Filter.accepts_oneOf hcompiled.isMarked_eq_false document keys
  obtain ⟨-, hsame⟩ | ⟨htrue, changed, hupdate⟩ := Store.afterUpdate_cases h
  · rw [hsame]
    exact ⟨.refl document, hnames⟩
  · rw [haccepts, Except.ok.injEq] at htrue
    obtain ⟨result, hresult, htrims⟩ := hcompiled.completes hkeys hby hnames hfits htrue
    have hshrinks := shrinks_updateAt herases hnames hupdate
    rw [hupdate] at hresult
    cases hresult
    exact ⟨htrims, hshrinks.namesOnce⟩

omit [Platform] in
theorem Store.HasNoNullKeys.isNull_eq_false (h : origin.HasNoNullKeys graph) {name : String}
    {key : Json} (hkey : (name, key) ∈ storedPairs graph origin) : key.isNull = false := by
  obtain ⟨document, hdocument, hkeyOf⟩ := exists_of_mem_storedPairs hkey
  have hnull := h name document hdocument
  rw [hkeyOf] at hnull
  simpa using hnull

/-- The documents after an operation that was scheduled fit again. -/
theorem Operation.fitsUpdates_of_turnsInto (hbuilt : Graph.build schema = .ok graph)
    (hkeys : origin.HasNoNullKeys graph) {operation : Operation}
    (hscheduled : operation.IsScheduled graph origin) (hnames : before.NamesOnce)
    (hfits : before.FitsUpdates graph) {after : Store} (h : operation.TurnsInto before after) :
    after.NamesOnce ∧ after.FitsUpdates graph := by
  cases hscheduled with
  | delete name keys =>
    obtain ⟨count, hdelete⟩ := h
    have hmem (other : String) : ∀ document ∈ after.documents other,
        document ∈ before.documents other := fun document hdocument =>
      (Store.mem_documents_deleteMany hdelete other document hdocument).1
    refine ⟨fun other document hdocument => hnames other document (hmem other document hdocument), ?_⟩
    exact fun referencing name foreignKey hforeign hupdates document hdocument =>
      hfits referencing name foreignKey hforeign hupdates document
        (hmem referencing document hdocument)
  | @detach referencing name foreignKey keys _ hforeign hpolicy hstored hdetach =>
    have hfitsHere := hfits referencing name foreignKey hforeign (DeletePolicy.updates_of_ne hpolicy)
    have hnonnull : ∀ key ∈ keys, key.isNull = false := fun key hkey =>
      hkeys.isNull_eq_false (hstored key hkey)
    obtain ⟨operator, argument, target, arrayFilters, rfl, hby⟩ :=
      (Graph.compiled hbuilt hforeign).exists_detachesBy hpolicy hdetach
    obtain ⟨count, hupdate⟩ := h
    have htrims : ∀ other, ∀ new ∈ after.documents other, ∃ old ∈ before.documents other,
        Trims old new ∧ new.namesOnce := by
      intro other new hnew
      obtain ⟨old, hold, ⟨-, rfl⟩ | ⟨rfl, result, hresult, rfl⟩⟩ :=
        Store.mem_documents_update rfl hupdate other new hnew
      · exact ⟨new, hold, .refl new, hnames other new hold⟩
      · exact ⟨old, hold, ForeignKey.trims_afterUpdate hbuilt hforeign hnonnull hby
          (hnames other old hold) (hfitsHere old hold) hresult⟩
    refine ⟨fun other new hnew => ?_, ?_⟩
    · obtain ⟨_, -, -, hnewNames⟩ := htrims other new hnew
      exact hnewNames
    · intro other otherName otherKey hother hotherUpdates new hnew
      obtain ⟨old, hold, htrimsNew, -⟩ := htrims other new hnew
      exact htrimsNew.fitsWhere otherKey.mayMiss_nil
        (hfits other otherName otherKey hother hotherUpdates old hold)

/-- Every operation that was scheduled succeeds. -/
theorem Operation.exists_turnsInto (hbuilt : Graph.build schema = .ok graph)
    (hids : graph.KeepsIds) (hkeys : origin.HasNoNullKeys graph) {operation : Operation}
    (hscheduled : operation.IsScheduled graph origin) (hnames : before.NamesOnce)
    (hfits : before.FitsUpdates graph) : ∃ after, operation.TurnsInto before after := by
  cases hscheduled with
  | delete name keys =>
    obtain ⟨count, after, hdelete⟩ := Store.exists_deleteMany
      (Filter.evaluates_oneOf (Graph.isMarked_key hbuilt name) (before.documents name) keys)
    exact ⟨after, count, hdelete⟩
  | @detach referencing name foreignKey keys _ hforeign hpolicy hstored hdetach =>
    have hupdates := DeletePolicy.updates_of_ne hpolicy
    have hnonnull : ∀ key ∈ keys, key.isNull = false := fun key hkey =>
      hkeys.isNull_eq_false (hstored key hkey)
    obtain ⟨operator, argument, target, arrayFilters, rfl, hby⟩ :=
      (Graph.compiled hbuilt hforeign).exists_detachesBy hpolicy hdetach
    obtain ⟨count, after, hupdate⟩ : ∃ count after, before.update referencing
        (.single name (.oneOf keys)) (.single operator.name (.single target argument))
          { multi := true, arrayFilters } = (.ok count, after) :=
      Store.exists_update rfl fun document hdocument =>
        ForeignKey.exists_updateDocument? hbuilt hids hforeign hupdates hnonnull hby
          (hnames referencing document hdocument)
          (hfits referencing name foreignKey hforeign hupdates document hdocument)
    exact ⟨after, count, hupdate⟩

theorem Operation.exists_executes (hbuilt : Graph.build schema = .ok graph) (hids : graph.KeepsIds)
    (hkeys : origin.HasNoNullKeys graph) {operations : List Operation}
    (hscheduled : ∀ operation ∈ operations, operation.IsScheduled graph origin)
    (hnames : before.NamesOnce) (hfits : before.FitsUpdates graph) :
    ∃ after, Executes operations before after := by
  induction operations generalizing before with
  | nil => exact ⟨before, .nil before⟩
  | cons operation rest ih =>
    obtain ⟨hfirst, hrest⟩ := List.forall_mem_cons.1 hscheduled
    obtain ⟨middle, hturns⟩ := exists_turnsInto hbuilt hids hkeys hfirst hnames hfits
    obtain ⟨hmiddleNames, hmiddleFits⟩ :=
      fitsUpdates_of_turnsInto hbuilt hkeys hfirst hnames hfits hturns
    obtain ⟨after, hafter⟩ := ih hrest hmiddleNames hmiddleFits
    exact ⟨after, .cons hturns hafter⟩

end Step

theorem Operation.exists_runIn_of_turnsInto {operation : Operation} {session : Session}
    (hallowed : session.refused.contains operation.method = false) {after : Store}
    (h : operation.TurnsInto session.store after) :
    ∃ count calls, operation.execute.runIn session =
      (.ok count, { session with calls, store := after }) := by
  cases operation with
  | update collection filter changes arrayFilters =>
    obtain ⟨count, hupdate⟩ := h
    have hcall : (Access.update collection filter changes { multi := true, arrayFilters }).runIn
        session = _ := Access.runIn_call_of_eq_ok hallowed hupdate
    change ∃ count calls, (Access.update collection filter changes { multi := true, arrayFilters } >>=
      fun updated => pure updated.modified).runIn session = _
    rw [Access.runIn_bind, hcall]
    exact ⟨count.modified, _, rfl⟩
  | delete collection filter =>
    obtain ⟨count, hdelete⟩ := h
    have hcall : (Access.deleteMany collection filter).runIn session = _ :=
      Access.runIn_call_of_eq_ok hallowed hdelete
    change ∃ count calls, (Access.deleteMany collection filter).runIn session = _
    rw [hcall]
    exact ⟨count, _, rfl⟩

theorem Operation.Executes.exists_runIn {operations : List Operation} {session : Session}
    (hallows : session.Allows operations) {after : Store}
    (h : Executes operations session.store after) :
    ∃ calls, (operations.forM fun operation => do let _ ← operation.execute : Access Unit).runIn
      session = (.ok (), { session with calls, store := after }) := by
  induction operations generalizing session with
  | nil =>
    cases h
    exact ⟨session.calls, rfl⟩
  | cons operation rest ih =>
    obtain ⟨hfirstAllowed, hrestAllowed⟩ := List.forall_mem_cons.1 hallows
    obtain _ | ⟨hfirst, hrest⟩ := h
    obtain ⟨count, calls, hrun⟩ := Operation.exists_runIn_of_turnsInto hfirstAllowed hfirst
    change ∃ calls, ((operation.execute >>= fun _ => pure ()) >>= fun _ =>
      rest.forM fun operation => do let _ ← operation.execute).runIn session = _
    rw [Access.runIn_bind, Access.runIn_bind, hrun]
    exact ih hrestAllowed hrest

/-- A plan whose operations succeed one after the other, its delete as the last one, is carried
out. -/
theorem RemovalPlan.exists_runIn_of_executes {plan : RemovalPlan} {session : Session}
    (hallows : session.Allows (plan.operations ++ [plan.delete])) {after : Store}
    (h : Operation.Executes (plan.operations ++ [plan.delete]) session.store after) :
    ∃ count calls, plan.execute.runIn session =
      (.ok count, { session with calls, store := after }) := by
  obtain ⟨hoperations, hdelete⟩ := List.forall_mem_append.1 hallows
  obtain ⟨middle, hmiddle, hlast⟩ := Operation.Executes.append_iff.1 h
  obtain _ | ⟨hturns, hnil⟩ := hlast
  cases hnil
  obtain ⟨calls, hrun⟩ := hmiddle.exists_runIn hoperations
  let reached : Session := { session with calls, store := middle }
  have hallowed : reached.refused.contains plan.delete.method = false :=
    hdelete _ (List.mem_singleton_self _)
  obtain ⟨count, more, hcount⟩ := Operation.exists_runIn_of_turnsInto hallowed hturns
  change ∃ count calls, ((plan.operations.forM fun operation => do let _ ← operation.execute) >>=
    fun _ => plan.delete.execute).runIn session = _
  rw [Access.runIn_bind, hrun]
  exact ⟨count, more, hcount⟩

/-- The operations that were scheduled on a store run to their end on it. -/
theorem RemovalPlan.exists_runIn {schema : Schema} {graph : Graph}
    (hbuilt : Graph.build schema = .ok graph) (hids : graph.KeepsIds) {session : Session}
    (hrefused : session.refused = []) (hnames : session.store.NamesOnce)
    (hkeys : session.store.HasNoNullKeys graph) (hfits : session.store.FitsUpdates graph)
    {plan : RemovalPlan} (hscheduled : ∀ operation ∈ plan.operations ++ [plan.delete],
      operation.IsScheduled graph session.store) :
    ∃ count after, plan.execute.runIn session = (.ok count, after) := by
  obtain ⟨after, hexecutes⟩ := Operation.exists_executes hbuilt hids hkeys hscheduled hnames hfits
  obtain ⟨count, calls, hrun⟩ :=
    exists_runIn_of_executes (Session.allows_of_refused_eq_nil hrefused _) hexecutes
  exact ⟨count, _, hrun⟩

end

namespace Collection

section

variable [Platform]

/-- On documents that fit the foreign keys that update them, a plan that was made can be carried
out, so a delete that fails has written nothing. -/
theorem exists_execute_of_planDelete {schema : Schema} {graph : Graph}
    (hbuilt : Graph.build schema = .ok graph) (hids : graph.KeepsIds) {session : Session}
    (hrefused : session.refused = []) (hnames : session.store.NamesOnce)
    (hkeys : session.store.HasNoNullKeys graph) (hfits : session.store.FitsUpdates graph)
    (name : String) (filter : Json) (options : DeleteOptions) :
    (∀ plan, ((graph.collection name).planDelete filter options).answer session = .ok plan →
      ∃ count after, plan.execute.runIn session = (.ok count, after)) ∧
    ∀ error after, ((graph.collection name).delete filter options).runIn session =
      (.error error, after) → after.store = session.store := by
  have hreads := reads_planDelete (graph.collection name) filter options
  refine ⟨fun plan hplan => ?_, fun error after hfails => ?_⟩
  · exact RemovalPlan.exists_runIn hbuilt hids hrefused hnames hkeys hfits
      (isScheduled_of_answer hbuilt hplan)
  · obtain ⟨read, hread⟩ := hreads
    obtain ⟨calls, hcalls⟩ := hread session
    change ((graph.collection name).planDelete filter options >>= RemovalPlan.execute).runIn session =
      _ at hfails
    rw [Access.runIn_bind, hcalls] at hfails
    cases hplan : read session.store session.refused with
    | error fault =>
      rw [hplan] at hfails
      cases hfails
      rfl
    | ok plan =>
      rw [hplan] at hfails
      dsimp only at hfails
      have hanswer : ((graph.collection name).planDelete filter options).answer session =
          .ok plan := by rw [Access.answer, hcalls, hplan]
      have hscheduled := isScheduled_of_answer hbuilt hanswer
      let planned : Session := { session with calls }
      have hplanned : planned.refused = [] := hrefused
      obtain ⟨count, done, hdone⟩ :=
        RemovalPlan.exists_runIn hbuilt hids hplanned hnames hkeys hfits hscheduled
      rw [hdone] at hfails
      cases hfails

end

/-- Shelves with rows of books: the author of a book becomes null, and its editor takes the book from
its row. -/
def catalogSchema : Schema where
  collections := .ofList [("shelves", { foreignKeys := .ofList [
    ("rows.$.books.$.author", { collection := some "people", onDelete := some .nullify }),
    ("rows.$.books.$.editor", { collection := some "people", onDelete := some .pull })] })]

/-- A shelf whose first row holds a book by a person, who also edits it. -/
def catalogSession (lastRow : Json) : Session where
  store := { collections := .ofList [
    ("people", [.object [("_id", .string "p")]]),
    ("shelves", [.object [("_id", .string "s"), ("rows", .array [
      .object [("books", .array [
        .object [("author", .string "p"), ("editor", .string "p")]])],
      lastRow])]])] }

/-- With an empty row of books the plan for the person is carried out. -/
theorem exists_execute_catalog : ∃ plan,
    ((catalogSchema.graph.collection "people").planDelete (.single "_id" (.string "p")) {}).answer
      (catalogSession (.object [("books", .array [])])) = .ok plan ∧
    ∃ count after, plan.execute.runIn (catalogSession (.object [("books", .array [])])) =
      (.ok count, after) := by
  have hids : catalogSchema.graph.KeepsIds := by
    refine Graph.forall_foreignKeys ?_
    decide
  have hnames : (catalogSession (.object [("books", .array [])])).store.NamesOnce := by
    refine Store.forall_documents ?_
    decide
  have hkeys : (catalogSession (.object [("books", .array [])])).store.HasNoNullKeys
      catalogSchema.graph := by
    refine Store.forall_documents ?_
    decide
  have hfits : (catalogSession (.object [("books", .array [])])).store.FitsUpdates
      catalogSchema.graph := by
    refine Graph.forall_foreignKeys ?_
    decide
  have hplans : (((catalogSchema.graph.collection "people").planDelete (.single "_id" (.string "p"))
      {}).answer (catalogSession (.object [("books", .array [])]))).toOption.any fun _ => true := by
    decide +kernel
  obtain ⟨plan, hplan, -⟩ := exists_of_any_toOption hplans
  obtain ⟨hexecutes, -⟩ := exists_execute_of_planDelete (catalogSchema.build_graph rfl) hids rfl
    hnames hkeys hfits "people" (.single "_id" (.string "p")) {}
  exact ⟨plan, hplan, hexecutes plan hplan⟩

/-- A row without books fits both foreign keys, but it gets an object in place of an array of books
before the array is looked for, so the plan stops half way. -/
theorem not_execute_catalog : ∃ plan,
    ((catalogSchema.graph.collection "people").planDelete (.single "_id" (.string "p")) {}).answer
      (catalogSession (.object [])) = .ok plan ∧
    (plan.execute.answer (catalogSession (.object []))).toOption.isNone ∧
    ¬sameItems ((plan.execute.runIn (catalogSession (.object []))).2.store.documents "shelves")
      ((catalogSession (.object [])).store.documents "shelves") ∧
    ∀ document ∈ (catalogSession (.object [])).store.documents "shelves",
      document.fits ["rows", "$", "books", "$", "author"] ∧
        document.fits ["rows", "$", "books", "$", "editor"] := by
  have hstops : (((catalogSchema.graph.collection "people").planDelete (.single "_id" (.string "p"))
      {}).answer (catalogSession (.object []))).toOption.any fun plan =>
        (plan.execute.answer (catalogSession (.object []))).toOption.isNone &&
          !sameItems ((plan.execute.runIn (catalogSession (.object []))).2.store.documents "shelves")
            ((catalogSession (.object [])).store.documents "shelves") := by decide +kernel
  obtain ⟨plan, hplan, hboth⟩ := exists_of_any_toOption hstops
  obtain ⟨hnone, hchanged⟩ := Bool.and_eq_true_iff.1 hboth
  exact ⟨plan, hplan, hnone, by simpa using hchanged, by decide⟩

end Collection

end LinkedDocs
