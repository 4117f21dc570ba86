import LinkedDocs.Platform.Native
import LinkedDocs.Proofs.Filter.Scalars
import LinkedDocs.Proofs.Removal.Completion
import LinkedDocs.Proofs.Removal.Dangling

/-!
Plans that are carried out again. Once an operation has been carried out it finds nothing any more,
whatever operations of the plan have come after it, and an operation that finds nothing leaves the
store as it is. So a plan that stopped half way goes on where it stopped when it is run again.
-/

namespace LinkedDocs

open Json

section

variable [Platform]

/-- Whether no document of a store is one that an operation looks for. -/
def Operation.Passes (operation : Operation) (store : Store) : Prop :=
  match operation with
  | .update collection filter _ _ =>
    ∀ document ∈ store.documents collection, Filter.accepts document filter = .ok false
  | .delete collection filter =>
    ∀ document ∈ store.documents collection, Filter.accepts document filter = .ok false

theorem Operation.Passes.turnsInto_self {operation : Operation} {store : Store}
    (h : operation.Passes store) : operation.TurnsInto store store := by
  cases operation with
  | update collection filter changes arrayFilters => exact Store.exists_update_eq_self h
  | delete collection filter => exact Store.exists_deleteMany_eq_self h

theorem Operation.executes_self {operations : List Operation} {store : Store}
    (h : ∀ operation ∈ operations, operation.Passes store) : Executes operations store store := by
  induction operations with
  | nil => exact .nil store
  | cons operation rest ih =>
    obtain ⟨hfirst, hrest⟩ := List.forall_mem_cons.1 h
    exact .cons hfirst.turnsInto_self (ih hrest)

section Passes

variable {schema : Schema} {graph : Graph} {before after : Store} {operations : List Operation}
  {family : String → Json → Prop}

/-- Documents with the keys of a delete that was carried out are gone, so it finds none. -/
theorem Operation.passes_delete (hbuilt : Graph.build schema = .ok graph)
    (hkeeps : graph.KeepsKeys) (hplanned : ∀ operation ∈ operations, operation.IsPlanned graph)
    (hnames : before.NamesOnce) (hkeys : before.HasScalarKeys graph)
    (hrun : Executes operations before after) {name : String} {keys : List Json}
    (hmem : .delete name ((graph.collection name).keysQuery keys) ∈ operations) :
    (Operation.delete name ((graph.collection name).keysQuery keys)).Passes after := by
  intro document hdocument
  obtain ⟨old, hold, hdescends⟩ := hrun.descends hbuilt hkeeps hplanned hnames name document hdocument
  have hscalar := hkeys name old hold
  rw [← hdescends.keyOf?_eq] at hscalar
  cases hkey : (graph.collection name).keyOf? document with
  | none =>
    rw [hkey] at hscalar
    cases hscalar
  | some key =>
    rw [hkey] at hscalar
    have hgone := not_holds_of_delete hbuilt hkeeps hplanned hnames hrun hmem hdocument hkey
    rw [accepts_keysQuery_of_isScalar hbuilt hkey hscalar, Bool.eq_false_iff.2 hgone]

/-- Documents that were detached from keys do not hold them any more, so the update finds none. -/
theorem Operation.passes_detach (hbuilt : Graph.build schema = .ok graph)
    (hkeeps : graph.KeepsKeys) (hplanned : ∀ operation ∈ operations, operation.IsPlanned graph)
    (hnames : before.NamesOnce) (hfits : before.FitsForeignKeys graph)
    (hrun : Executes operations before after) {referencing name : String} {foreignKey : ForeignKey}
    {keys : List Json} {operation : Operation}
    (hforeign : (graph.links referencing).foreignKeys.get? name = some foreignKey)
    (hpolicy : foreignKey.onDelete ≠ .bypass ∧ foreignKey.onDelete ≠ .reject ∧
      foreignKey.onDelete ≠ .delete) (hscalar : ∀ key ∈ keys, key.isScalar)
    (hdetach : foreignKey.detach referencing name (.single name (.oneOf keys)) keys = .ok operation)
    (hmem : operation ∈ operations) : operation.Passes after := by
  have hcompiled := Graph.compiled hbuilt hforeign
  have hleft : ∀ document ∈ after.documents referencing,
      Filter.accepts document (.single name (.oneOf keys)) = .ok false := by
    intro document hdocument
    obtain ⟨old, hold, hdescends⟩ :=
      hrun.descends hbuilt hkeeps hplanned hnames referencing document hdocument
    have havoids := avoids_of_detach hbuilt hkeeps hplanned hnames hfits hrun hforeign hpolicy hdetach
      hmem hdocument
    rw [Filter.accepts_oneOf hcompiled.isMarked_eq_false, Filter.lookup, hcompiled.splitPath_name,
      Filter.anyAmong_eq_false_of_avoids (fun _ => hcompiled.isValid_of_mem) hscalar
        (hfits _ _ _ hforeign old hold) hdescends.shrinks havoids]
  obtain ⟨operator, argument, target, arrayFilters, rfl, -⟩ :=
    hcompiled.exists_detaches hpolicy hdetach
  exact hleft

/-- No operation that was carried out finds anything afterwards, whatever has followed it. -/
theorem Operation.Executes.passes (hbuilt : Graph.build schema = .ok graph)
    (hkeeps : graph.KeepsKeys) (hhandles : ∀ operation ∈ operations, operation.Handles graph family)
    (hscalar : ∀ name key, family name key → key.isScalar) (hnames : before.NamesOnce)
    (hkeys : before.HasScalarKeys graph) (hfits : before.FitsForeignKeys graph)
    (hrun : Executes operations before after) :
    ∀ operation ∈ operations, operation.Passes after := by
  have hplanned : ∀ operation ∈ operations, operation.IsPlanned graph :=
    fun operation hoperation => (hhandles operation hoperation).isPlanned
  intro operation hoperation
  cases hhandles operation hoperation with
  | delete _ => exact passes_delete hbuilt hkeeps hplanned hnames hkeys hrun hoperation
  | detach hforeign hpolicy hfamily hdetach =>
    exact passes_detach hbuilt hkeeps hplanned hnames hfits hrun hforeign hpolicy
      (fun key hkey => hscalar _ key (hfamily key hkey)) hdetach hoperation

end Passes

end

namespace Collection

section

variable [Platform]

/-- A plan that was interrupted can be run again: when the first operations of a plan have been
carried out, the whole plan still runs to its end and leaves the store that it would have left
without the interruption. -/
theorem exists_execute_of_prefix {schema : Schema} {graph : Graph}
    (hbuilt : Graph.build schema = .ok graph) (hkeeps : graph.KeepsKeys) {session after : Session}
    (hnames : session.store.NamesOnce) (hkeys : session.store.HasScalarKeys graph)
    (hfits : session.store.FitsForeignKeys graph) (name : String) (filter : Json)
    (options : DeleteOptions) (plan : RemovalPlan)
    (hplan : ((graph.collection name).planDelete filter options).answer session = .ok plan)
    (count : Nat) (hruns : plan.execute.runIn session = (.ok count, after))
    (operations : List Operation) (hoperations : operations <+: plan.operations ++ [plan.delete]) :
    ∃ middle, (operations.forM fun operation => do let _ ← operation.execute : Access Unit).runIn
        session = (.ok (), middle) ∧
      ∃ again last, plan.execute.runIn middle = (.ok again, last) ∧ last.store = after.store := by
  have haccounts := accounts_of_answer hbuilt hplan
  have hscalar : ∀ other key, key ∈ plan.deletedKeys.get other → key.isScalar :=
    fun other key hkey => hkeys.isScalar (haccounts.stored other key hkey)
  obtain ⟨hexecutes, hallows⟩ := RemovalPlan.executes_and_allows_of_runIn hruns
  obtain ⟨others, hothers⟩ := hoperations
  rw [← hothers] at hexecutes
  obtain ⟨middle, hfirst, hrest⟩ := Operation.Executes.append_iff.1 hexecutes
  have hmem : ∀ operation ∈ operations, operation ∈ plan.operations ++ [plan.delete] :=
    fun operation hoperation => hothers ▸ List.mem_append_left others hoperation
  obtain ⟨calls, hrun⟩ := hfirst.exists_runIn fun operation hoperation =>
    hallows operation (hmem operation hoperation)
  -- the first operations pass the second time, and the others do what they did the first time
  have hpasses := hfirst.passes hbuilt hkeeps
    (fun operation hoperation => haccounts.handles operation (hmem operation hoperation)) hscalar
    hnames hkeys hfits
  have hagain := (Operation.executes_self hpasses).append hrest
  rw [hothers] at hagain
  let stopped : Session := { session with calls, store := middle }
  have hallowsAgain : stopped.Allows (plan.operations ++ [plan.delete]) := hallows
  obtain ⟨again, more, hresumes⟩ := RemovalPlan.exists_runIn_of_executes hallowsAgain hagain
  exact ⟨stopped, hrun, again, _, hresumes, rfl⟩

end

/-- The shelf when one of the books has been taken out of its rows. -/
def sweptShelf : Json :=
  .object [("_id", .string "s"), ("rows", .array [
    .object [("books", .array [.string "c"])], .object [("books", .array [])]])]

/-- The deletion of a book stops when the book has been taken out of the rows of the shelf, and is
run again. -/
theorem exists_execute_stoppedShelf : ∃ plan, ∃ after middle again last,
    ((shelfSchema.graph.collection "books").planDelete (.single "_id" (.string "b")) {}).answer
      shelfSession = .ok plan ∧ plan.operations.length = 1 ∧
    plan.execute.runIn shelfSession = (.ok 1, after) ∧
    (plan.operations.forM fun operation => do let _ ← operation.execute : Access Unit).runIn
      shelfSession = (.ok (), middle) ∧
    sameItems (middle.store.documents "books")
      [.object [("_id", .string "b")], .object [("_id", .string "c")]] ∧
    sameItems (middle.store.documents "shelves") [sweptShelf] ∧
    plan.execute.runIn middle = (.ok again, last) ∧ last.store = after.store ∧
    sameItems (last.store.documents "books") [.object [("_id", .string "c")]] ∧
    sameItems (last.store.documents "shelves") [sweptShelf] := by
  obtain ⟨hkeeps, hnames, hkeys, hfits⟩ := shelfSession_fits
  have hplans : (((shelfSchema.graph.collection "books").planDelete (.single "_id" (.string "b"))
      {}).answer shelfSession).toOption.any fun plan =>
        let stopped := (plan.operations.forM fun operation => do
          let _ ← operation.execute : Access Unit).runIn shelfSession
        let run := plan.execute.runIn shelfSession
        plan.operations.length = 1 ∧ plan.execute.result? shelfSession = some 1 ∧
          sameItems (stopped.2.store.documents "books")
            [.object [("_id", .string "b")], .object [("_id", .string "c")]] ∧
          sameItems (stopped.2.store.documents "shelves") [sweptShelf] ∧
          sameItems (run.2.store.documents "books") [.object [("_id", .string "c")]] ∧
          sameItems (run.2.store.documents "shelves") [sweptShelf] := by
    decide +kernel
  obtain ⟨plan, hplan, hall⟩ := exists_of_any_toOption hplans
  obtain ⟨hlength, hresult, hstopped⟩ := of_decide_eq_true hall
  obtain ⟨after, hruns⟩ := Access.exists_runIn_of_result? hresult
  obtain ⟨middle, hstops, again, last, hagain, hstore⟩ := exists_execute_of_prefix
    (shelfSchema.build_graph rfl) hkeeps hnames hkeys hfits "books" (.single "_id" (.string "b")) {}
    plan hplan 1 hruns plan.operations (List.prefix_append _ _)
  rw [hstops, hruns] at hstopped
  obtain ⟨hbooks, hshelves, hlastBooks, hlastShelves⟩ := hstopped
  exact ⟨plan, after, middle, again, last, hplan, hlength, hruns, hstops, hbooks, hshelves, hagain,
    hstore, hstore ▸ hlastBooks, hstore ▸ hlastShelves⟩

end Collection

end LinkedDocs
