import LinkedDocs.Platform.Native
import LinkedDocs.Proofs.Removal.Cutting
import LinkedDocs.Proofs.Removal.Scheduling

/-!
Plans in another order. The operations of a plan are cuts of the stored documents, and cuts commute;
so where the documents fit the foreign keys that update them, the order in which the operations were
scheduled makes no difference to what is stored afterwards, but for the order of the fields.
-/

namespace LinkedDocs

open Json

/-- Cuts of the documents of a store commute if those of one collection agree. -/
theorem Cut.applyIn_comm {first second : Cut} (hfirst : first.WellFormed)
    (hsecond : second.WellFormed) {collection other : String}
    (hagrees : collection = other → first.Agrees second) (contents : String → List Content) :
    second.applyIn other (first.applyIn collection contents) =
      first.applyIn collection (second.applyIn other contents) := by
  funext name
  unfold applyIn
  by_cases hname : name = collection
  case neg => rw [if_neg hname, if_neg hname]
  case pos =>
    by_cases hother : name = other
    case neg => rw [if_neg hother, if_neg hother]
    case pos =>
      have hcomm := apply_comm hfirst hsecond (hagrees (hname.symm.trans hother))
      rw [if_pos hname, if_pos hname, if_pos hother, if_pos hother, List.filterMap_filterMap,
        List.filterMap_filterMap, funext hcomm]

section Run

variable {schema : Schema} {graph : Graph} {origin before after : Store}
  {family : String → Json → Prop} {operations : List Operation}

theorem Store.HasScalarKeys.hasNoNullKeys (h : origin.HasScalarKeys graph) :
    origin.HasNoNullKeys graph := by
  intro name document hdocument
  have hscalar := h name document hdocument
  cases hkey : (graph.collection name).keyOf? document with
  | none => rfl
  | some key =>
    rw [hkey] at hscalar
    simpa using isNull_eq_false_of_isScalar hscalar

variable [Platform]

theorem Store.Ready.of_turnsInto (hbuilt : Graph.build schema = .ok graph)
    (hkeeps : graph.KeepsKeys) (horigin : origin.HasScalarKeys graph)
    (hstored : ∀ name key, family name key → (name, key) ∈ storedPairs graph origin)
    {operation : Operation} (hhandles : operation.Handles graph family)
    (hready : before.Ready graph) (hturns : operation.TurnsInto before after) :
    after.Ready graph := by
  obtain ⟨hnames, hfits⟩ := Operation.fitsUpdates_of_turnsInto hbuilt horigin.hasNoNullKeys
    (hhandles.isScheduled hstored) hready.names hready.fits hturns
  have hdescends :=
    Operation.descends_of_turnsInto hbuilt hkeeps hhandles.isPlanned hready.names hturns
  refine ⟨hnames, fun name document hdocument => ?_, hfits⟩
  obtain ⟨old, hold, hdescended⟩ := hdescends name document hdocument
  rw [hdescended.keyOf?_eq]
  exact hready.keys name old hold

/-- A run makes of the contents of a store what the cuts of its operations make of them, one after
the other. -/
theorem Operation.Executes.contents_eq (hbuilt : Graph.build schema = .ok graph)
    (hkeeps : graph.KeepsKeys) (horigin : origin.HasScalarKeys graph)
    (hstored : ∀ name key, family name key → (name, key) ∈ storedPairs graph origin)
    (hhandles : ∀ operation ∈ operations, operation.Handles graph family)
    {collection : Operation → String} {cut : Operation → Cut}
    (hcuts : ∀ operation ∈ operations, operation.Cuts graph (collection operation) (cut operation))
    (hready : before.Ready graph) (hrun : Executes operations before after) :
    after.contents = operations.foldl
      (fun contents operation => (cut operation).applyIn (collection operation) contents)
      before.contents := by
  induction hrun with
  | nil => rfl
  | cons hfirst _ ih =>
    obtain ⟨hhandlesFirst, hhandlesRest⟩ := List.forall_mem_cons.1 hhandles
    obtain ⟨hcutFirst, hcutsRest⟩ := List.forall_mem_cons.1 hcuts
    have hmiddle := hready.of_turnsInto hbuilt hkeeps horigin hstored hhandlesFirst hfirst
    rw [ih hhandlesRest hcutsRest hmiddle, hcutFirst.contents_eq hbuilt hready hfirst,
      List.foldl_cons]

/-- Operations that are carried out in two orders leave the same contents. -/
theorem Operation.Executes.contents_eq_of_perm (hbuilt : Graph.build schema = .ok graph)
    (hkeeps : graph.KeepsKeys) (hready : before.Ready graph)
    (hstored : ∀ name key, family name key → (name, key) ∈ storedPairs graph before)
    (hhandles : ∀ operation ∈ operations, operation.Handles graph family) {others : List Operation}
    (hperm : others.Perm operations) (hrun : Executes operations before after) {otherAfter : Store}
    (hother : Executes others before otherAfter) : otherAfter.contents = after.contents := by
  have hexists : ∀ operation ∈ operations, ∃ collection cut,
      operation.Cuts graph collection cut := by
    intro operation hoperation
    exact (hhandles operation hoperation).exists_cuts fun name key hkey =>
      hready.keys.isScalar (hstored name key hkey)
  choose! collection cut hcuts using hexists
  have hmem : ∀ operation ∈ others, operation ∈ operations :=
    fun operation => hperm.mem_iff.1
  rw [hrun.contents_eq hbuilt hkeeps hready.keys hstored hhandles hcuts hready,
    hother.contents_eq hbuilt hkeeps hready.keys hstored
      (fun operation hoperation => hhandles operation (hmem operation hoperation))
      (fun operation hoperation => hcuts operation (hmem operation hoperation)) hready]
  refine hperm.foldl_eq' (fun first hfirst second hsecond contents => ?_) _
  have hfirstCuts := hcuts first (hmem first hfirst)
  have hsecondCuts := hcuts second (hmem second hsecond)
  refine Cut.applyIn_comm (hfirstCuts.wellFormed hbuilt) (hsecondCuts.wellFormed hbuilt)
    (fun hsame => ?_) contents
  rw [← hsame] at hsecondCuts
  exact hfirstCuts.agrees hbuilt hkeeps hsecondCuts

end Run

namespace Collection

section

variable [Platform]

/-- On documents that fit the foreign keys that update them, the operations of a plan may be carried
out in any order: whenever the plan and the reordered plan are both carried out, they leave the same
contents. Both are if no update reaches the id of a document and the store refuses nothing. -/
theorem contents_eq_of_reordered {schema : Schema} {graph : Graph}
    (hbuilt : Graph.build schema = .ok graph) (hkeeps : graph.KeepsKeys) {session : Session}
    (hnames : session.store.NamesOnce) (hkeys : session.store.HasScalarKeys graph)
    (hfits : session.store.FitsUpdates graph) (name : String) (filter : Json)
    (options : DeleteOptions) (plan : RemovalPlan)
    (hplan : ((graph.collection name).planDelete filter options).answer session = .ok plan)
    (operations : List Operation) (hperm : operations.Perm plan.operations) :
    (∀ count after again other, plan.execute.runIn session = (.ok count, after) →
      { plan with operations }.execute.runIn session = (.ok again, other) →
      ∀ collection, other.store.contents collection = after.store.contents collection) ∧
    (graph.KeepsIds → session.refused = [] →
      (∃ count after, plan.execute.runIn session = (.ok count, after)) ∧
        ∃ again other, { plan with operations }.execute.runIn session = (.ok again, other)) := by
  have haccounts := accounts_of_answer hbuilt hplan
  have hready : session.store.Ready graph := ⟨hnames, hkeys, hfits⟩
  have hwhole : (operations ++ [plan.delete]).Perm (plan.operations ++ [plan.delete]) :=
    hperm.append_right _
  refine ⟨fun count after again other hruns hother collection => ?_, fun hids hrefused => ?_⟩
  · have hsame := (RemovalPlan.executes_of_runIn hruns).contents_eq_of_perm hbuilt hkeeps hready
      haccounts.stored haccounts.handles hwhole (RemovalPlan.executes_of_runIn hother)
    rw [hsame]
  · have hscheduled := isScheduled_of_answer hbuilt hplan
    have hnonnull := hkeys.hasNoNullKeys
    refine ⟨RemovalPlan.exists_runIn hbuilt hids hrefused hnames hnonnull hfits hscheduled, ?_⟩
    refine RemovalPlan.exists_runIn hbuilt hids hrefused hnames hnonnull hfits ?_
    exact fun operation hoperation => hscheduled operation (hwhole.mem_iff.1 hoperation)

end

/-- Shelves with rows of books, which belong to the person that owns the row. -/
def ownedSchema : Schema where
  collections := .ofList [("shelves", { foreignKeys := .ofList [
    ("rows.$.books.$.author", { collection := some "people", onDelete := some .nullify }),
    ("rows.$.owner", { collection := some "people", onDelete := some .pull })] })]

/-- A shelf with a row that a person owns, who is also the author of a book in it. -/
def ownedSession (lastRow : Json) : Session where
  store := { collections := .ofList [
    ("people", [.object [("_id", .string "p")]]),
    ("shelves", [.object [("_id", .string "s"), ("rows", .array [
      .object [("owner", .string "p"), ("books", .array [.object [("author", .string "p")]])],
      lastRow])]])] }

theorem keepsKeys_ownedGraph : ownedSchema.graph.KeepsKeys := by
  refine Graph.forall_foreignKeys ?_
  decide

/-- Whether a shelf has an author that became null in an object that no shelf had before. -/
def makesUpAuthor (contents : List Content) : Bool :=
  contents.any (Content.holdsAt [.null] ["rows", "$", "books", "$[f]", "author"])

/-- Where the last row has an empty list of books, the row may leave the shelf before or after the
author of its book becomes null. -/
theorem contents_eq_of_reverse : ∃ plan, ∃ after other : Session,
    ((ownedSchema.graph.collection "people").planDelete (.single "_id" (.string "p")) {}).answer
      (ownedSession (.object [("books", .array [])])) = .ok plan ∧ plan.operations.length = 2 ∧
    (∃ count, plan.execute.runIn (ownedSession (.object [("books", .array [])])) =
      (.ok count, after)) ∧
    (∃ again, { plan with operations := plan.operations.reverse }.execute.runIn
      (ownedSession (.object [("books", .array [])])) = (.ok again, other)) ∧
    ∀ collection, other.store.contents collection = after.store.contents collection := by
  have hids : ownedSchema.graph.KeepsIds := by
    refine Graph.forall_foreignKeys ?_
    decide
  have hnames : (ownedSession (.object [("books", .array [])])).store.NamesOnce := by
    refine Store.forall_documents ?_
    decide
  have hkeys : (ownedSession (.object [("books", .array [])])).store.HasScalarKeys
      ownedSchema.graph := by
    refine Store.forall_documents ?_
    decide
  have hfits : (ownedSession (.object [("books", .array [])])).store.FitsUpdates
      ownedSchema.graph := by
    refine Graph.forall_foreignKeys ?_
    decide
  have hplans : (((ownedSchema.graph.collection "people").planDelete (.single "_id" (.string "p"))
      {}).answer (ownedSession (.object [("books", .array [])]))).toOption.any
        fun plan => plan.operations.length = 2 := by decide +kernel
  obtain ⟨plan, hplan, hlength⟩ := exists_of_any_toOption hplans
  obtain ⟨hsame, hruns⟩ := contents_eq_of_reordered (ownedSchema.build_graph rfl)
    keepsKeys_ownedGraph hnames hkeys hfits "people" (.single "_id" (.string "p")) {} plan hplan
    plan.operations.reverse
    (List.reverse_perm _)
  obtain ⟨⟨count, after, hafter⟩, again, other, hother⟩ := hruns hids rfl
  exact ⟨plan, after, other, hplan, of_decide_eq_true hlength, ⟨count, hafter⟩, ⟨again, hother⟩,
    hsame count after again other hafter hother⟩

/-- A row without books fits as well, but gets an object in place of an array of books when the
author of the other row becomes null, and only then; once the other row has left the shelf, no
document has the author any more. -/
theorem contents_ne_of_reverse : ∃ plan, ∃ after other : Session,
    ((ownedSchema.graph.collection "people").planDelete (.single "_id" (.string "p")) {}).answer
      (ownedSession (.object [])) = .ok plan ∧
    plan.execute.runIn (ownedSession (.object [])) = (.ok 1, after) ∧
    { plan with operations := plan.operations.reverse }.execute.runIn (ownedSession (.object [])) =
      (.ok 1, other) ∧
    other.store.contents "shelves" ≠ after.store.contents "shelves" ∧
    ownedSchema.graph.KeepsKeys ∧
    (ownedSession (.object [])).store.HasScalarKeys ownedSchema.graph ∧
    (ownedSession (.object [])).store.FitsForeignKeys ownedSchema.graph := by
  have hkeys : (ownedSession (.object [])).store.HasScalarKeys ownedSchema.graph := by
    refine Store.forall_documents ?_
    decide
  have hfits : (ownedSession (.object [])).store.FitsForeignKeys ownedSchema.graph := by
    refine Graph.forall_foreignKeys ?_
    decide
  have hdiffers : (((ownedSchema.graph.collection "people").planDelete (.single "_id" (.string "p"))
      {}).answer (ownedSession (.object []))).toOption.any fun plan =>
        plan.execute.result? (ownedSession (.object [])) = some 1 ∧
        { plan with operations := plan.operations.reverse }.execute.result?
          (ownedSession (.object [])) = some 1 ∧
        makesUpAuthor ((plan.execute.runIn (ownedSession (.object []))).2.store.contents
          "shelves") = true ∧
        makesUpAuthor (({ plan with operations := plan.operations.reverse }.execute.runIn
          (ownedSession (.object []))).2.store.contents "shelves") = false := by decide +kernel
  obtain ⟨plan, hplan, hruns⟩ := exists_of_any_toOption hdiffers
  obtain ⟨hresult, hother, hnull, hnone⟩ := of_decide_eq_true hruns
  obtain ⟨after, hafter⟩ := Access.exists_runIn_of_result? hresult
  obtain ⟨last, hlast⟩ := Access.exists_runIn_of_result? hother
  rw [hafter] at hnull
  rw [hlast] at hnone
  refine ⟨plan, after, last, hplan, hafter, hlast, fun hsame => ?_, keepsKeys_ownedGraph, hkeys, hfits⟩
  rw [hsame, hnull] at hnone
  cases hnone

end Collection

end LinkedDocs
