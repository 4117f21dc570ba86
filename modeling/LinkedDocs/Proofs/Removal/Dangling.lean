import LinkedDocs.Platform.Native
import LinkedDocs.Proofs.Removal.Execution

/-!
After a delete nothing refers to the deleted keys. What a plan settles on the store that it was
made for stays settled while it runs: documents that did not hold a deleted key never get one,
those whose keys are listed are gone, and those that are detached hold none of the keys from then
on.
-/

namespace LinkedDocs

open Json

section

variable [Platform]

namespace Collection

variable {schema : Schema} {graph : Graph} {session : Session}

/-- What a plan has done, whether or not its filter query could be evaluated on all documents. -/
theorem advances_of_answer (hbuilt : Graph.build schema = .ok graph) {name : String}
    {filter : Json} {single : Bool} {plan : RemovalPlan}
    (hplan : ((graph.collection name).planNormalized filter ⟨true, single⟩).answer session =
      .ok plan) :
    Advances graph session.store (fun name key => (name, key) ∈ storedPairs graph session.store) {}
      ⟨plan.operations ++ [plan.delete], plan.deletedKeys⟩ := by
  have hclosed : ClosedUnderCascade graph session.store
      (fun name key => (name, key) ∈ storedPairs graph session.store) :=
    fun _ _ _ _ _ _ _ _ _ _ _ hmem _ hfound => mem_storedPairs hmem hfound
  have houtcome := outcome_of_answer hplan
  cases hanswer : ((graph.collection name).storedKeys filter
      (if single then some 1 else none)).answer session with
  | error error =>
    have hfails : (planFrom ⟨true, single⟩ (session.store.collections.values.flatten.length + 1)
        (graph.collection name) filter single).Meets session {} (fun _ _ => False) fun _ => True :=
      meets_planFrom_of_error hanswer trivial
    unfold Planning.Meets at hfails
    rw [houtcome] at hfails
    exact hfails.elim
  | ok found =>
    have hstored := mem_storedPairs_of_answer hbuilt hanswer
    have hmeets : (planFrom ⟨true, single⟩ (session.store.collections.values.flatten.length + 1)
        (graph.collection name) filter single).Meets session {}
        (fun operation after => Advances graph session.store
          (fun name key => (name, key) ∈ storedPairs graph session.store) {} (after.push operation) ∧
          ∀ key ∈ found, holds (after.marked name) key)
        (FailsByRejection graph session
          (fun name key => (name, key) ∈ storedPairs graph session.store)) :=
      meets_planFrom_found hbuilt hclosed rfl (fun less _ => walksCascade hbuilt hclosed rfl less) rfl
        hanswer hstored hstored (Nat.le_succ_of_le (unmarked_empty_le graph session.store))
    unfold Planning.Meets at hmeets
    rw [houtcome] at hmeets
    exact hmeets.1

end Collection

/-- Every marked key is listed, up to its value, in a delete of its collection. -/
theorem Advances.exists_listed {schema : Schema} {graph : Graph}
    (hbuilt : Graph.build schema = .ok graph) {store : Store} {family : String → Json → Prop}
    {draft : RemovalDraft} (h : Advances graph store family {} draft) {name : String} {key : Json}
    (hkey : key ∈ draft.marked name) :
    ∃ keys, .delete name ((graph.collection name).keysQuery keys) ∈ draft.operations ∧
      holds keys key := by
  have hmarked : 0 < (draft.marked name).countP fun listed => listed.sameValue key :=
    List.countP_pos_iff.2 ⟨key, hkey, sameValue_refl key⟩
  have hbalanced := h.balanced name fun listed => listed.sameValue key
  change 0 + _ = _ + 0 at hbalanced
  rw [Nat.zero_add, Nat.add_zero] at hbalanced
  rw [hbalanced] at hmarked
  obtain ⟨listed, hlisted, hsame⟩ := List.countP_pos_iff.1 hmarked
  obtain ⟨operation, hoperation, hlists⟩ := List.mem_flatMap.1 hlisted
  obtain ⟨keys, rfl, hmem⟩ := Collection.exists_eq_delete_of_mem_listedKeys hbuilt
    ((h.planned operation hoperation).resolve_left List.not_mem_nil) hlists
  exact ⟨keys, hoperation, holds_iff.2 ⟨listed, hmem, hsame⟩⟩

/-- Whether the key of every document of a store is a string, a number or a boolean. -/
def Store.HasScalarKeys (graph : Graph) (store : Store) : Prop :=
  ∀ name, ∀ document ∈ store.documents name,
    ((graph.collection name).keyOf? document).any isScalar

omit [Platform] in
theorem Store.HasScalarKeys.isScalar {graph : Graph} {store : Store} (h : store.HasScalarKeys graph)
    {name : String} {key : Json} (hkey : (name, key) ∈ storedPairs graph store) : key.isScalar := by
  obtain ⟨document, hdocument, hkeyOf⟩ := exists_of_mem_storedPairs hkey
  have hscalar := h name document hdocument
  rwa [hkeyOf] at hscalar

/-- Whether every document of a store has the shape that its foreign keys ask for. -/
def Store.FitsForeignKeys (graph : Graph) (store : Store) : Prop :=
  ∀ referencing name foreignKey,
    (graph.links referencing).foreignKeys.get? name = some foreignKey →
      ∀ document ∈ store.documents referencing, document.fits foreignKey.path

section Run

variable {schema : Schema} {graph : Graph} {before after : Store} {operations : List Operation}
  {referencing name : String} {foreignKey : ForeignKey} {keys : List Json}

/-- Documents whose key is listed in a delete that is carried out are gone. -/
theorem not_holds_of_delete (hbuilt : Graph.build schema = .ok graph) (hkeeps : graph.KeepsKeys)
    (hplanned : ∀ operation ∈ operations, operation.IsPlanned graph) (hnames : before.NamesOnce)
    (hrun : Operation.Executes operations before after)
    (hdelete : .delete name ((graph.collection name).keysQuery keys) ∈ operations) {document : Json}
    (hdocument : document ∈ after.documents name) {key : Json}
    (hkey : (graph.collection name).keyOf? document = some key) : ¬holds keys key := by
  obtain ⟨earlier, later, previous, next, rfl, hearlier, hturns, hlater⟩ :=
    hrun.exists_of_mem hdelete
  obtain ⟨hplannedEarlier, hplannedRest⟩ := List.forall_mem_append.1 hplanned
  obtain ⟨hplannedDelete, hplannedLater⟩ := List.forall_mem_cons.1 hplannedRest
  have hprevious := (hearlier.descends hbuilt hkeeps hplannedEarlier hnames).namesOnce
  have hnext :=
    (Operation.descends_of_turnsInto hbuilt hkeeps hplannedDelete hprevious hturns).namesOnce
  obtain ⟨old, hold, hdescends⟩ :=
    hlater.descends hbuilt hkeeps hplannedLater hnext name document hdocument
  obtain ⟨count, hdeleted⟩ := hturns
  have hrefused := (Store.mem_documents_deleteMany hdeleted name old hold).2 rfl
  rw [hdescends.keyOf?_eq] at hkey
  intro hholds
  rw [accepts_keysQuery hbuilt hkey hholds] at hrefused
  cases hrefused

/-- Documents that are detached from keys at a foreign key do not hold them afterwards. -/
theorem avoids_of_detach (hbuilt : Graph.build schema = .ok graph) (hkeeps : graph.KeepsKeys)
    (hplanned : ∀ operation ∈ operations, operation.IsPlanned graph) (hnames : before.NamesOnce)
    (hfits : before.FitsForeignKeys graph) (hrun : Operation.Executes operations before after)
    (hforeign : (graph.links referencing).foreignKeys.get? name = some foreignKey)
    (hpolicy : foreignKey.onDelete ≠ .bypass ∧ foreignKey.onDelete ≠ .reject ∧
      foreignKey.onDelete ≠ .delete) {operation : Operation}
    (hdetach : foreignKey.detach referencing name (.single name (.oneOf keys)) keys = .ok operation)
    (hmem : operation ∈ operations) {document : Json}
    (hdocument : document ∈ after.documents referencing) :
    document.Avoids keys foreignKey.path := by
  have hcompiled := Graph.compiled hbuilt hforeign
  obtain ⟨earlier, later, previous, next, rfl, hearlier, hturns, hlater⟩ := hrun.exists_of_mem hmem
  obtain ⟨hplannedEarlier, hplannedRest⟩ := List.forall_mem_append.1 hplanned
  obtain ⟨hplannedUpdate, hplannedLater⟩ := List.forall_mem_cons.1 hplannedRest
  have hbefore := hearlier.descends hbuilt hkeeps hplannedEarlier hnames
  have hnext := (Operation.descends_of_turnsInto hbuilt hkeeps hplannedUpdate hbefore.namesOnce
    hturns).namesOnce
  obtain ⟨new, hnew, hlaterDescends⟩ :=
    hlater.descends hbuilt hkeeps hplannedLater hnext referencing document hdocument
  refine hlaterDescends.shrinks.avoids ?_
  obtain ⟨operator, argument, target, arrayFilters, rfl, hdetaches⟩ :=
    hcompiled.exists_detaches hpolicy hdetach
  obtain ⟨count, hupdate⟩ := hturns
  obtain ⟨old, hold, ⟨hne, -⟩ | ⟨-, result, hresult, rfl⟩⟩ :=
    Store.mem_documents_update rfl hupdate referencing new hnew
  · exact absurd rfl hne
  · have hapart := hkeeps.head?_ne hforeign hpolicy
    obtain ⟨-, ⟨hfalse, hsame⟩ | havoids⟩ :=
      hdetaches.afterUpdate hbuilt hapart (hbefore.namesOnce referencing old hold) hresult
    · -- a document that does not match holds none of the keys in the first place
      obtain ⟨first, hfirst, hdescends⟩ := hbefore referencing old hold
      have hflat := hdescends.shrinks.flat (flat_of_fits (hfits _ _ _ hforeign first hfirst))
      rw [hsame]
      intro found hfound hscalar key hkey hvalue
      have hany := Filter.anyAmong_of_compiled hcompiled hfound hflat hkey hvalue
      rw [Filter.accepts_oneOf hcompiled.isMarked_eq_false, Except.ok.injEq, hany] at hfalse
      cases hfalse
    · exact havoids

/-- Once the operations of a draft have been carried out, nothing refers to the keys
marked in it. -/
theorem Advances.not_sameValue_marked (hbuilt : Graph.build schema = .ok graph)
    (hkeeps : graph.KeepsKeys) (hnames : before.NamesOnce) (hkeys : before.HasScalarKeys graph)
    (hfits : before.FitsForeignKeys graph) {draft : RemovalDraft}
    (h : Advances graph before (fun name key => (name, key) ∈ storedPairs graph before) {} draft)
    (hrun : Operation.Executes draft.operations before after)
    (hforeign : (graph.links referencing).foreignKeys.get? name = some foreignKey)
    (hpolicy : foreignKey.onDelete ≠ .bypass) {document : Json}
    (hdocument : document ∈ after.documents referencing) {value : Json}
    (hvalue : value ∈ document.valuesAt foreignKey.path) {key : Json}
    (hkey : key ∈ draft.marked foreignKey.collection) : ¬value.sameValue key := by
  intro hsame
  have hcompiled := Graph.compiled hbuilt hforeign
  have hname := hcompiled.isMarked_eq_false
  have hplanned : ∀ operation ∈ draft.operations, operation.IsPlanned graph :=
    fun operation hoperation => (h.planned operation hoperation).resolve_left List.not_mem_nil
  have hscalar : value.isScalar := isScalar_of_sameValue hsame
    (hkeys.isScalar ((h.sound _ key hkey).resolve_left List.not_mem_nil))
  -- the document held the key already in the store that the plan was made for
  obtain ⟨old, hold, hdescends⟩ :=
    hrun.descends hbuilt hkeeps hplanned hnames referencing document hdocument
  have hflat := flat_of_fits (hfits _ _ _ hforeign old hold)
  have hreaches : document.Reaches foreignKey.path value :=
    reaches_of_mem_valuesAt (fun _ => (hdescends.shrinks.flat hflat).isArray_eq_false) hvalue
  obtain ⟨keys, hmem, hsettled⟩ := (h.settled _ key hkey).resolve_left List.not_mem_nil
    referencing name foreignKey hforeign rfl hpolicy
  have hreferring : old ∈ referringDocuments before referencing name keys :=
    (Filter.mem_matching_oneOf_iff hname).2 ⟨hold, Filter.anyAmong_of_compiled hcompiled
      (hdescends.shrinks.scalar hreaches hscalar) hflat hmem hsame⟩
  cases hsettled with
  | unreferenced hnone =>
    rw [hnone] at hreferring
    cases hreferring
  | cascaded _ hmarked =>
    have hownScalar := hkeys referencing old hold
    cases hown : (graph.collection referencing).keyOf? old with
    | none =>
      rw [hown] at hownScalar
      cases hownScalar
    | some own =>
      obtain ⟨marked, hmarkedKey, hmarkedSame⟩ := holds_iff.1 (hmarked old hreferring own hown)
      obtain ⟨listed, hlisted, hholds⟩ := h.exists_listed hbuilt hmarkedKey
      rw [holds_congr hmarkedSame] at hholds
      exact not_holds_of_delete hbuilt hkeeps hplanned hnames hrun hlisted hdocument
        (hdescends.keyOf?_eq.trans hown) hholds
  | detached hdetachPolicy hdetach hoperation =>
    exact avoids_of_detach hbuilt hkeeps hplanned hnames hfits hrun hforeign hdetachPolicy hdetach
      hoperation hdocument value hreaches hscalar key hmem hsame

end Run

end

namespace Collection

section

variable [Platform]

/-- After a delete that follows the delete policies no document refers to a deleted key, in any
foreign key that is not bypassed. -/
theorem not_sameValue_deletedKeys_of_delete {schema : Schema} {graph : Graph}
    (hbuilt : Graph.build schema = .ok graph) (hkeeps : graph.KeepsKeys) {session after : Session}
    (hnames : session.store.NamesOnce) (hkeys : session.store.HasScalarKeys graph)
    (hfits : session.store.FitsForeignKeys graph) (name : String) (filter : Json) (single : Bool)
    (count : Nat)
    (hdeleted : ((graph.collection name).delete filter ⟨true, single⟩).runIn session =
      (.ok count, after)) :
    ∃ plan, ((graph.collection name).planDelete filter ⟨true, single⟩).answer session = .ok plan ∧
      ∀ referencing foreignName foreignKey,
        (graph.links referencing).foreignKeys.get? foreignName = some foreignKey →
        foreignKey.onDelete ≠ .bypass →
        ∀ document ∈ after.store.documents referencing,
          ∀ value ∈ document.valuesAt foreignKey.path,
            ∀ key ∈ plan.deletedKeys.get foreignKey.collection, ¬value.sameValue key := by
  obtain ⟨plan, middle, hplan, hrun⟩ := Access.runIn_bind_eq_ok hdeleted
  have hanswer : ((graph.collection name).planDelete filter ⟨true, single⟩).answer session =
      .ok plan := congrArg Prod.fst hplan
  have hstore := (reads_planDelete (graph.collection name) filter ⟨true, single⟩).store_runIn session
  rw [hplan] at hstore
  have hexecutes := RemovalPlan.executes_of_runIn hrun
  rw [hstore] at hexecutes
  refine ⟨plan, hanswer, ?_⟩
  rw [planDelete, (reads_normalize _ filter).answer_bind fun _ => reads_planNormalized _ _ _]
    at hanswer
  obtain ⟨normalized, -, hnormalized⟩ := bind_eq_ok_iff.1 hanswer
  intro referencing foreignName foreignKey hforeign hpolicy document hdocument value hvalue key hkey
  exact (advances_of_answer hbuilt hnormalized).not_sameValue_marked hbuilt hkeeps hnames hkeys hfits
    hexecutes hforeign hpolicy hdocument hvalue hkey

end

/-- Shelves with books in their rows. -/
def shelfSchema : Schema where
  collections := .ofList [("shelves", { foreignKeys := .ofList [
    ("rows.$.books.$", { collection := some "books", onDelete := some .pull })] })]

def shelfSession : Session where
  store := { collections := .ofList [
    ("books", [.object [("_id", .string "b")], .object [("_id", .string "c")]]),
    ("shelves", [.object [("_id", .string "s"), ("rows", .array [
      .object [("books", .array [.string "b", .string "c"])],
      .object [("books", .array [.string "b"])]])]])] }

theorem shelfSession_fits : shelfSchema.graph.KeepsKeys ∧ shelfSession.store.NamesOnce ∧
    shelfSession.store.HasScalarKeys shelfSchema.graph ∧
    shelfSession.store.FitsForeignKeys shelfSchema.graph := by
  refine ⟨Graph.forall_foreignKeys ?keeps, Store.forall_documents ?names,
    Store.forall_documents ?keys, Graph.forall_foreignKeys ?fits⟩
  case keeps => decide
  case names => decide
  case keys => decide
  case fits => decide

/-- The book is deleted, and no row of the shelf holds it afterwards. -/
theorem not_sameValue_deletedBook : ∃ plan,
    ((shelfSchema.graph.collection "books").planDelete (.single "_id" (.string "b"))
      ⟨true, false⟩).answer shelfSession = .ok plan ∧
    holds (plan.deletedKeys.get "books") (.string "b") ∧
    ∀ document ∈ ((((shelfSchema.graph.collection "books").delete (.single "_id" (.string "b"))
        ⟨true, false⟩).runIn shelfSession).2.store.documents "shelves"),
      ∀ value ∈ document.valuesAt ["rows", "$", "books", "$"],
        ∀ key ∈ plan.deletedKeys.get "books", ¬value.sameValue key := by
  have hkeeps : shelfSchema.graph.KeepsKeys := by
    refine Graph.forall_foreignKeys ?_
    decide
  have hnames : shelfSession.store.NamesOnce := by
    refine Store.forall_documents ?_
    decide
  have hkeys : shelfSession.store.HasScalarKeys shelfSchema.graph := by
    refine Store.forall_documents ?_
    decide
  have hfits : shelfSession.store.FitsForeignKeys shelfSchema.graph := by
    refine Graph.forall_foreignKeys ?_
    decide
  have hsucceeds : (((shelfSchema.graph.collection "books").delete (.single "_id" (.string "b"))
      ⟨true, false⟩).runIn shelfSession).1.toOption.isSome := by decide +kernel
  have hholds : (((shelfSchema.graph.collection "books").planDelete (.single "_id" (.string "b"))
      ⟨true, false⟩).answer shelfSession).toOption.any
        fun plan => holds (plan.deletedKeys.get "books") (.string "b") := by decide +kernel
  cases hrun : ((shelfSchema.graph.collection "books").delete (.single "_id" (.string "b"))
      ⟨true, false⟩).runIn shelfSession with
  | mk result after =>
    rw [hrun] at hsucceeds
    cases result with
    | error => cases hsucceeds
    | ok count =>
      obtain ⟨plan, hplan, hnone⟩ := not_sameValue_deletedKeys_of_delete
        (shelfSchema.build_graph rfl) hkeeps hnames hkeys hfits "books"
        (.single "_id" (.string "b")) false count hrun
      have hforeign : (shelfSchema.graph.links "shelves").foreignKeys.get? "rows.books" =
          some ⟨["rows", "$", "books", "$"], "books", .verify, .pull, some ⟨"rows.$[].books", none⟩⟩ :=
        rfl
      rw [hplan] at hholds
      exact ⟨plan, hplan, hholds, hnone "shelves" "rows.books" _ hforeign DeletePolicy.noConfusion⟩

end Collection

end LinkedDocs
