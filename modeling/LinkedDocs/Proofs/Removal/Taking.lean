import LinkedDocs.Platform.Native
import LinkedDocs.Proofs.Collection.KeyChecks
import LinkedDocs.Proofs.Removal.Counting
import LinkedDocs.Proofs.Removal.Rejection

/-!
Taking a document: the first one that matches is deleted, and returned as it was stored. It is found
three times, first by the query, then as the first key that the plan marks, and last by this key.
Where keys are scalars and no two documents of the collection share one, all three are one document.
-/

namespace LinkedDocs

open Json Access

section

variable [Platform]

/-- Whether a document is the first one among others for which a filter query holds. -/
def Filter.IsFirst (filter : Json) (documents : List Json) (document : Json) : Prop :=
  ∃ earlier later, documents = earlier ++ document :: later ∧
    (∀ other ∈ earlier, accepts other filter = .ok false) ∧ accepts document filter = .ok true

/-- Whether a filter query holds for no document. -/
def Filter.HoldsForNone (filter : Json) (documents : List Json) : Prop :=
  ∀ document ∈ documents, accepts document filter = .ok false

section First

variable {filter first document : Json} {rest documents : List Json}

theorem Filter.isFirst_cons_iff :
    IsFirst filter (first :: rest) document ↔
      (accepts first filter = .ok true ∧ document = first) ∨
        (accepts first filter = .ok false ∧ IsFirst filter rest document) := by
  constructor
  · rintro ⟨_ | ⟨head, earlier⟩, later, heq, hearlier, haccepts⟩
    · cases heq
      exact .inl ⟨haccepts, rfl⟩
    · cases heq
      obtain ⟨hhead, hothers⟩ := List.forall_mem_cons.1 hearlier
      exact .inr ⟨hhead, earlier, later, rfl, hothers, haccepts⟩
  · rintro (⟨haccepts, rfl⟩ | ⟨hfirst, earlier, later, rfl, hearlier, haccepts⟩)
    · exact ⟨[], rest, rfl, fun _ hmem => absurd hmem List.not_mem_nil, haccepts⟩
    · exact ⟨first :: earlier, later, rfl, List.forall_mem_cons.2 ⟨hfirst, hearlier⟩, haccepts⟩

theorem Filter.IsFirst.mem (h : IsFirst filter documents document) : document ∈ documents := by
  obtain ⟨earlier, later, rfl, -⟩ := h
  exact List.mem_append_right _ List.mem_cons_self

/-- A search for one document finds the first match, or nothing when there is none. -/
theorem Store.findIn_one_eq_ok_iff {projection : Option (List String)} {found : List Json} :
    findIn filter projection 0 (some 1) documents = .ok found ↔
      (found = [] ∧ Filter.HoldsForNone filter documents) ∨
        ∃ document, Filter.IsFirst filter documents document ∧
          found = [view projection document] := by
  induction documents with
  | nil =>
    have hnone (document : Json) : ¬Filter.IsFirst filter [] document := fun h =>
      absurd h.mem List.not_mem_nil
    simp [findIn, hnone, Filter.HoldsForNone, eq_comm]
  | cons first rest ih =>
    rw [findIn, if_neg (by decide)]
    simp only [Filter.isFirst_cons_iff, Filter.HoldsForNone, List.forall_mem_cons]
    cases haccepts : Filter.accepts first filter with
    | error fault => simp
    | ok verdict =>
      cases verdict with
      | false => simpa [Filter.HoldsForNone] using ih
      | true =>
        have hothers : findIn filter projection 0 (some 0) rest = .ok [] := by
          cases rest <;> rfl
        simp [hothers, eq_comm]

end First

end

namespace Collection

variable {collection : Collection} {session : Session} {filter : Json}

section

variable [Platform]

/-- When one key is asked for, it is that of the first match. -/
theorem answer_storedKeys_one_eq_ok_iff
    (hvalid : ∀ segment ∈ splitPath collection.key, Identifier.isValid segment)
    {found : List Json} :
    (collection.storedKeys filter (some 1)).answer session = .ok found ↔
      session.refused.contains .find = false ∧
        ((found = [] ∧ Filter.HoldsForNone filter (session.store.documents collection.name)) ∨
          ∃ document, Filter.IsFirst filter (session.store.documents collection.name) document ∧
            found = (collection.keyOf? document).toList) := by
  have hkey (document : Json) :
      [Store.view (some [collection.key]) document].filterMap collection.keyOf? =
        (collection.keyOf? document).toList := by
    have hview : collection.keyOf? (Store.view (some [collection.key]) document) =
        collection.keyOf? document := Projection.getPath?_project hvalid document
    rw [List.filterMap_cons, hview]
    cases collection.keyOf? document <;> rfl
  rw [storedKeys, (Reads.find _ _ _).answer_bind_eq_ok_iff fun _ => .pure _]
  simp only [answer_find, answer_pure, Except.ok.injEq]
  cases session.refused.contains StoreMethod.find with
  | true => simp
  | false =>
    simp only [Bool.false_eq_true, if_false, true_and, Store.find, Store.inCollection,
      mapError_eq_ok_iff, Store.findIn_one_eq_ok_iff]
    constructor
    · rintro ⟨_, ⟨rfl, hnone⟩ | ⟨document, hfirst, rfl⟩, rfl⟩
      · exact .inl ⟨rfl, hnone⟩
      · exact .inr ⟨document, hfirst, hkey document⟩
    · rintro (⟨rfl, hnone⟩ | ⟨document, hfirst, rfl⟩)
      · exact ⟨[], .inl ⟨rfl, hnone⟩, rfl⟩
      · exact ⟨_, .inr ⟨document, hfirst, rfl⟩, hkey document⟩

section Plans

variable {schema : Schema} {graph : Graph} {options : DeleteOptions} {name : String}

/-- A plan marks the keys that it finds first, and then others of the same collection. -/
theorem exists_found_of_answer (hbuilt : Graph.build schema = .ok graph) {plan : RemovalPlan}
    (hplan : ((graph.collection name).planNormalized filter options).answer session = .ok plan) :
    ∃ found, ((graph.collection name).storedKeys filter
        (if options.single then some 1 else none)).answer session = .ok found ∧
      DeletedKeys.freshKeys [] found <+: plan.deletedKeys.get name := by
  obtain ⟨found, hfound, -, hwalks⟩ := levels_of_answer hbuilt hplan
  refine ⟨found, hfound, ?_⟩
  have hprefix := hwalks.prefix_marked name
  rw [marked_mark, if_pos rfl] at hprefix
  exact hprefix

theorem outcome_planFrom_of_storedKeys_eq_nil {fuel : Nat} {single : Bool} {draft : RemovalDraft}
    (hnone : (collection.storedKeys filter (if single then some 1 else none)).answer session =
      .ok []) :
    (planFrom options fuel collection filter single).outcome session draft =
      .ok (.delete collection.name (collection.keysQuery []), draft.mark collection.name []) := by
  have hlast (keys : List Json) : (do
      planReferences options fuel collection keys
      return .delete collection.name (collection.keysQuery keys) : Planning Operation).Reads :=
    .bind (reads_planReferences _ _ _ _) fun _ => .pure _
  rw [planFrom_eq,
    Planning.outcome_bind (.lift (reads_storedKeys _ _ _)) fun _ => .bind (.mark _ _) hlast,
    Planning.outcome_lift (reads_storedKeys _ _ _), hnone, ok_bind, ok_bind,
    Planning.outcome_bind (.mark _ _) hlast]
  change Planning.outcome (do
      planReferences options fuel collection []
      return .delete collection.name (collection.keysQuery []) : Planning Operation) session
    (draft.mark collection.name []) = _
  rw [planReferences_nil]
  rfl

/-- Where nothing is found, nothing is marked. -/
theorem exists_plan_of_storedKeys_eq_nil
    (hnone : (collection.storedKeys filter
      (if options.single then some 1 else none)).answer session = .ok []) :
    ∃ plan, (collection.planNormalized filter options).answer session = .ok plan ∧
      plan.deletedKeys.get collection.name = [] := by
  rw [answer_planNormalized, outcome_planFrom_of_storedKeys_eq_nil hnone, ok_bind]
  refine ⟨_, rfl, ?_⟩
  change (({} : RemovalDraft).mark collection.name []).marked collection.name = []
  rw [marked_mark, if_pos rfl]
  rfl

theorem accepts_keyQuery_of_isScalar (hbuilt : Graph.build schema = .ok graph)
    {document key other : Json} (hkey : (graph.collection name).keyOf? document = some key)
    (hscalar : key.isScalar) (hother : other.isScalar) :
    Filter.accepts document ((graph.collection name).keyQuery other) =
      .ok (other.sameValue key) := by
  have hmarked : isMarked (graph.collection name).key = false := Graph.isMarked_key hbuilt name
  have hkeys := accepts_keysQuery_of_isScalar hbuilt hkey hscalar [other]
  rw [keysQuery, Filter.accepts_oneOf hmarked] at hkeys
  rw [accepts_keyQuery hmarked (isObject_eq_false_of_isScalar hother), hkeys, holds, List.any_cons,
    List.any_nil, Bool.or_false]

/-- Where no two documents share a key, the first one with the key of a document is this document. -/
theorem isFirst_keyQuery (hbuilt : Graph.build schema = .ok graph) {documents : List Json}
    (hkeys : ∀ document ∈ documents, ((graph.collection name).keyOf? document).any isScalar)
    (hunique : (documents.filterMap (graph.collection name).keyOf?).Pairwise Differ)
    {document key : Json} (hmem : document ∈ documents)
    (hkey : (graph.collection name).keyOf? document = some key) :
    Filter.IsFirst ((graph.collection name).keyQuery key) documents document := by
  have hscalar : key.isScalar := by simpa [hkey] using hkeys document hmem
  obtain ⟨earlier, later, rfl⟩ := List.append_of_mem hmem
  refine ⟨earlier, later, rfl, fun other hother => ?_, ?_⟩
  · obtain ⟨otherKey, hotherKey, hotherScalar⟩ :=
      exists_key_of_any (hkeys other (List.mem_append_left _ hother))
    rw [List.filterMap_append, List.pairwise_append] at hunique
    have hdiffer : Differ otherKey key := hunique.2.2 otherKey
      (List.mem_filterMap.2 ⟨other, hother, hotherKey⟩) key
      (List.mem_filterMap.2 ⟨document, List.mem_cons_self, hkey⟩)
    rw [accepts_keyQuery_of_isScalar hbuilt hotherKey hotherScalar hscalar, sameValue_comm]
    exact congrArg Except.ok hdiffer
  · rw [accepts_keyQuery_of_isScalar hbuilt hkey hscalar hscalar, sameValue_refl]

theorem answer_findByKey_of_isFirst {document key : Json}
    (hrefused : session.refused.contains .find = false)
    (hfirst : Filter.IsFirst (collection.keyQuery key) (session.store.documents collection.name)
      document) :
    (collection.findByKey key).answer session = .ok (some document) := by
  rw [findByKey, Access.findOne, (Reads.find _ _ _).answer_bind fun _ => .pure _, answer_find,
    hrefused, if_neg Bool.false_ne_true, Store.find, Store.inCollection,
    Store.findIn_one_eq_ok_iff.2 (.inr ⟨document, hfirst, rfl⟩)]
  rfl

/-- What a run that succeeds has done: it has planned the delete of the first match, and carried the
plan out if it marks a key, by which it has found the document before. -/
theorem exists_plan_of_findOneAndDelete {result : Option Json} {after : Session}
    (h : (collection.findOneAndDelete filter).runIn session = (.ok result, after)) :
    ∃ normalized plan, (collection.normalize filter).answer session = .ok normalized ∧
      (collection.planNormalized normalized { single := true }).answer session = .ok plan ∧
      ((plan.deletedKeys.get collection.name = [] ∧ result = none ∧ after.store = session.store) ∨
        ∃ key, (plan.deletedKeys.get collection.name).head? = some key ∧
          (collection.findByKey key).answer session = .ok result ∧
          Operation.Executes (plan.operations ++ [plan.delete]) session.store after.store) := by
  obtain ⟨normalized, first, hnormalize, h⟩ := runIn_bind_eq_ok h
  obtain ⟨hnormalized, hfirst, hfirstRefused⟩ := (reads_normalize _ _).of_runIn hnormalize
  obtain ⟨plan, second, hplan, h⟩ := runIn_bind_eq_ok h
  have hreads := reads_planNormalized collection normalized { single := true }
  obtain ⟨hplanned, hsecond, hsecondRefused⟩ := hreads.of_runIn hplan
  rw [hreads.answer_congr hfirst hfirstRefused] at hplanned
  -- normalizing and planning only read, so all three steps answer as the session that was given
  rw [hfirst] at hsecond
  rw [hfirstRefused] at hsecondRefused
  refine ⟨normalized, plan, hnormalized, hplanned, ?_⟩
  cases hhead : (plan.deletedKeys.get collection.name).head? with
  | none =>
    rw [hhead] at h
    cases h
    exact .inl ⟨List.head?_eq_none_iff.1 hhead, rfl, hsecond⟩
  | some key =>
    rw [hhead] at h
    obtain ⟨document, third, hfind, h⟩ := runIn_bind_eq_ok h
    have hfindReads : (collection.findByKey key).Reads := .findOne _ _
    obtain ⟨hfound, hthird, -⟩ := hfindReads.of_runIn hfind
    rw [hfindReads.answer_congr hsecond hsecondRefused] at hfound
    obtain ⟨count, fourth, hexecute, h⟩ := runIn_bind_eq_ok h
    cases h
    have hexecutes := RemovalPlan.executes_of_runIn hexecute
    rw [hthird, hsecond] at hexecutes
    exact .inr ⟨key, rfl, hfound, hexecutes⟩

/-- A run whose plan marks no key returns nothing. -/
theorem answer_findOneAndDelete_of_nil {normalized : Json} {plan : RemovalPlan}
    (hnormalized : (collection.normalize filter).answer session = .ok normalized)
    (hplan : (collection.planNormalized normalized { single := true }).answer session = .ok plan)
    (hnone : plan.deletedKeys.get collection.name = []) :
    (collection.findOneAndDelete filter).answer session = .ok none := by
  obtain ⟨calls, hnormalize⟩ := (reads_normalize _ _).exists_runIn_of_answer hnormalized
  have hreads := reads_planNormalized collection normalized { single := true }
  have hsame : (collection.planNormalized normalized { single := true }).answer
      { session with calls } =
        (collection.planNormalized normalized { single := true }).answer session :=
    hreads.answer_congr rfl rfl
  obtain ⟨more, hrun⟩ := hreads.exists_runIn_of_answer (hsame.trans hplan)
  rw [answer, findOneAndDelete, runIn_bind, hnormalize]
  dsimp only
  rw [takeOne, runIn_bind, hrun]
  dsimp only
  rw [hnone]
  rfl

/-- The first key that a plan for one document marks is that of the first match. -/
theorem first_of_answer (hbuilt : Graph.build schema = .ok graph)
    (hkeys : session.store.HasScalarKeys graph) {normalized : Json} {plan : RemovalPlan}
    (hplan : ((graph.collection name).planNormalized normalized { single := true }).answer session =
      .ok plan) :
    session.refused.contains .find = false ∧
      ((plan.deletedKeys.get name = [] ∧
          Filter.HoldsForNone normalized (session.store.documents name)) ∨
        ∃ document key, Filter.IsFirst normalized (session.store.documents name) document ∧
          (graph.collection name).keyOf? document = some key ∧
          (plan.deletedKeys.get name).head? = some key) := by
  have hvalid : ∀ segment ∈ splitPath (graph.collection name).key, Identifier.isValid segment :=
    Graph.isValid_of_mem_key hbuilt name
  obtain ⟨found, hfound, hprefix⟩ := exists_found_of_answer hbuilt hplan
  obtain ⟨hrefused, hcases⟩ := (answer_storedKeys_one_eq_ok_iff hvalid).1 hfound
  refine ⟨hrefused, ?_⟩
  obtain ⟨rfl, hnone⟩ | ⟨document, hfirst, rfl⟩ := hcases
  · obtain ⟨other, hother, hnil⟩ := exists_plan_of_storedKeys_eq_nil hfound
    cases hplan.symm.trans hother
    exact .inl ⟨hnil, hnone⟩
  · obtain ⟨key, hkey, -⟩ := exists_key_of_any (hkeys name document hfirst.mem)
    rw [hkey] at hprefix
    obtain ⟨others, hothers⟩ := hprefix
    refine .inr ⟨document, key, hfirst, hkey, ?_⟩
    rw [← hothers]
    rfl

/-- What a run that succeeds has taken: the first match, after which its plan was carried out, or
nothing when there was no match. -/
theorem taken_of_findOneAndDelete (hbuilt : Graph.build schema = .ok graph)
    (hkeys : session.store.HasScalarKeys graph)
    (hunique : ((session.store.documents name).filterMap
      (graph.collection name).keyOf?).Pairwise Differ) {result : Option Json} {after : Session}
    (h : ((graph.collection name).findOneAndDelete filter).runIn session = (.ok result, after)) :
    session.refused.contains .find = false ∧ ∃ normalized plan,
      ((graph.collection name).normalize filter).answer session = .ok normalized ∧
      ((graph.collection name).planNormalized normalized { single := true }).answer session =
        .ok plan ∧
      ((result = none ∧ Filter.HoldsForNone normalized (session.store.documents name) ∧
          after.store = session.store) ∨
        ∃ document key, result = some document ∧
          Filter.IsFirst normalized (session.store.documents name) document ∧
          (graph.collection name).keyOf? document = some key ∧ key ∈ plan.deletedKeys.get name ∧
          Operation.Executes (plan.operations ++ [plan.delete]) session.store after.store) := by
  obtain ⟨normalized, plan, hnormalized, hplan, hcases⟩ := exists_plan_of_findOneAndDelete h
  obtain ⟨hrefused, hmarks⟩ := first_of_answer hbuilt hkeys hplan
  refine ⟨hrefused, normalized, plan, hnormalized, hplan, ?_⟩
  obtain ⟨hnil, rfl, hstore⟩ | ⟨key, hhead, hfound, hexecutes⟩ := hcases
  · obtain ⟨-, hnone⟩ | ⟨document, key, -, -, hhead⟩ := hmarks
    · exact .inl ⟨rfl, hnone, hstore⟩
    · rw [show plan.deletedKeys.get name = [] from hnil] at hhead
      cases hhead
  · obtain ⟨hnil, -⟩ | ⟨document, other, hfirst, hkey, hother⟩ := hmarks
    · rw [show plan.deletedKeys.get (graph.collection name).name = [] from hnil] at hhead
      cases hhead
    · cases hother.symm.trans hhead
      -- the key is looked up before anything is deleted, and it is that of no other document
      have hbyKey := answer_findByKey_of_isFirst hrefused
        (isFirst_keyQuery hbuilt (hkeys name) hunique hfirst.mem hkey)
      cases hbyKey.symm.trans hfound
      exact .inr ⟨document, _, rfl, hfirst, hkey, List.mem_of_head? hhead, hexecutes⟩

theorem forall₂_remains_of_executes (hbuilt : Graph.build schema = .ok graph)
    (hkeeps : graph.KeepsKeys) (hnames : session.store.NamesOnce)
    (hkeys : session.store.HasScalarKeys graph) {plan : RemovalPlan} {after : Store}
    (hplan : ((graph.collection name).planDelete filter options).answer session = .ok plan)
    (hexecutes : Operation.Executes (plan.operations ++ [plan.delete]) session.store after)
    (collection : String) :
    List.Forall₂ (graph.Remains plan.deletedKeys collection)
      ((session.store.documents collection).filter fun document =>
        !((graph.collection collection).keyOf? document).any
          (holds (plan.deletedKeys.get collection)))
      (after.documents collection) := by
  have haccounts := accounts_of_answer hbuilt hplan
  have hscalar : ∀ other, ∀ key ∈ plan.deletedKeys.get other, key.isScalar :=
    fun other key hkey => hkeys.isScalar (haccounts.stored other key hkey)
  have hleft := hexecutes.forall₂_survives hbuilt hkeeps haccounts.handles hscalar
    (Graph.forall₂_survives_self hnames hkeys plan.deletedKeys collection)
  simp only [haccounts.any_lists_eq hbuilt] at hleft
  exact hleft.imp fun _ _ hsurvives => hsurvives.remains hbuilt

/-- The document that is returned is the first match, as it was stored, and it goes with all
documents of its collection whose keys the plan marks, and no others. Nothing is returned exactly
when the query holds for no document, and then nothing changes. -/
theorem isFirst_of_findOneAndDelete (hbuilt : Graph.build schema = .ok graph)
    (hkeeps : graph.KeepsKeys) (hnames : session.store.NamesOnce)
    (hkeys : session.store.HasScalarKeys graph) (name : String)
    (hunique : ((session.store.documents name).filterMap
      (graph.collection name).keyOf?).Pairwise Differ) (filter : Json) :
    (∀ document after,
      ((graph.collection name).findOneAndDelete filter).runIn session = (.ok (some document), after) →
      ∃ normalized plan,
        ((graph.collection name).normalize filter).answer session = .ok normalized ∧
        Filter.IsFirst normalized (session.store.documents name) document ∧
        ((graph.collection name).planDelete filter { single := true }).answer session = .ok plan ∧
        ((graph.collection name).keyOf? document).any (holds (plan.deletedKeys.get name)) ∧
        ∀ collection, List.Forall₂ (graph.Remains plan.deletedKeys collection)
          ((session.store.documents collection).filter fun other =>
            !((graph.collection collection).keyOf? other).any
              (holds (plan.deletedKeys.get collection)))
          (after.store.documents collection)) ∧
    (((graph.collection name).findOneAndDelete filter).answer session = .ok none ↔
      session.refused.contains .find = false ∧ ∃ normalized,
        ((graph.collection name).normalize filter).answer session = .ok normalized ∧
        Filter.HoldsForNone normalized (session.store.documents name)) ∧
    (((graph.collection name).findOneAndDelete filter).answer session = .ok none →
      (((graph.collection name).findOneAndDelete filter).runIn session).2.store = session.store) := by
  have hvalid : ∀ segment ∈ splitPath (graph.collection name).key, Identifier.isValid segment :=
    Graph.isValid_of_mem_key hbuilt name
  have hnothing (hnone : ((graph.collection name).findOneAndDelete filter).answer session =
      .ok none) := taken_of_findOneAndDelete hbuilt hkeys hunique (Prod.ext hnone rfl : _ = (_, _))
  refine ⟨fun document after hrun => ?taken, ⟨fun hnone => ?none, ?matchless⟩,
    fun hnone => ?unchanged⟩
  case taken =>
    obtain ⟨-, normalized, plan, hnormalized, hplan, ⟨hresult, -⟩ | ⟨_, key, hresult, hfirst, hkey,
      hmarked, hexecutes⟩⟩ := taken_of_findOneAndDelete hbuilt hkeys hunique hrun
    · cases hresult
    · cases hresult
      rw [← answer_planDelete _ hnormalized] at hplan
      refine ⟨normalized, plan, hnormalized, hfirst, hplan, ?_,
        forall₂_remains_of_executes hbuilt hkeeps hnames hkeys hplan hexecutes⟩
      rw [hkey]
      exact holds_of_mem hmarked
  case none =>
    obtain ⟨hrefused, normalized, plan, hnormalized, -, ⟨-, hmatchless, -⟩ | ⟨_, _, hresult, -⟩⟩ :=
      hnothing hnone
    · exact ⟨hrefused, normalized, hnormalized, hmatchless⟩
    · cases hresult
  case unchanged =>
    obtain ⟨-, _, _, -, -, ⟨-, -, hstore⟩ | ⟨_, _, hresult, -⟩⟩ := hnothing hnone
    · exact hstore
    · cases hresult
  case matchless =>
    rintro ⟨hrefused, normalized, hnormalized, hmatchless⟩
    have hstored : ((graph.collection name).storedKeys normalized (some 1)).answer session = .ok [] :=
      (answer_storedKeys_one_eq_ok_iff hvalid).2 ⟨hrefused, .inl ⟨rfl, hmatchless⟩⟩
    obtain ⟨plan, hplan, hnil⟩ : ∃ plan, ((graph.collection name).planNormalized normalized
        { single := true }).answer session = .ok plan ∧ plan.deletedKeys.get name = [] :=
      exists_plan_of_storedKeys_eq_nil hstored
    exact answer_findOneAndDelete_of_nil hnormalized hplan hnil

end Plans

end

def ringSecond : Json :=
  .object [("_id", .string "b"), ("next", .string "a")]

/-- Of two nodes that refer to each other, the second one is taken. The first one goes with it, as
its cascade says. -/
theorem isFirst_of_findOneAndDelete_ring :
    (∃ normalized plan after,
      ((ringSchema.graph.collection "nodes").findOneAndDelete (.single "next" (.string "a"))).runIn
        ringSession = (.ok (some ringSecond), after) ∧
      ((ringSchema.graph.collection "nodes").normalize (.single "next" (.string "a"))).answer
        ringSession = .ok normalized ∧
      Filter.IsFirst normalized (ringSession.store.documents "nodes") ringSecond ∧
      ((ringSchema.graph.collection "nodes").planDelete (.single "next" (.string "a"))
        { single := true }).answer ringSession = .ok plan ∧
      ∀ collection, List.Forall₂ (ringSchema.graph.Remains plan.deletedKeys collection)
        ((ringSession.store.documents collection).filter fun other =>
          !((ringSchema.graph.collection collection).keyOf? other).any
            (holds (plan.deletedKeys.get collection)))
        (after.store.documents collection)) ∧
    ((ringSchema.graph.collection "nodes").findOneAndDelete (.single "next" (.string "c"))).answer
      ringSession = .ok none := by
  obtain ⟨hkeeps, hnames, hkeys⟩ := ringSession_fits
  have hunique : ((ringSession.store.documents "nodes").filterMap
      (ringSchema.graph.collection "nodes").keyOf?).Pairwise Differ := by decide
  have hresult : ((ringSchema.graph.collection "nodes").findOneAndDelete
      (.single "next" (.string "a"))).result? ringSession = some (some ringSecond) := rfl
  obtain ⟨after, hrun⟩ := exists_runIn_of_result? hresult
  have hnormalized : ((ringSchema.graph.collection "nodes").normalize
      (.single "next" (.string "c"))).answer ringSession = .ok (.single "next" (.string "c")) := rfl
  have hnone : Filter.HoldsForNone (.single "next" (.string "c"))
      (ringSession.store.documents "nodes") :=
    List.forall_mem_cons.2 ⟨rfl, List.forall_mem_singleton.2 rfl⟩
  obtain ⟨normalized, plan, hquery, hfirst, hplan, -, hremains⟩ :=
    (isFirst_of_findOneAndDelete (ringSchema.build_graph rfl) hkeeps hnames hkeys "nodes" hunique
      (.single "next" (.string "a"))).1 _ _ hrun
  exact ⟨⟨normalized, plan, after, hrun, hquery, hfirst, hplan, hremains⟩,
    (isFirst_of_findOneAndDelete (ringSchema.build_graph rfl) hkeeps hnames hkeys "nodes" hunique
      (.single "next" (.string "c"))).2.1.2 ⟨rfl, _, hnormalized, hnone⟩⟩

end Collection

end LinkedDocs
