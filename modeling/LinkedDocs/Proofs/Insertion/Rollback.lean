import LinkedDocs.Proofs.Insertion.Nested

namespace LinkedDocs

open Json Store

/-- Whether the documents of a session are the ones of another one. -/
structure Restores (before after : Session) : Prop where
  refused_eq : after.refused = before.refused
  sameDocuments : before.store.SameDocuments after.store

/-- Whether a document belongs to none of some nested documents. -/
def isApart (name : String) (dependencies : List Dependency) (document : Json) : Bool :=
  dependencies.all fun dependency =>
    !(dependency.collection == name && (idOf document).sameValue dependency.key)

theorem isApart_cons (name : String) (first : Dependency) (rest : List Dependency)
    (document : Json) :
    isApart name (first :: rest) document =
      (!(first.collection == name && (idOf document).sameValue first.key) &&
        isApart name rest document) := rfl

/-- What is added in an extension is what the recorded ids take away again. -/
theorem Extends.filter_documents {graph : Graph} {session : Session} {state : InsertionState}
    (h : Extends graph { session } state) (name : String) :
    (state.session.store.documents name).filter (isApart name state.dependencies) =
      session.store.documents name := by
  obtain ⟨added, hdependencies, hdocuments⟩ := h.exists_added
  have hrecorded : state.dependencies = added.map fun entry => ⟨entry.1, idOf entry.2⟩ := by
    simpa using hdependencies
  have hdistinct := (h.identified name).differ
  rw [hdocuments, List.map_append, List.pairwise_append] at hdistinct
  rw [hdocuments, List.filter_append, hrecorded]
  have hkept : ∀ document ∈ session.store.documents name,
      isApart name (added.map fun entry => ⟨entry.1, idOf entry.2⟩) document := by
    intro document hdocument
    simp only [isApart, List.all_map, List.all_eq_true, Function.comp_apply, Bool.not_eq_true',
      Bool.and_eq_false_imp, beq_iff_eq]
    intro entry hentry hname
    refine hdistinct.2.2 _ (List.mem_map_of_mem hdocument) _ (List.mem_map_of_mem ?_)
    exact List.mem_map_of_mem (List.mem_filter.2 ⟨hentry, by simpa using hname⟩)
  have htaken : ∀ document ∈ (added.filter fun entry => entry.1 = name).map Prod.snd,
      ¬isApart name (added.map fun entry => ⟨entry.1, idOf entry.2⟩) document := by
    intro document hdocument
    obtain ⟨entry, hentry, rfl⟩ := List.mem_map.1 hdocument
    obtain ⟨hmem, hname⟩ := List.mem_filter.1 hentry
    intro hapart
    have hself := List.all_eq_true.1 hapart _ (List.mem_map_of_mem hmem)
    simp [show entry.1 = name by simpa using hname, sameValue_refl] at hself
  rw [List.filter_eq_self.2 hkept, List.filter_eq_nil_iff.2 htaken, List.append_nil]

variable [Platform]

/-- Deleting some nested documents leaves the documents that do not belong to them. -/
theorem leads_deleteDependencies {graph : Graph} (hkeys : graph.KeysAreIds)
    {dependencies : List Dependency} (hscalar : ∀ dependency ∈ dependencies, dependency.key.isScalar)
    {session : Session} (hrefused : session.refused = [])
    (hids : ∀ name, ∀ document ∈ session.store.documents name, (idOf document).isScalar) :
    Leads (deleteDependencies graph dependencies) session
      (fun _ after => after.refused = session.refused ∧ ∀ name, after.store.documents name =
        (session.store.documents name).filter (isApart name dependencies)) fun _ => False := by
  induction dependencies generalizing session with
  | nil =>
    apply Leads.pure
    refine ⟨rfl, fun name => ?_⟩
    exact (List.filter_eq_self.2 fun _ _ => rfl).symm
  | cons first rest ih =>
    obtain ⟨hfirst, hrest⟩ := List.forall_mem_cons.1 hscalar
    have hquery : (graph.collection first.collection).keyQuery first.key =
        .single idField first.key := by
      rw [Collection.keyQuery, Collection.key, Collection.links]
      exact congrArg (Json.single · first.key) (hkeys first.collection)
    obtain ⟨count, after, hdelete, hdocuments⟩ :=
      documents_deleteMany_idField (hids first.collection) hfirst
    have hleft (name : String) : after.documents name =
        (session.store.documents name).filter fun document =>
          !(first.collection == name && (idOf document).sameValue first.key) := by
      rw [hdocuments]
      split
      case isTrue hname => simp [hname]
      case isFalse hname =>
        have hother : (first.collection == name) = false := beq_eq_false_iff_ne.2 (Ne.symm hname)
        simp [hother]
    unfold deleteDependencies
    dsimp only
    rw [hquery]
    apply Leads.bind
    refine leads_call hrefused hdelete ?_ (by rintro _ _ ⟨⟩)
    rintro _ calls ⟨⟩
    let middle : Session := { session with calls, store := after }
    have hstill : middle.refused = [] := hrefused
    have hmiddle : ∀ name, ∀ document ∈ middle.store.documents name, (idOf document).isScalar := by
      intro name document hdocument
      change document ∈ after.documents name at hdocument
      rw [hleft] at hdocument
      exact hids name document (List.mem_filter.1 hdocument).1
    refine (ih hrest hstill hmiddle).mono ?_ fun _ h => h
    rintro _ last ⟨hlast, hlastDocuments⟩
    refine ⟨hlast, fun name => ?_⟩
    rw [hlastDocuments]
    change (after.documents name).filter _ = _
    rw [hleft, List.filter_filter]
    refine List.filter_congr fun document _ => ?_
    rw [isApart_cons, Bool.and_comm]

/-- Rolling back restores the documents from before an insertion, and never fails. -/
theorem leads_rollBack {graph : Graph} (hkeys : graph.KeysAreIds) {session : Session}
    (hrefused : session.refused = []) {state : InsertionState}
    (h : Extends graph { session } state) :
    Leads (rollBack graph state.dependencies) state.session
      (fun _ after => Restores session after) fun _ => False := by
  have hscalar : ∀ dependency ∈ state.dependencies.reverse, dependency.key.isScalar := by
    obtain ⟨added, hdependencies, hdocuments⟩ := h.exists_added
    intro dependency hdependency
    rw [List.mem_reverse, hdependencies] at hdependency
    rw [List.nil_append] at hdependency
    obtain ⟨entry, hentry, rfl⟩ := List.mem_map.1 hdependency
    refine (h.identified entry.1).isScalar entry.2 ?_
    rw [hdocuments]
    exact List.mem_append_right _ (List.mem_map_of_mem (List.mem_filter.2 ⟨hentry, by simp⟩))
  have hstate : state.session.refused = [] := h.refused_eq.trans hrefused
  refine (leads_deleteDependencies hkeys hscalar hstate fun name => (h.identified name).isScalar).mono
    ?_ fun _ hnever => hnever
  rintro _ after ⟨hafter, hdocuments⟩
  refine ⟨hafter.trans h.refused_eq, fun name => ?_⟩
  have hreverse : isApart name state.dependencies.reverse = isApart name state.dependencies := by
    funext document
    exact List.all_reverse
  rw [hdocuments, hreverse, h.filter_documents]

/-- An insertion that fails somewhere on the way is undone. -/
theorem leads_settle_of_extends {α : Type} {graph : Graph} (hkeys : graph.KeysAreIds)
    {insertion : Insertion α} {session : Session} (hrefused : session.refused = [])
    {ok : α × List Dependency → Session → Prop}
    (h : Leads insertion { session } (fun value state => ok (value, state.dependencies) state.session)
      (Extends graph { session })) :
    Leads (Collection.settle graph insertion) session ok (Restores session) := by
  apply leads_settle
  refine h.mono (fun _ _ hok => hok) fun state hextends => ?_
  exact (leads_rollBack hkeys hrefused hextends).mono (fun _ _ hrestores => hrestores)
    fun _ hnever => hnever.elim

end LinkedDocs
