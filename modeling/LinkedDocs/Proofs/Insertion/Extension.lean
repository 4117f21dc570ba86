import LinkedDocs.Proofs.Insertion.Verification

namespace LinkedDocs

open Json Store

/-- What happens between two states of an insertion: nested documents are added and recorded. -/
structure Extends (graph : Graph) (before after : InsertionState) : Prop where
  refused_eq : after.session.refused = before.session.refused
  identified : after.session.store.Identified
  exists_added : ∃ added : List (String × Json),
    after.dependencies = before.dependencies ++ added.map (fun entry => ⟨entry.1, idOf entry.2⟩) ∧
    ∀ name, after.session.store.documents name = before.session.store.documents name ++
      (added.filter fun entry => entry.1 = name).map Prod.snd
  honest : graph.SparesIds → graph.Honest before.session.store → graph.Honest after.session.store

namespace Extends

variable {graph : Graph} {before middle after : InsertionState}

theorem refl (h : before.session.store.Identified) : Extends graph before before where
  refused_eq := rfl
  identified := h
  exists_added := ⟨[], by simp, by simp⟩
  honest := fun _ hhonest => hhonest

theorem trans (h : Extends graph before middle) (hnext : Extends graph middle after) :
    Extends graph before after where
  refused_eq := hnext.refused_eq.trans h.refused_eq
  identified := hnext.identified
  exists_added := by
    obtain ⟨first, hdependencies, hdocuments⟩ := h.exists_added
    obtain ⟨second, hmore, hothers⟩ := hnext.exists_added
    refine ⟨first ++ second, ?_, fun name => ?_⟩
    · rw [hmore, hdependencies, List.map_append, List.append_assoc]
    · rw [hothers, hdocuments, List.filter_append, List.map_append, List.append_assoc]
  honest := fun hspares hhonest => hnext.honest hspares (h.honest hspares hhonest)

theorem mem_documents (h : Extends graph before after) {name : String} {document : Json}
    (hmem : document ∈ before.session.store.documents name) :
    document ∈ after.session.store.documents name := by
  obtain ⟨added, -, hdocuments⟩ := h.exists_added
  rw [hdocuments]
  exact List.mem_append_left _ hmem

theorem verified (h : Extends graph before after) {name : String} {document : Json}
    (hverified : graph.Verified before.session.store name document) :
    graph.Verified after.session.store name document :=
  hverified.mono fun _ target htarget => ⟨target, h.mem_documents htarget, sameValue_refl _⟩

end Extends

/-- Verified documents behind honest ones are honest together with them. -/
theorem Graph.Honest.appends {graph : Graph} {before after : Store} {name : String}
    {documents : List Json} (h : graph.Honest before) (happends : before.Appends name documents after)
    (hverified : ∀ document ∈ documents, graph.Verified before name document) :
    graph.Honest after := by
  have hkept : ∀ collection, ∀ target ∈ before.documents collection,
      ∃ kept ∈ after.documents collection, (idOf kept).sameValue (idOf target) := by
    intro collection target htarget
    refine ⟨target, ?_, sameValue_refl _⟩
    rw [happends]
    exact List.mem_append_left _ htarget
  intro other document hdocument
  rw [happends] at hdocument
  rcases List.mem_append.1 hdocument with hold | hnew
  · exact (h other document hold).mono hkept
  · split at hnew
    case isTrue hname =>
      subst hname
      exact (hverified document hnew).mono hkept
    case isFalse => cases hnew

/-- The same documents are as honest as they were. -/
theorem Graph.Honest.of_sameDocuments {graph : Graph} {before after : Store}
    (h : graph.Honest before) (hsame : before.SameDocuments after) : graph.Honest after := by
  intro name document hdocument
  rw [hsame] at hdocument
  refine (h name document hdocument).mono fun collection target htarget => ?_
  exact ⟨target, by rwa [hsame], sameValue_refl _⟩

theorem Store.Identified.of_sameDocuments {before after : Store} (h : before.Identified)
    (hsame : before.SameDocuments after) : after.Identified := by
  intro name
  rw [hsame]
  exact h name

theorem extends_of_sameDocuments {graph : Graph} {state : InsertionState} {session : Session}
    (hids : state.session.store.Identified) (hrefused : session.refused = state.session.refused)
    (hsame : state.session.store.SameDocuments session.store) :
    Extends graph state { state with session } where
  refused_eq := hrefused
  identified := hids.of_sameDocuments hsame
  exists_added := ⟨[], by simp, fun name => by simpa using hsame name⟩
  honest := fun _ hhonest => hhonest.of_sameDocuments hsame

/-- Whether an insertion extends each state in which it runs. -/
def Extending {α : Type} (graph : Graph) (insertion : Insertion α)
    (post : α → InsertionState → Prop) : Prop :=
  ∀ state, state.session.refused = [] → state.session.store.Identified →
    Leads insertion state (fun value after => Extends graph state after ∧ post value after)
      (Extends graph state)

section Extending

variable {α β : Type} {graph : Graph} {post : α → InsertionState → Prop}

theorem extending_pure {value : α} (h : ∀ state, post value state) :
    Extending graph (pure value) post :=
  fun state _ hids => .pure ⟨.refl hids, h state⟩

theorem Extending.bind {first : Insertion α} {next : α → Insertion β}
    {post' : β → InsertionState → Prop} (hfirst : Extending graph first post)
    (hnext : ∀ value state, post value state → state.session.refused = [] →
      state.session.store.Identified → Leads (next value) state
        (fun result after => Extends graph state after ∧ post' result after) (Extends graph state)) :
    Extending graph (first >>= next) post' := by
  intro state hrefused hids
  apply Leads.bind
  refine (hfirst state hrefused hids).mono ?_ fun _ h => h
  rintro value middle ⟨hextends, hpost⟩
  have hmiddle : middle.session.refused = [] := hextends.refused_eq.trans hrefused
  refine (hnext value middle hpost hmiddle hextends.identified).mono ?_ fun _ => hextends.trans
  rintro result after ⟨hafter, hresult⟩
  exact ⟨hextends.trans hafter, hresult⟩

theorem Extending.map {first : Insertion α} (hfirst : Extending graph first post) {change : α → β}
    {post' : β → InsertionState → Prop}
    (hpost : ∀ value state, post value state → post' (change value) state) :
    Extending graph (do return change (← first)) post' :=
  hfirst.bind fun value state hvalue _ hids => .pure ⟨.refl hids, hpost value state hvalue⟩

/-- A computation that only reads the store extends a state by nothing. -/
theorem extending_ofAccess {access : Access α} (hreads : access.Reads)
    (hpost : ∀ (state : InsertionState) (value : α), state.session.store.Identified →
      access.answer state.session = .ok value → ∀ calls,
        post value { state with session := { state.session with calls } }) :
    Extending graph (Insertion.ofAccess access) post := by
  intro state _ hids
  apply Insertion.leads_ofAccess
  refine hreads.leads (fun value calls hvalue => ?_) fun calls => ?_
  · exact ⟨extends_of_sameDocuments hids rfl fun _ => rfl, hpost state value hids hvalue calls⟩
  · exact extends_of_sameDocuments hids rfl fun _ => rfl

end Extending

/-- A document that is inserted behind the others of its collection and recorded. -/
theorem extends_of_appends {graph : Graph} {state : InsertionState} {name : String}
    {document stored : Json} {after : Store} (calls : List StoreCall)
    (hids : state.session.store.Identified) (hstored : StoredAs document stored)
    (hverified : graph.Verified state.session.store name document)
    (happends : state.session.store.Appends name [stored] after) (hscalar : (idOf stored).isScalar)
    (hdiffer : ∀ other ∈ state.session.store.documents name, Differ (idOf other) (idOf stored)) :
    Extends graph state
      { session := { state.session with calls, store := after }
        dependencies := state.dependencies ++ [⟨name, idOf stored⟩] } where
  refused_eq := rfl
  identified := by
    intro other
    rw [happends]
    split
    case isTrue hname =>
      subst hname
      exact (hids other).concat hscalar hdiffer
    case isFalse =>
      rw [List.append_nil]
      exact hids other
  exists_added := by
    refine ⟨[(name, stored)], rfl, fun other => ?_⟩
    rw [happends]
    by_cases hname : other = name
    · simp [hname]
    · simp [hname, Ne.symm hname]
  honest := by
    intro hspares hhonest
    refine hhonest.appends happends (List.forall_mem_singleton.2 ?_)
    exact hverified.storedAs hspares hstored

end LinkedDocs
