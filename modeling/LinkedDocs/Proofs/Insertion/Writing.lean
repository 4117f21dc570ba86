import LinkedDocs.Proofs.Insertion.Rollback

namespace LinkedDocs

open Json Store

/-- What a write keeps: the ids of each collection differ, and honest documents stay honest. -/
structure Keeps (graph : Graph) (before after : Session) : Prop where
  refused_eq : after.refused = before.refused
  identified : after.store.Identified
  honest : graph.SparesIds → graph.Honest before.store → graph.Honest after.store

theorem Restores.keeps {graph : Graph} {before after : Session} (h : Restores before after)
    (hids : before.store.Identified) : Keeps graph before after where
  refused_eq := h.refused_eq
  identified := hids.of_sameDocuments h.sameDocuments
  honest := fun _ hhonest => hhonest.of_sameDocuments h.sameDocuments

section Keeps

variable {graph : Graph} {session : Session} {state : InsertionState} {name : String} {after : Store}

theorem keeps_of_appends (hextends : Extends graph { session } state) {prepared stored : List Json}
    (hready : ∀ document ∈ prepared, (graph.collection name).Ready document state)
    (hstored : ∀ new ∈ stored, ∃ document ∈ prepared, StoredAs document new)
    (hdistinct : DistinctIds (state.session.store.documents name ++ stored))
    (happends : state.session.store.Appends name stored after) (calls : List StoreCall) :
    Keeps graph session { state.session with calls, store := after } where
  refused_eq := hextends.refused_eq
  identified := by
    intro other
    rw [happends]
    split
    case isTrue hname =>
      rw [hname]
      exact hdistinct
    case isFalse =>
      rw [List.append_nil]
      exact hextends.identified other
  honest := by
    intro hspares hhonest
    refine (hextends.honest hspares hhonest).appends happends fun document hdocument => ?_
    obtain ⟨given, hgiven, hstoredAs⟩ := hstored document hdocument
    exact (hready given hgiven).1.storedAs hspares hstoredAs

theorem keeps_of_replaces (hextends : Extends graph { session } state)
    {prepared old current : Json} {front back : List Json}
    (hready : (graph.collection name).Ready prepared state)
    (hdocuments : state.session.store.documents name = front ++ old :: back)
    (hstored : StoredAs prepared current) (hsame : (idOf current).sameValue (idOf old))
    (hafter : ∀ other, after.documents other =
      if other = name then front ++ current :: back else state.session.store.documents other)
    (calls : List StoreCall) :
    Keeps graph session { state.session with calls, store := after } where
  refused_eq := hextends.refused_eq
  identified := by
    intro other
    rw [hafter]
    split
    case isTrue =>
      have hdistinct := hextends.identified name
      rw [hdocuments] at hdistinct
      exact hdistinct.replace hsame
    case isFalse => exact hextends.identified other
  honest := by
    intro hspares hhonest
    have hbefore := hextends.honest hspares hhonest
    -- the document that is replaced keeps its id, so nothing loses its target
    have hkept : ∀ collection, ∀ target ∈ state.session.store.documents collection,
        ∃ kept ∈ after.documents collection, (idOf kept).sameValue (idOf target) := by
      intro collection target htarget
      rw [hafter]
      split
      case isTrue hname =>
        rw [hname, hdocuments] at htarget
        rcases List.mem_append.1 htarget with hfront | hback
        · exact ⟨target, List.mem_append_left _ hfront, sameValue_refl _⟩
        · rcases List.mem_cons.1 hback with rfl | hback
          · exact ⟨current, by simp, hsame⟩
          · exact ⟨target, by simp [hback], sameValue_refl _⟩
      case isFalse => exact ⟨target, htarget, sameValue_refl _⟩
    intro other document hdocument
    rw [hafter] at hdocument
    split at hdocument
    case isFalse => exact (hbefore other document hdocument).mono hkept
    case isTrue hname =>
      subst hname
      have hthere : ∀ kept ∈ front ++ old :: back, graph.Verified after other kept := by
        rw [← hdocuments]
        exact fun kept hmem => (hbefore other kept hmem).mono hkept
      rcases List.mem_append.1 hdocument with hfront | hback
      · exact hthere document (List.mem_append_left _ hfront)
      · rcases List.mem_cons.1 hback with rfl | hback
        · exact (hready.1.storedAs hspares hstored).mono hkept
        · exact hthere document (by simp [hback])

end Keeps

namespace Collection

variable [Platform]
variable {collection : Collection} {session : Session}

theorem leads_insertMany (hkeys : collection.graph.KeysAreIds) {documents : List Json}
    (hsupplies : ∀ document ∈ documents, collection.suppliesScalarIds document)
    (hrefused : session.refused = []) (hids : session.store.Identified) :
    Leads (collection.insertMany documents) session
      (fun _ after => Keeps collection.graph session after) (Restores session) := by
  have hsettle : Leads (settle collection.graph do
      let prepared ← collection.prepareAll documents
      Insertion.ofAccess (Access.insertMany collection.name prepared)) session
      (fun _ after => Keeps collection.graph session after) (Restores session) := by
    apply leads_settle_of_extends hkeys hrefused
    apply Leads.bind
    refine (extending_prepareAll collection hkeys hsupplies { session } hrefused hids).mono ?_
      fun _ hextends => hextends
    rintro prepared state ⟨hextends, hready⟩
    apply Insertion.leads_ofAccess
    have hstate : state.session.refused = [] := hextends.refused_eq.trans hrefused
    rcases insertMany_cases state.session.store collection.name prepared with
      ⟨error, after, herror, hsame⟩ | ⟨stored, after, hok, happends, hstored⟩
    · refine leads_call hstate herror (by rintro _ _ ⟨⟩) fun _ calls _ => ?_
      exact hextends.trans (extends_of_sameDocuments hextends.identified rfl hsame)
    · obtain ⟨hall, hdistinct⟩ := hstored (hextends.identified _) fun document hdocument =>
        (hready document hdocument).2
      refine leads_call hstate hok ?_ (by rintro _ _ ⟨⟩)
      rintro _ calls ⟨⟩
      exact keeps_of_appends hextends hready hall hdistinct happends calls
  apply Leads.bind
  exact hsettle.mono (fun _ _ hkeeps => .pure hkeeps) fun _ hrestores => hrestores

theorem leads_replace (hkeys : collection.graph.KeysAreIds) (filter : Json) {document : Json}
    (hsupplies : collection.suppliesScalarIds document) (hrefused : session.refused = [])
    (hids : session.store.Identified) :
    Leads (collection.replace filter document) session
      (fun replacement after => Keeps collection.graph session after ∧
        (replacement = none → Restores session after)) (Restores session) := by
  have hsettle : Leads (settle collection.graph do
      let prepared ← collection.prepare document
      Insertion.ofAccess (Access.replaceOne collection.name filter prepared)) session
      (fun result after =>
        (result.1 ≠ none ∧ Keeps collection.graph session after) ∨
          result.1 = none ∧ Extends collection.graph { session } ⟨after, result.2⟩)
      (Restores session) := by
    apply leads_settle_of_extends hkeys hrefused
    apply Leads.bind
    refine (extending_prepare collection hkeys hsupplies { session } hrefused hids).mono ?_
      fun _ hextends => hextends
    rintro prepared state ⟨hextends, hready⟩
    apply Insertion.leads_ofAccess
    have hstate : state.session.refused = [] := hextends.refused_eq.trans hrefused
    rcases replaceOne_cases state.session.store collection.name filter prepared with
      ⟨result, after, hresult, hsame, hnever⟩ | ⟨front, old, back, current, after, hok, hdocuments,
        hstored, hkeptId, hafter⟩
    · have hunchanged (calls : List StoreCall) : Extends collection.graph { session }
          { state with session := { state.session with calls, store := after } } :=
        hextends.trans (extends_of_sameDocuments hextends.identified rfl hsame)
      refine leads_call hstate hresult ?_ fun _ calls _ => hunchanged calls
      intro replacement calls hreplacement
      cases replacement with
      | some replacement => exact absurd hreplacement (hnever replacement)
      | none => exact .inr ⟨rfl, hunchanged calls⟩
    · refine leads_call hstate hok ?_ (by rintro _ _ ⟨⟩)
      rintro _ calls ⟨⟩
      exact .inl ⟨by simp, keeps_of_replaces hextends hready hdocuments hstored hkeptId hafter calls⟩
  apply Leads.bind
  refine hsettle.mono ?_ fun _ hrestores => hrestores
  rintro ⟨replacement, dependencies⟩ after (⟨hsome, hkeeps⟩ | ⟨hnone, hextends⟩)
  · cases replacement with
    | none => exact absurd rfl hsome
    | some replacement => exact .pure ⟨hkeeps, fun hnone => by cases hnone⟩
  · cases replacement with
    | some replacement => cases hnone
    | none =>
      apply Leads.bind
      refine (leads_rollBack hkeys hrefused hextends).mono ?_ fun _ hnever => hnever.elim
      exact fun _ last hrestores => .pure ⟨hrestores.keeps hids, fun _ => hrestores⟩

end Collection

end LinkedDocs
