import LinkedDocs.Proofs.Insertion.Nested

/-!
What computations do to a store when nothing is refused. Two computations that do the same to it may
still differ in what else they record, the calls to the store and the documents that were nested in
others.
-/

namespace LinkedDocs

open Json

/-- A change of a store that returns a value or fails. -/
abbrev StoreEffect := StateT Store Option

theorem run_map_eq_some_iff {α β : Type} {effect : StoreEffect α} {f : α → β} {store after : Store}
    {value : β} :
    (f <$> effect).run store = some (value, after) ↔
      ∃ before, effect.run store = some (before, after) ∧ f before = value := by
  rw [StateT.run_map, Option.map_eq_map, Option.map_eq_some_iff]
  simp

theorem run_map_eq_none_iff {α β : Type} {effect : StoreEffect α} {f : α → β} {store : Store} :
    (f <$> effect).run store = none ↔ effect.run store = none := by
  rw [StateT.run_map, Option.map_eq_map, Option.map_eq_none_iff]

/-- A computation on a state that holds a session does to its store what an effect does. -/
def Realizes {σ α : Type} (session : σ → Session) (computation : ExceptT Error (StateM σ) α)
    (effect : StoreEffect α) : Prop :=
  ∀ state, (session state).refused = [] →
    Leads computation state
      (fun value after => (session after).refused = [] ∧
        effect.run (session state).store = some (value, (session after).store))
      fun _ => effect.run (session state).store = none

section Realizes

variable {σ α β : Type} {session : σ → Session}

theorem Realizes.pure (value : α) : Realizes session (pure value) (pure value) := by
  intro state hrefused
  exact .pure ⟨hrefused, rfl⟩

theorem Realizes.throw (error : Error) :
    Realizes session (throw error : ExceptT Error (StateM σ) α) failure := by
  intro state _
  exact .throw rfl

theorem Realizes.bind {first : ExceptT Error (StateM σ) α} {effect : StoreEffect α}
    {next : α → ExceptT Error (StateM σ) β} {others : α → StoreEffect β}
    (h : Realizes session first effect)
    (hnext : ∀ value, Realizes session (next value) (others value)) :
    Realizes session (first >>= next) (effect >>= others) := by
  intro state hrefused
  apply Leads.bind
  refine (h state hrefused).mono ?_ ?_
  · rintro value after ⟨hafter, heffect⟩
    have hrun : (effect >>= others).run (session state).store =
        (others value).run (session after).store := by
      rw [StateT.run_bind, heffect]
      rfl
    rw [hrun]
    exact hnext value after hafter
  · intro _ heffect
    rw [StateT.run_bind, heffect]
    rfl

theorem Realizes.map {computation : ExceptT Error (StateM σ) α} {effect : StoreEffect α}
    (h : Realizes session computation effect) (f : α → β) :
    Realizes session (f <$> computation) (f <$> effect) := by
  rw [map_eq_pure_bind, map_eq_pure_bind]
  exact h.bind fun value => .pure (f value)

end Realizes

/-- What a computation does to a store, in a session that has not been used. -/
def Access.effect {α : Type} (access : Access α) : StoreEffect α := fun store =>
  match access.runIn { store } with
  | (.ok value, after) => some (value, after.store)
  | (.error _, _) => none

/-- What a call does to a store that carries it out. -/
def performing {α : Type} (perform : Store → Except Error α × Store) : StoreEffect α := fun store =>
  match perform store with
  | (.ok value, after) => some (value, after)
  | (.error _, _) => none

section Access

variable {α : Type}

theorem Access.Reads.realizes {access : Access α} (hreads : access.Reads) :
    Realizes id access access.effect := by
  intro session hrefused
  change session.refused = [] at hrefused
  obtain ⟨read, hread⟩ := hreads
  obtain ⟨calls, hrun⟩ := hread session
  obtain ⟨others, hfresh⟩ := hread { store := session.store }
  have heffect : access.effect.run session.store =
      (read session.store []).toOption.map fun value => (value, session.store) := by
    change access.effect session.store = _
    unfold Access.effect
    rw [hfresh]
    cases read session.store [] <;> rfl
  rw [hrefused] at hrun
  refine leads_of_run hrun ?_ ?_
  · intro value hvalue
    rw [hvalue] at heffect
    exact ⟨rfl, heffect⟩
  · intro error herror
    rw [herror] at heffect
    exact heffect

theorem realizes_call (collection : String) (request : StoreRequest)
    (perform : Store → Except Error α × Store) :
    Realizes id (Access.call collection request perform) (performing perform) := by
  intro session hrefused
  change session.refused = [] at hrefused
  cases hperform : perform session.store with
  | mk result after =>
    refine leads_call hrefused hperform ?_ ?_
    · rintro value calls rfl
      have heffect : performing perform session.store = some (value, after) := by
        unfold performing
        rw [hperform]
      exact ⟨hrefused, heffect⟩
    · rintro error calls rfl
      change performing perform session.store = none
      unfold performing
      rw [hperform]

end Access

theorem Insertion.realizes_ofAccess {α : Type} {access : Access α} {effect : StoreEffect α}
    (h : Realizes id access effect) :
    Realizes InsertionState.session (Insertion.ofAccess access) effect := by
  intro state hrefused
  exact leads_ofAccess (h state.session hrefused)

theorem Insertion.realizes_record (dependency : Dependency) :
    Realizes InsertionState.session (Insertion.record dependency) (pure ()) := by
  intro state hrefused
  exact leads_record ⟨hrefused, rfl⟩

theorem exists_runIn_iff {α : Type} {access : Access α} {session : Session}
    {outcome : Option (α × Store)}
    (h : Leads access session (fun value after => outcome = some (value, after.store))
      fun _ => outcome = none) {result : α} {store : Store} :
    (∃ after, access.runIn session = (.ok result, after) ∧ after.store = store) ↔
      outcome = some (result, store) := by
  constructor
  · rintro ⟨after, hrun, rfl⟩
    exact h.of_ok result after hrun
  · intro houtcome
    cases hrun : access.runIn session with
    | mk answer after =>
      cases answer with
      | error error =>
        rw [h.of_error error after hrun] at houtcome
        cases houtcome
      | ok value =>
        rw [h.of_ok value after hrun] at houtcome
        cases houtcome
        exact ⟨after, rfl, rfl⟩

variable [Platform]

/-- An insertion that is settled does what it did before; deleting the nested documents of one that
fails does not make it succeed. -/
theorem realizes_settle {α : Type} {insertion : Insertion α} {effect : StoreEffect α}
    (h : Realizes InsertionState.session insertion effect) (graph : Graph) :
    Realizes id (Prod.fst <$> Collection.settle graph insertion) effect := by
  intro session hrefused
  rw [map_eq_pure_bind]
  apply Leads.bind
  apply leads_settle
  refine (h { session } hrefused).mono ?_ ?_
  · intro value state hvalue
    exact .pure hvalue
  · intro state hnone
    exact ⟨fun _ _ _ => hnone, fun _ _ _ => hnone⟩

namespace Collection

/-- What it does to a store to verify a document without nested documents and to insert it. -/
def placing (collection : Collection) (document : Json) : StoreEffect Json := do
  (collection.verify document).effect
  performing fun store => store.insertOne collection.name document

/-- What it does to a store to place a document, with the key that the document got. -/
def placingKey (collection : Collection) (document : Json) : StoreEffect Json := do
  let stored ← collection.placing document
  StateT.lift (collection.keyOf? stored)

theorem performing_insertMany_single (name : String) (document : Json) :
    performing (fun store => store.insertMany name [document]) =
      (fun stored => [stored]) <$> performing fun store => store.insertOne name document := by
  funext store
  rw [map_eq_pure_bind]
  unfold performing Store.insertMany Store.insertOne
  simp only [bind, StateT.bind, Store.prepareAll]
  cases Store.prepare name store.issued (store.documents name) document with
  | error error => rfl
  | ok result => rfl

theorem realizes_insert {collection : Collection} {document : Json} {effect : StoreEffect Json}
    (h : Realizes InsertionState.session (collection.insertBelow document) effect) :
    Realizes id (collection.insert document) (effect >>= collection.placing) := by
  have hinsert : collection.insert document =
      (fun stored => stored.getLast?.getD .null) <$> (Prod.fst <$> settle collection.graph (do
        let prepared ← collection.insertBelow document
        Insertion.ofAccess (collection.verify prepared)
        Insertion.ofAccess (Access.insertMany collection.name [prepared]))) := by
    simp only [insert, insertMany, prepareAll, prepare_eq, map_eq_pure_bind, bind_assoc, pure_bind]
  have hmany : ∀ prepared, Realizes id (Access.insertMany collection.name [prepared])
      ((fun stored => [stored]) <$> performing fun store =>
        store.insertOne collection.name prepared) := by
    intro prepared
    rw [← performing_insertMany_single]
    exact realizes_call _ _ _
  have heffect : effect >>= collection.placing = (fun stored => stored.getLast?.getD .null) <$>
      (effect >>= fun prepared => (collection.verify prepared).effect >>= fun _ =>
        (fun stored => [stored]) <$> performing fun store =>
          store.insertOne collection.name prepared) := by
    simp only [map_eq_pure_bind, bind_assoc, pure_bind, List.getLast?_singleton, Option.getD_some,
      bind_pure]
    rfl
  rw [hinsert, heffect]
  refine Realizes.map (realizes_settle (h.bind fun prepared => ?_) collection.graph) _
  exact (Insertion.realizes_ofAccess (reads_verify collection prepared).realizes).bind fun _ =>
    Insertion.realizes_ofAccess (hmany prepared)

end Collection

end LinkedDocs
