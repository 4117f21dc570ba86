import LinkedDocs.Proofs.Store.Finding

namespace LinkedDocs

namespace Access

variable {α β : Type} {session : Session}

/-- A computation makes some calls, the first one first, and returns a value. -/
def Performs (access : Access α) (session : Session) (calls : List StoreCall) (value : α) : Prop :=
  ∀ before, access.runIn { session with calls := before } =
    (.ok value, { session with calls := calls.reverse ++ before })

theorem Performs.runIn {access : Access α} {calls : List StoreCall} {value : α}
    (h : access.Performs session calls value) :
    access.runIn session = (.ok value, { session with calls := calls.reverse ++ session.calls }) :=
  h session.calls

theorem performs_pure (value : α) : (pure value : Access α).Performs session [] value :=
  fun _ => rfl

theorem Performs.bind {access : Access α} {next : α → Access β} {calls more : List StoreCall}
    {value : α} {result : β} (h : access.Performs session calls value)
    (hnext : (next value).Performs session more result) :
    (access >>= next).Performs session (calls ++ more) result := by
  intro before
  rw [runIn_bind, h before]
  dsimp only
  rw [hnext, List.reverse_append, List.append_assoc]

theorem Performs.map {access : Access α} {calls : List StoreCall} {value : α}
    (h : access.Performs session calls value) (f : α → β) :
    (access >>= fun value => pure (f value)).Performs session calls (f value) := by
  have hboth : (access >>= fun value => pure (f value)).Performs session (calls ++ []) (f value) :=
    h.bind (performs_pure (f value))
  rwa [List.append_nil] at hboth

/-- What is done with the stored documents in view does not depend on the calls made before. -/
theorem Performs.get_bind {next : Session → Access β} {calls : List StoreCall} {result : β}
    (h : ∀ before, (next { session with calls := before }).Performs session calls result) :
    (get >>= next).Performs session calls result := by
  intro before
  rw [runIn_bind, runIn_get]
  exact h before before

variable [Platform]

theorem performs_find (hrefused : session.refused.contains .find = false) {collection : String}
    {filter : Json} {options : FindOptions} {found : List Json}
    (h : session.store.find collection filter options = .ok found) :
    (Access.find collection filter options).Performs session
      [⟨collection, .find filter options⟩] found := by
  intro before
  rw [Access.find, runIn_call]
  simp only [StoreRequest.method, hrefused, h]
  rfl

end Access

end LinkedDocs
