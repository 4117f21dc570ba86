import LinkedDocs.Proofs.Outcome
import LinkedDocs.Store.Session
import Mathlib.Tactic.Choose

/-!
Computations that only read the store. Their answer depends on the stored documents and on the
methods that are refused, and not on the calls made before; so a sequence of them is a sequence of
answers in one and the same session.
-/

namespace LinkedDocs.Access

variable {α β : Type}

theorem runIn_throw (error : Error) (session : Session) :
    (throw error : Access α).runIn session = (.error error, session) := rfl

theorem runIn_get (session : Session) : (get : Access Session).runIn session = (.ok session, session) :=
  rfl

theorem runIn_modify (change : Session → Session) (session : Session) :
    (modify change : Access Unit).runIn session = (.ok (), change session) := rfl

theorem runIn_bind (access : Access α) (next : α → Access β) (session : Session) :
    (access >>= next).runIn session =
      match access.runIn session with
      | (.ok value, after) => (next value).runIn after
      | (.error error, after) => (.error error, after) := by
  change ExceptT.bindCont next (access session).1 (access session).2 = _
  simp only [runIn, ExceptT.run, StateT.run]
  obtain ⟨result, after⟩ := access session
  cases result <;> rfl

theorem runIn_call (collection : String) (request : StoreRequest)
    (perform : Store → Except Error α × Store) (session : Session) :
    (call collection request perform).runIn session =
      if session.refused.contains request.method then
        (.error (.store collection (.refused request.method)),
          { session with calls := ⟨collection, request⟩ :: session.calls })
      else
        ((perform session.store).1,
          { session with
            calls := ⟨collection, request⟩ :: session.calls
            store := (perform session.store).2 }) := by
  unfold call
  simp only [runIn_bind, runIn_modify, runIn_get]
  by_cases hrefused : session.refused.contains request.method
  · simp only [hrefused, if_true, runIn_bind, runIn_throw]
  · simp only [hrefused, Bool.false_eq_true, if_false, runIn_bind, runIn_modify]
    cases (perform session.store).1 <;> rfl

theorem runIn_bind_eq_ok {access : Access α} {next : α → Access β}
    {session after : Session} {value : β} (h : (access >>= next).runIn session = (.ok value, after)) :
    ∃ first middle, access.runIn session = (.ok first, middle) ∧
      (next first).runIn middle = (.ok value, after) :=
  run_run_bind_eq_ok h

theorem runIn_map (access : Access α) (change : α → β) (session : Session) :
    (do return change (← access) : Access β).runIn session =
      ((access.runIn session).1.map change, (access.runIn session).2) := by
  rw [runIn_bind]
  obtain ⟨result, after⟩ := access.runIn session
  cases result <;> rfl

theorem runIn_map_eq_error {access : Access α} {change : α → β} {session after : Session}
    {error : Error}
    (h : (do return change (← access) : Access β).runIn session = (.error error, after)) :
    access.runIn session = (.error error, after) := by
  rw [runIn_map] at h
  cases hrun : access.runIn session with
  | mk result middle =>
    rw [hrun] at h
    cases result with
    | error other =>
      cases h
      rfl
    | ok value => cases h

theorem runIn_call_eq_ok {collection : String} {request : StoreRequest}
    {perform : Store → Except Error α × Store} {session after : Session} {value : α}
    (h : (call collection request perform).runIn session = (.ok value, after)) :
    perform session.store = (.ok value, after.store) ∧
      session.refused.contains request.method = false ∧ after.refused = session.refused := by
  rw [runIn_call] at h
  split at h
  case isTrue => cases h
  case isFalse hallowed =>
    obtain ⟨hresult, rfl⟩ := Prod.mk.inj h
    exact ⟨Prod.ext hresult rfl, Bool.eq_false_iff.2 hallowed, rfl⟩

def answer (access : Access α) (session : Session) : Except Error α :=
  (access.runIn session).1

/-- What a computation returns, whatever the reason of a failure. -/
def result? (access : Access α) (session : Session) : Option α :=
  (access.answer session).toOption

theorem result?_eq_some_iff {access : Access α} {session : Session} {value : α} :
    access.result? session = some value ↔ access.answer session = .ok value := by
  rw [result?]
  cases access.answer session <;> simp [Except.toOption]

theorem exists_runIn_of_result? {access : Access α} {session : Session} {value : α}
    (h : access.result? session = some value) :
    ∃ after, access.runIn session = (.ok value, after) := by
  rw [result?, answer] at h
  cases hrun : access.runIn session with
  | mk result after =>
    rw [hrun] at h
    cases result with
    | error error => cases h
    | ok found =>
      cases h
      exact ⟨after, rfl⟩

/-- A computation that records its calls and leaves the store as it is. -/
def Reads (access : Access α) : Prop :=
  ∃ read : Store → List StoreMethod → Except Error α, ∀ session : Session, ∃ calls,
    access.runIn session = (read session.store session.refused, { session with calls })

theorem Reads.pure (value : α) : (pure value : Access α).Reads :=
  ⟨fun _ _ => .ok value, fun session => ⟨session.calls, rfl⟩⟩

theorem Reads.throw (error : Error) : (throw error : Access α).Reads :=
  ⟨fun _ _ => .error error, fun session => ⟨session.calls, rfl⟩⟩

theorem Reads.bind {access : Access α} {next : α → Access β} (haccess : access.Reads)
    (hnext : ∀ value, (next value).Reads) : (access >>= next).Reads := by
  obtain ⟨read, hread⟩ := haccess
  choose others hothers using hnext
  refine ⟨fun store refused => read store refused >>= fun value => others value store refused,
    fun session => ?_⟩
  obtain ⟨calls, hcalls⟩ := hread session
  rw [runIn_bind, hcalls]
  cases hvalue : read session.store session.refused with
  | error error => exact ⟨calls, by simp [Bind.bind, Except.bind, hvalue]⟩
  | ok value =>
    obtain ⟨more, hmore⟩ := hothers value { session with calls }
    exact ⟨more, by simp [Bind.bind, Except.bind, hvalue, hmore]⟩

theorem Reads.call (collection : String) (request : StoreRequest)
    (look : Store → Except Error α) :
    (call collection request fun store => (look store, store)).Reads := by
  refine ⟨fun store refused =>
    if refused.contains request.method then .error (.store collection (.refused request.method))
    else look store, fun session => ⟨⟨collection, request⟩ :: session.calls, ?_⟩⟩
  rw [runIn_call]
  by_cases hrefused : session.refused.contains request.method <;> simp only [hrefused] <;> rfl

section

variable [Platform]

theorem Reads.find (collection : String) (filter : Json) (options : FindOptions) :
    (find collection filter options).Reads :=
  .call _ _ _

theorem Reads.count (collection : String) (filter : Json) (limit : Option Nat) :
    (count collection filter limit).Reads :=
  .call _ _ _

theorem Reads.findOne (collection : String) (filter : Json) :
    (findOne collection filter).Reads :=
  .bind (.find _ _ _) fun _ => .pure _

end

theorem Reads.store_runIn {access : Access α} (haccess : access.Reads) (session : Session) :
    (access.runIn session).2.store = session.store := by
  obtain ⟨_, hread⟩ := haccess
  obtain ⟨calls, hcalls⟩ := hread session
  rw [hcalls]

theorem Reads.exists_runIn_of_answer {access : Access α} (haccess : access.Reads) {session : Session}
    {value : α} (h : access.answer session = .ok value) :
    ∃ calls, access.runIn session = (.ok value, { session with calls }) := by
  obtain ⟨read, hread⟩ := haccess
  obtain ⟨calls, hcalls⟩ := hread session
  rw [answer, hcalls] at h
  exact ⟨calls, hcalls.trans (Prod.ext h rfl)⟩

theorem Reads.of_runIn {access : Access α} (haccess : access.Reads)
    {session after : Session} {value : α} (h : access.runIn session = (.ok value, after)) :
    access.answer session = .ok value ∧ after.store = session.store ∧
      after.refused = session.refused := by
  have hanswer : access.answer session = .ok value := congrArg Prod.fst h
  obtain ⟨calls, hcalls⟩ := haccess.exists_runIn_of_answer hanswer
  cases h.symm.trans hcalls
  exact ⟨hanswer, rfl, rfl⟩

theorem Reads.answer_congr {access : Access α} (haccess : access.Reads) {session other : Session}
    (hstore : session.store = other.store) (hrefused : session.refused = other.refused) :
    access.answer session = access.answer other := by
  obtain ⟨_, hread⟩ := haccess
  obtain ⟨_, hcalls⟩ := hread session
  obtain ⟨_, hothers⟩ := hread other
  simp only [answer, hcalls, hothers, hstore, hrefused]

section Answer

variable {session : Session}

@[simp]
theorem answer_pure (value : α) : (pure value : Access α).answer session = .ok value := rfl

/-- What follows a computation that only reads answers as if it came first. -/
theorem Reads.answer_bind {access : Access α} (haccess : access.Reads) {next : α → Access β}
    (hnext : ∀ value, (next value).Reads) :
    (access >>= next).answer session =
      access.answer session >>= fun value => (next value).answer session := by
  obtain ⟨read, hread⟩ := haccess
  obtain ⟨calls, hcalls⟩ := hread session
  simp only [answer, runIn_bind, hcalls]
  cases read session.store session.refused with
  | error error => rfl
  | ok value => exact (hnext value).answer_congr rfl rfl

theorem Reads.answer_bind_eq_ok_iff {access : Access α} (haccess : access.Reads)
    {next : α → Access β} (hnext : ∀ value, (next value).Reads) {result : β} :
    (access >>= next).answer session = .ok result ↔
      ∃ value, access.answer session = .ok value ∧ (next value).answer session = .ok result := by
  rw [haccess.answer_bind hnext, bind_eq_ok_iff]

/-- A list whose first element and whose rest are both read. -/
theorem Reads.answer_cons_eq_ok_iff {first : Access α} {rest : Access (List β)}
    (hfirst : first.Reads) (hrest : rest.Reads) {make : α → β} {results : List β} :
    (do
      let value ← first
      return make value :: (← rest)).answer session = .ok results ↔
      ∃ value others, first.answer session = .ok value ∧ rest.answer session = .ok others ∧
        results = make value :: others := by
  rw [hfirst.answer_bind_eq_ok_iff fun _ => .bind hrest fun _ => .pure _]
  simp only [hrest.answer_bind_eq_ok_iff fun _ => .pure _, answer_pure, Except.ok.injEq]
  constructor
  · rintro ⟨value, hvalue, others, hothers, rfl⟩
    exact ⟨value, others, hvalue, hothers, rfl⟩
  · rintro ⟨value, others, hvalue, hothers, rfl⟩
    exact ⟨value, hvalue, others, hothers, rfl⟩

theorem Reads.result?_bind {access : Access α} (haccess : access.Reads) {next : α → Access β}
    (hnext : ∀ value, (next value).Reads) :
    (access >>= next).result? session =
      (access.result? session).bind fun value => (next value).result? session := by
  simp only [result?, haccess.answer_bind hnext]
  cases access.answer session <;> rfl

end Answer

end LinkedDocs.Access
