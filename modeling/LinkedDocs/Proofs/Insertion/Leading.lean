import LinkedDocs.Collection.Insertion
import LinkedDocs.Proofs.Store.Finding

namespace LinkedDocs

/-- Whether a computation leads from a state to a value and a state that meet one condition or, when
it fails, to a state that meets another one. -/
structure Leads {σ α : Type} (computation : ExceptT Error (StateM σ) α) (state : σ)
    (ok : α → σ → Prop) (fail : σ → Prop) : Prop where
  of_ok : ∀ value after, computation.run.run state = (.ok value, after) → ok value after
  of_error : ∀ error after, computation.run.run state = (.error error, after) → fail after

section Leads

variable {σ α β : Type} {state : σ} {ok : α → σ → Prop} {fail : σ → Prop}

theorem leads_of_run {computation : ExceptT Error (StateM σ) α} {result : Except Error α}
    {after : σ} (hrun : computation.run.run state = (result, after))
    (hok : ∀ value, result = .ok value → ok value after)
    (hfail : ∀ error, result = .error error → fail after) : Leads computation state ok fail where
  of_ok := by
    intro value other h
    cases hrun.symm.trans h
    exact hok value rfl
  of_error := by
    intro error other h
    cases hrun.symm.trans h
    exact hfail error rfl

theorem Leads.pure {value : α} (h : ok value state) : Leads (pure value) state ok fail :=
  leads_of_run rfl (by rintro _ ⟨⟩; exact h) (by rintro _ ⟨⟩)

theorem Leads.throw {error : Error} (h : fail state) : Leads (throw error) state ok fail :=
  leads_of_run rfl (by rintro _ ⟨⟩) (by rintro _ ⟨⟩; exact h)

theorem Leads.bind {first : ExceptT Error (StateM σ) α} {next : α → ExceptT Error (StateM σ) β}
    {ok : β → σ → Prop}
    (h : Leads first state (fun value after => Leads (next value) after ok fail) fail) :
    Leads (first >>= next) state ok fail := by
  have hbind := run_run_bind first next state
  cases hrun : first.run.run state with
  | mk result after =>
    rw [hrun] at hbind
    cases result with
    | error error =>
      exact leads_of_run hbind (by rintro _ ⟨⟩) fun _ _ => h.of_error error after hrun
    | ok value =>
      have hnext := h.of_ok value after hrun
      exact leads_of_run (hbind.trans rfl) (fun other hother => hnext.of_ok other _ (Prod.ext hother rfl))
        fun other hother => hnext.of_error other _ (Prod.ext hother rfl)

theorem Leads.mono {computation : ExceptT Error (StateM σ) α} {ok' : α → σ → Prop}
    {fail' : σ → Prop} (h : Leads computation state ok fail)
    (hok : ∀ value after, ok value after → ok' value after)
    (hfail : ∀ after, fail after → fail' after) : Leads computation state ok' fail' where
  of_ok := fun value after hrun => hok value after (h.of_ok value after hrun)
  of_error := fun error after hrun => hfail after (h.of_error error after hrun)

theorem Leads.and_run {computation : ExceptT Error (StateM σ) α}
    (h : Leads computation state ok fail) :
    Leads computation state
      (fun value after => ok value after ∧ computation.run.run state = (.ok value, after)) fail where
  of_ok := fun value after hrun => ⟨h.of_ok value after hrun, hrun⟩
  of_error := h.of_error

end Leads

section Access

variable {α : Type} {session : Session} {ok : α → Session → Prop} {fail : Session → Prop}

theorem Access.Reads.leads {access : Access α} (hreads : access.Reads)
    (hok : ∀ value calls, access.answer session = .ok value → ok value { session with calls })
    (hfail : ∀ calls, fail { session with calls }) : Leads access session ok fail := by
  obtain ⟨read, hread⟩ := hreads
  obtain ⟨calls, hcalls⟩ := hread session
  have hanswer : access.answer session = read session.store session.refused :=
    congrArg Prod.fst hcalls
  refine leads_of_run hcalls (fun value hvalue => ?_) fun _ _ => hfail calls
  exact hok value calls (hanswer.trans hvalue)

/-- A call to a store that refuses nothing. -/
theorem leads_call {collection : String} {request : StoreRequest}
    {perform : Store → Except Error α × Store} (hrefused : session.refused = [])
    {result : Except Error α} {after : Store} (hperform : perform session.store = (result, after))
    (hok : ∀ value calls, result = .ok value → ok value { session with calls, store := after })
    (hfail : ∀ error calls, result = .error error → fail { session with calls, store := after }) :
    Leads (Access.call collection request perform) session ok fail := by
  have hnot : ¬session.refused.contains request.method := by simp [hrefused]
  have hrun := Access.runIn_call collection request perform session
  rw [if_neg hnot, hperform] at hrun
  exact leads_of_run hrun (fun value hvalue => hok value _ hvalue) fun error herror =>
    hfail error _ herror

end Access

namespace Insertion

variable {α : Type} {state : InsertionState} {ok : α → InsertionState → Prop}
  {fail : InsertionState → Prop}

theorem run_ofAccess (access : Access α) (state : InsertionState) :
    (ofAccess access).run.run state =
      ((access.runIn state.session).1, { state with session := (access.runIn state.session).2 }) :=
  rfl

theorem leads_ofAccess {access : Access α}
    (h : Leads access state.session (fun value session => ok value { state with session })
      fun session => fail { state with session }) :
    Leads (ofAccess access) state ok fail := by
  refine leads_of_run (run_ofAccess access state) (fun value hvalue => ?_) fun error herror => ?_
  · exact h.of_ok value _ (Prod.ext hvalue rfl)
  · exact h.of_error error _ (Prod.ext herror rfl)

theorem leads_record {dependency : Dependency} {ok : Unit → InsertionState → Prop}
    (h : ok () { state with dependencies := state.dependencies ++ [dependency] }) :
    Leads (record dependency) state ok fail :=
  leads_of_run rfl (fun _ _ => h) (by rintro _ ⟨⟩)

end Insertion

section Settle

variable {α : Type} {graph : Graph} {insertion : Insertion α} {session : Session}
  {state : InsertionState}

variable [Platform]

theorem runIn_settle_of_ok {value : α}
    (hrun : insertion.run.run { session } = (.ok value, state)) :
    (Collection.settle graph insertion).runIn session =
      (.ok (value, state.dependencies), state.session) := by
  unfold Collection.settle
  simp only [Access.runIn, bind_pure_comp, ExceptT.run_mk, StateT.run_bind, StateT.run_get,
    pure_bind, hrun, StateT.run_map, StateT.run_set, map_pure]
  rfl

theorem runIn_settle_of_error {error : Error}
    (hrun : insertion.run.run { session } = (.error error, state)) :
    (Collection.settle graph insertion).runIn session =
      (.error error, ((rollBack graph state.dependencies).runIn state.session).2) := by
  unfold Collection.settle
  simp only [bind_pure_comp, ExceptT.run_mk, StateT.run_bind, StateT.run_get, pure_bind, hrun,
    StateT.run_set, StateT.run_map, Access.runIn]
  rfl

/-- An insertion that is settled: when it fails, the nested documents are deleted. -/
theorem leads_settle {ok : α × List Dependency → Session → Prop} {fail : Session → Prop}
    (h : Leads insertion { session } (fun value state => ok (value, state.dependencies) state.session)
      fun state => Leads (rollBack graph state.dependencies) state.session (fun _ => fail) fail) :
    Leads (Collection.settle graph insertion) session ok fail := by
  cases hrun : insertion.run.run { session } with
  | mk result state =>
    cases result with
    | ok value =>
      exact leads_of_run (runIn_settle_of_ok hrun) (by rintro _ ⟨⟩; exact h.of_ok value state hrun)
        (by rintro _ ⟨⟩)
    | error error =>
      have hback := h.of_error error state hrun
      refine leads_of_run (runIn_settle_of_error hrun) (by rintro _ ⟨⟩) fun _ _ => ?_
      cases hresult : (rollBack graph state.dependencies).runIn state.session with
      | mk outcome after =>
        cases outcome with
        | ok value => exact hback.of_ok value after hresult
        | error other => exact hback.of_error other after hresult

end Settle

end LinkedDocs
