import Mathlib.Data.List.Forall2

namespace LinkedDocs

variable {ε ε' α β : Type}

@[simp]
theorem ok_bind (value : α) (next : α → Except ε β) : (Except.ok value >>= next) = next value := rfl

@[simp]
theorem error_bind (error : ε) (next : α → Except ε β) :
    (Except.error error >>= next) = .error error := rfl

@[simp]
theorem pure_eq_ok (value : α) : (pure value : Except ε α) = .ok value := rfl

theorem bind_eq_ok_iff {outcome : Except ε α} {next : α → Except ε β} {result : β} :
    (outcome >>= next) = .ok result ↔ ∃ value, outcome = .ok value ∧ next value = .ok result := by
  cases outcome <;> simp

theorem map_eq_ok_iff {outcome : Except ε α} {change : α → β} {result : β} :
    outcome.map change = .ok result ↔ ∃ value, outcome = .ok value ∧ change value = result := by
  cases outcome <;> simp [Except.map]

theorem map_eq_error_iff {outcome : Except ε α} {change : α → β} {error : ε} :
    outcome.map change = .error error ↔ outcome = .error error := by
  cases outcome <;> simp [Except.map]

theorem mapError_eq_error_iff {outcome : Except ε α} {change : ε → ε'} {error : ε'} :
    outcome.mapError change = .error error ↔
      ∃ fault, outcome = .error fault ∧ change fault = error := by
  cases outcome <;> simp [Except.mapError]

theorem mapError_eq_ok_iff {outcome : Except ε α} {change : ε → ε'} {result : α} :
    outcome.mapError change = .ok result ↔ outcome = .ok result := by
  cases outcome with
  | error fault => constructor <;> intro h <;> cases h
  | ok value =>
    constructor
    · rintro ⟨⟩
      rfl
    · rintro ⟨⟩
      rfl

/-- A check of the value of an outcome, as it is evaluated on fixed input, says that there is one. -/
theorem exists_of_any_toOption {outcome : Except ε α} {passes : α → Bool}
    (h : outcome.toOption.any passes) : ∃ value, outcome = .ok value ∧ passes value := by
  cases outcome with
  | error error => cases h
  | ok value => exact ⟨value, rfl, h⟩

theorem run_run_bind {σ : Type} (first : ExceptT ε (StateM σ) α)
    (next : α → ExceptT ε (StateM σ) β) (state : σ) :
    (first >>= next).run.run state =
      match first.run.run state with
      | (.ok value, after) => (next value).run.run after
      | (.error error, after) => (.error error, after) := by
  change ExceptT.bindCont next (first state).1 (first state).2 = _
  simp only [ExceptT.run, StateT.run]
  obtain ⟨result, after⟩ := first state
  cases result <;> rfl

theorem run_run_bind_eq_ok {σ : Type} {first : ExceptT ε (StateM σ) α}
    {next : α → ExceptT ε (StateM σ) β} {state after : σ} {result : β}
    (h : (first >>= next).run.run state = (.ok result, after)) :
    ∃ value middle, first.run.run state = (.ok value, middle) ∧
      (next value).run.run middle = (.ok result, after) := by
  rw [run_run_bind] at h
  cases hrun : first.run.run state with
  | mk outcome middle =>
    rw [hrun] at h
    cases outcome with
    | error error => cases h
    | ok value => exact ⟨value, middle, rfl, h⟩

theorem forall₂_trans {α β γ : Type} {first : α → β → Prop} {second : β → γ → Prop}
    {both : α → γ → Prop}
    (hboth : ∀ old middle new, first old middle → second middle new → both old new)
    {olds : List α} {middles : List β} {news : List γ} (hfirst : List.Forall₂ first olds middles)
    (hsecond : List.Forall₂ second middles news) : List.Forall₂ both olds news := by
  induction hfirst generalizing news with
  | nil =>
    cases hsecond
    exact .nil
  | cons hold _ ih =>
    obtain _ | ⟨hnew, hrest⟩ := hsecond
    exact .cons (hboth _ _ _ hold hnew) (ih hrest)

theorem exists_of_forall₂ {related : α → β → Prop} {olds : List α} {news : List β}
    (h : List.Forall₂ related olds news) : ∀ new ∈ news, ∃ old ∈ olds, related old new := by
  induction h with
  | nil => exact fun _ hmem => absurd hmem List.not_mem_nil
  | cons hfirst _ ih =>
    refine List.forall_mem_cons.2 ⟨⟨_, List.mem_cons_self, hfirst⟩, fun new hnew => ?_⟩
    obtain ⟨old, hold, hrelated⟩ := ih new hnew
    exact ⟨old, List.mem_cons_of_mem _ hold, hrelated⟩

theorem forall₂_concat_left_iff {related : α → β → Prop} {olds : List α} {old : α}
    {news : List β} :
    List.Forall₂ related (olds ++ [old]) news ↔
      ∃ init last, List.Forall₂ related olds init ∧ related old last ∧ news = init ++ [last] := by
  induction olds generalizing news with
  | nil => simp [List.forall₂_cons_left_iff]
  | cons first rest ih =>
    rw [List.cons_append, List.forall₂_cons_left_iff]
    simp only [ih, List.forall₂_cons_left_iff]
    constructor
    · rintro ⟨new, _, hnew, ⟨init, last, hinit, hlast, rfl⟩, rfl⟩
      exact ⟨new :: init, last, ⟨new, init, hnew, hinit, rfl⟩, hlast, rfl⟩
    · rintro ⟨_, last, ⟨new, init, hnew, hinit, rfl⟩, hlast, rfl⟩
      exact ⟨new, init ++ [last], hnew, ⟨init, last, hinit, hlast, rfl⟩, rfl⟩

end LinkedDocs
