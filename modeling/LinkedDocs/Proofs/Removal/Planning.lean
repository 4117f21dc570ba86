import LinkedDocs.Collection.Removal
import LinkedDocs.Proofs.Store.Finding

namespace LinkedDocs

namespace Planning

variable {α β ι : Type}

/-- A planning computation that only reads the store, whatever its draft. -/
def Reads (planning : Planning α) : Prop :=
  ∀ draft, (planning.run draft).Reads

theorem Reads.pure (value : α) : Reads (pure value : Planning α) := fun _ => .pure _

theorem Reads.throw (error : Error) : Reads (throw error : Planning α) := fun _ => .throw _

theorem Reads.lift {access : Access α} (h : access.Reads) :
    Reads (liftM access : Planning α) := fun _ => .bind h fun _ => .pure _

theorem Reads.bind {planning : Planning α} {next : α → Planning β} (hplanning : planning.Reads)
    (hnext : ∀ value, (next value).Reads) : Reads (planning >>= next) := fun draft =>
  .bind (hplanning draft) fun result => hnext result.1 result.2

theorem Reads.schedule (operation : Operation) : Reads (schedule operation) := fun _ => .pure _

theorem Reads.mark (collection : String) (keys : List Json) : Reads (mark collection keys) :=
  fun _ => .pure _

theorem Reads.forM {items : List ι} {body : ι → Planning Unit} (h : ∀ item, (body item).Reads) :
    Reads (items.forM body) := by
  induction items with
  | nil => exact .pure _
  | cons first rest ih => exact .bind (h first) fun _ => ih

/-- What a planning computation makes of a draft. -/
def outcome (planning : Planning α) (session : Session) (draft : RemovalDraft) :
    Except Error (α × RemovalDraft) :=
  (planning.run draft).answer session

/-- Whether the outcome of a computation meets one condition if it succeeds and another one if it
fails. -/
def Meets (planning : Planning α) (session : Session) (draft : RemovalDraft)
    (ok : α → RemovalDraft → Prop) (fail : Error → Prop) : Prop :=
  match planning.outcome session draft with
  | .ok (value, after) => ok value after
  | .error error => fail error

section Meets

variable {session : Session} {draft : RemovalDraft} {fail : Error → Prop}

theorem outcome_bind {planning : Planning α} {next : α → Planning β} (hplanning : planning.Reads)
    (hnext : ∀ value, (next value).Reads) :
    (planning >>= next).outcome session draft =
      planning.outcome session draft >>= fun result => (next result.1).outcome session result.2 :=
  (hplanning draft).answer_bind fun result => hnext result.1 result.2

theorem outcome_lift {access : Access α} (hreads : access.Reads) :
    outcome (liftM access) session draft =
      access.answer session >>= fun value => .ok (value, draft) :=
  hreads.answer_bind fun _ => .pure _

theorem Meets.pure {ok : α → RemovalDraft → Prop} {value : α} (h : ok value draft) :
    Meets (pure value) session draft ok fail := h

theorem Meets.throw {ok : α → RemovalDraft → Prop} {error : Error} (h : fail error) :
    Meets (throw error) session draft ok fail := h

theorem Meets.schedule {ok : Unit → RemovalDraft → Prop} {operation : Operation}
    (h : ok () { draft with operations := draft.operations ++ [operation] }) :
    Meets (schedule operation) session draft ok fail := h

theorem Meets.of_forall {planning : Planning α} {ok : α → RemovalDraft → Prop}
    (hok : ∀ value after, ok value after) (hfail : ∀ error, fail error) :
    planning.Meets session draft ok fail := by
  unfold Meets
  split
  · exact hok _ _
  · exact hfail _

theorem Meets.mono {planning : Planning α} {ok ok' : α → RemovalDraft → Prop}
    (h : planning.Meets session draft ok fail)
    (hok : ∀ value after, ok value after → ok' value after) :
    planning.Meets session draft ok' fail := by
  unfold Meets at h ⊢
  cases houtcome : planning.outcome session draft with
  | error error => simpa [houtcome] using h
  | ok result =>
    rw [houtcome] at h
    exact hok _ _ h

theorem Meets.and {planning : Planning α} {ok other : α → RemovalDraft → Prop}
    {fails : Error → Prop} (h : planning.Meets session draft ok fail)
    (hother : planning.Meets session draft other fails) :
    planning.Meets session draft (fun value after => ok value after ∧ other value after) fail := by
  unfold Meets at h hother ⊢
  cases houtcome : planning.outcome session draft with
  | error error => simpa [houtcome] using h
  | ok result =>
    rw [houtcome] at h hother
    exact ⟨h, hother⟩

theorem Meets.bind {planning : Planning α} {next : α → Planning β} {ok : β → RemovalDraft → Prop}
    (hplanning : planning.Reads) (hnext : ∀ value, (next value).Reads)
    (h : planning.Meets session draft (fun value after => (next value).Meets session after ok fail)
      fail) : (planning >>= next).Meets session draft ok fail := by
  unfold Meets at h ⊢
  rw [outcome_bind hplanning hnext]
  cases houtcome : planning.outcome session draft with
  | error error => simpa [houtcome] using h
  | ok result =>
    rw [houtcome] at h
    exact h

/-- A call to the store that answers with a value. -/
theorem Meets.lift {access : Access α} {ok : α → RemovalDraft → Prop} (hreads : access.Reads)
    (hok : ∀ value, access.answer session = .ok value → ok value draft)
    (hfail : ∀ error, access.answer session = .error error → fail error) :
    Meets (liftM access) session draft ok fail := by
  unfold Meets
  rw [outcome_lift hreads]
  cases hanswer : access.answer session with
  | error error => exact hfail error hanswer
  | ok value => exact hok value hanswer

/-- The rule for loops: every round extends the draft and does its item, and what is done stays
done. -/
theorem Meets.forM {items : List ι} {body : ι → Planning Unit}
    {grows : RemovalDraft → RemovalDraft → Prop} (done : ι → RemovalDraft → Prop)
    (hreads : ∀ item, (body item).Reads) (hrefl : ∀ draft, grows draft draft)
    (htrans : ∀ first second third, grows first second → grows second third →
      grows first third)
    (hdone : ∀ item before after, grows before after → done item before → done item after)
    (hbody : ∀ item ∈ items, ∀ before, grows draft before → (body item).Meets session before
      (fun _ after => grows before after ∧ done item after) fail) :
    Meets (items.forM body) session draft
      (fun _ after => grows draft after ∧ ∀ item ∈ items, done item after) fail := by
  induction items generalizing draft with
  | nil => exact ⟨hrefl draft, fun _ hmem => absurd hmem List.not_mem_nil⟩
  | cons first rest ih =>
    refine .bind (hreads first) (fun _ => .forM hreads) ?_
    refine (hbody first List.mem_cons_self draft (hrefl draft)).mono ?_
    rintro _ middle ⟨hmiddle, hfirst⟩
    refine (ih fun item hitem before hbefore => hbody item (List.mem_cons_of_mem _ hitem) before
      (htrans _ _ _ hmiddle hbefore)).mono ?_
    rintro _ after ⟨hafter, hrest⟩
    exact ⟨htrans _ _ _ hmiddle hafter,
      List.forall_mem_cons.2 ⟨hdone _ _ _ hafter hfirst, hrest⟩⟩

theorem Meets.forM_grows {items : List ι} {body : ι → Planning Unit}
    {grows : RemovalDraft → RemovalDraft → Prop} (hreads : ∀ item, (body item).Reads)
    (hrefl : ∀ draft, grows draft draft)
    (htrans : ∀ first second third, grows first second → grows second third → grows first third)
    (hbody : ∀ item ∈ items, ∀ before, grows draft before →
      (body item).Meets session before (fun _ after => grows before after) fail) :
    Meets (items.forM body) session draft (fun _ after => grows draft after) fail := by
  refine (Meets.forM (fun _ _ => True) hreads hrefl htrans (fun _ _ _ _ => id) ?_).mono
    fun _ _ h => h.1
  exact fun item hitem before hbefore =>
    (hbody item hitem before hbefore).mono fun _ _ h => ⟨h, trivial⟩

theorem outcome_forM_cons {first : ι} {rest : List ι} {body : ι → Planning Unit}
    (hreads : ∀ item, (body item).Reads) :
    ((first :: rest).forM body).outcome session draft =
      (body first).outcome session draft >>= fun result =>
        (rest.forM body).outcome session result.2 :=
  outcome_bind (hreads first) fun _ => .forM hreads

/-- Two loops whose rounds agree on every draft that they can reach agree. -/
theorem outcome_forM_congr (grows : RemovalDraft → RemovalDraft → Prop) (fail : Error → Prop)
    {items : List ι} {body other : ι → Planning Unit} (hreads : ∀ item, (body item).Reads)
    (hotherReads : ∀ item, (other item).Reads) (hrefl : ∀ draft, grows draft draft)
    (htrans : ∀ first second third, grows first second → grows second third → grows first third)
    (hbody : ∀ item ∈ items, ∀ before, grows draft before →
      (body item).Meets session before (fun _ after => grows before after) fail)
    (hsame : ∀ item ∈ items, ∀ before, grows draft before →
      (body item).outcome session before = (other item).outcome session before) :
    (items.forM body).outcome session draft = (items.forM other).outcome session draft := by
  induction items generalizing draft with
  | nil => rfl
  | cons first rest ih =>
    have hmeets := hbody first List.mem_cons_self draft (hrefl draft)
    rw [outcome_forM_cons hreads, outcome_forM_cons hotherReads,
      ← hsame first List.mem_cons_self draft (hrefl draft)]
    unfold Meets at hmeets
    cases hfirst : (body first).outcome session draft with
    | error error => rfl
    | ok result =>
      rw [hfirst] at hmeets
      rw [ok_bind, ok_bind]
      exact ih
        (fun item hitem before hbefore =>
          hbody item (List.mem_cons_of_mem _ hitem) before (htrans _ _ _ hmeets hbefore))
        fun item hitem before hbefore =>
          hsame item (List.mem_cons_of_mem _ hitem) before (htrans _ _ _ hmeets hbefore)

end Meets

end Planning

end LinkedDocs
