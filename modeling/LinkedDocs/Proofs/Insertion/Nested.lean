import LinkedDocs.Proofs.Insertion.Extension

namespace LinkedDocs

open Json Store

namespace Collection

mutual

/-- Whether the documents nested in a value have no ids other than scalars. -/
def nestsScalarIds (collection : Collection) (stack : Stack) (value : Json) : Bool :=
  match value with
  | .object fields =>
    match collection.foreignKeyAt? stack with
    | none => nestsScalarIdsFields collection stack fields
    | some foreignKey =>
      offersId (.object fields) &&
        nestsScalarIdsFields (collection.target foreignKey) [] fields
  | .array items => nestsScalarIdsItems collection stack 0 items
  | .null => true
  | .bool _ => true
  | .number _ => true
  | .string _ => true
termination_by structural value

def nestsScalarIdsItems (collection : Collection) (stack : Stack) (position : Nat)
    (items : List Json) : Bool :=
  match items with
  | [] => true
  | item :: rest =>
    nestsScalarIds collection (stack ++ [.index position]) item &&
      nestsScalarIdsItems collection stack (position + 1) rest
termination_by structural items

def nestsScalarIdsFields (collection : Collection) (stack : Stack)
    (fields : List (String × Json)) : Bool :=
  match fields with
  | [] => true
  | (name, value) :: rest =>
    nestsScalarIds collection (stack ++ [.key name]) value &&
      nestsScalarIdsFields collection stack rest
termination_by structural fields

end

/-- Whether a document and the documents nested in it have no ids other than scalars. -/
def suppliesScalarIds (collection : Collection) (document : Json) : Bool :=
  match document with
  | .object fields => offersId (.object fields) && nestsScalarIdsFields collection [] fields
  | other => nestsScalarIds collection [] other

/-- Whether fields have the scalars of others under the same names. -/
def KeepsScalars (fields others : List (String × Json)) : Prop :=
  ∀ name, (lookupName name fields).all isScalar → lookupName name others = lookupName name fields

theorem KeepsScalars.offersId {fields others : List (String × Json)} (h : KeepsScalars fields others)
    (hoffers : Store.offersId (.object fields)) : Store.offersId (.object others) := by
  change (lookupName idField fields).all isScalar at hoffers
  change (lookupName idField others).all isScalar
  rw [h idField hoffers]
  exact hoffers

theorem KeepsScalars.cons {name : String} {value replaced : Json}
    {fields others : List (String × Json)} (hvalue : value.isScalar → replaced = value)
    (h : KeepsScalars fields others) :
    KeepsScalars ((name, value) :: fields) ((name, replaced) :: others) := by
  intro other hscalar
  rw [lookupName] at hscalar ⊢
  rw [lookupName]
  split
  case isTrue hname =>
    rw [if_pos hname] at hscalar
    rw [hvalue (by simpa using hscalar)]
  case isFalse hname =>
    rw [if_neg hname] at hscalar
    exact h other hscalar

variable [Platform]

/-- A nested document is verified, inserted and recorded, or nothing happens. -/
theorem leads_insertVerified {target : Collection} (hkeys : target.graph.KeysAreIds)
    {document : Json} (hoffers : offersId document) (refuse : Error) {state : InsertionState}
    (hrefused : state.session.refused = []) (hids : state.session.store.Identified) :
    Leads (do
      Insertion.ofAccess (target.verify document)
      let stored ← Insertion.ofAccess (Access.insertOne target.name document)
      match target.keyOf? stored with
      | none => throw refuse
      | some key => do
        Insertion.record ⟨target.name, key⟩
        return key : Insertion Json) state
      (fun _ after => Extends target.graph state after) (Extends target.graph state) := by
  apply Leads.bind
  apply Insertion.leads_ofAccess
  refine (reads_verify target document).leads (fun _ calls hverify => ?_) fun calls => ?_
  case refine_2 => exact extends_of_sameDocuments hids rfl fun _ => rfl
  have hverified := verified_of_verify hkeys hids hverify
  apply Leads.bind
  apply Insertion.leads_ofAccess
  rcases insertOne_cases state.session.store target.name document with
    ⟨error, after, herror, hsame⟩ | ⟨stored, after, hok, happends, hstored, hscalar, hdiffer⟩
  · refine leads_call hrefused herror (by rintro _ _ ⟨⟩) fun _ calls _ => ?_
    exact extends_of_sameDocuments hids rfl hsame
  · refine leads_call hrefused hok ?_ (by rintro _ _ ⟨⟩)
    rintro _ calls ⟨⟩
    have hkeyOf : target.keyOf? stored = some (idOf stored) := by
      rw [keyOf?, key, links, hkeys]
      exact getPath?_idField (hscalar hoffers)
    rw [hkeyOf]
    apply Leads.bind
    apply Insertion.leads_record
    apply Leads.pure
    exact extends_of_appends calls hids hstored hverified happends (hscalar hoffers) hdiffer

mutual

theorem extending_insertNested (collection : Collection) (hkeys : collection.graph.KeysAreIds)
    (stack : Stack) (value : Json) (hnested : collection.nestsScalarIds stack value) :
    Extending collection.graph (insertNested collection stack value)
      (fun result _ => value.isScalar → result = value) := by
  cases value with
  | object fields =>
    unfold insertNested
    unfold nestsScalarIds at hnested
    split
    case h_1 hplace =>
      rw [hplace] at hnested
      exact (extending_insertNestedFields collection hkeys stack fields hnested).map
        fun _ _ _ hscalar => by cases hscalar
    case h_2 foreignKey hplace =>
      rw [hplace] at hnested
      obtain ⟨hoffers, hfields⟩ := Bool.and_eq_true_iff.1 hnested
      have htarget : (collection.target foreignKey).graph.KeysAreIds := hkeys
      refine (extending_insertNestedFields (collection.target foreignKey) htarget [] fields
        hfields).bind fun prepared state hkeeps hrefused hids => ?_
      refine (leads_insertVerified htarget (hkeeps.offersId hoffers) _ hrefused hids).mono ?_ ?_
      · exact fun _ _ hextends => ⟨hextends, fun hscalar => by cases hscalar⟩
      · exact fun _ hextends => hextends
  | array items =>
    unfold insertNested
    unfold nestsScalarIds at hnested
    exact (extending_insertNestedItems collection hkeys stack 0 items hnested).map
      fun _ _ _ hscalar => by cases hscalar
  | null => exact extending_pure fun _ _ => rfl
  | bool _ => exact extending_pure fun _ _ => rfl
  | number _ => exact extending_pure fun _ _ => rfl
  | string _ => exact extending_pure fun _ _ => rfl
termination_by structural value

theorem extending_insertNestedItems (collection : Collection)
    (hkeys : collection.graph.KeysAreIds) (stack : Stack) (position : Nat) (items : List Json)
    (hnested : collection.nestsScalarIdsItems stack position items) :
    Extending collection.graph (insertNestedItems collection stack position items)
      fun _ _ => True := by
  cases items with
  | nil => exact extending_pure fun _ => trivial
  | cons item rest =>
    unfold insertNestedItems
    unfold nestsScalarIdsItems at hnested
    obtain ⟨hitem, hrest⟩ := Bool.and_eq_true_iff.1 hnested
    refine (extending_insertNested collection hkeys _ item hitem).bind
      fun replaced state _ hrefused hids => ?_
    exact (extending_insertNestedItems collection hkeys stack _ rest hrest).map
      (fun _ _ _ => trivial) state hrefused hids
termination_by structural items

theorem extending_insertNestedFields (collection : Collection)
    (hkeys : collection.graph.KeysAreIds) (stack : Stack) (fields : List (String × Json))
    (hnested : collection.nestsScalarIdsFields stack fields) :
    Extending collection.graph (insertNestedFields collection stack fields)
      fun result _ => KeepsScalars fields result := by
  cases fields with
  | nil => exact extending_pure fun _ _ _ => rfl
  | cons field rest =>
    obtain ⟨name, value⟩ := field
    unfold insertNestedFields
    unfold nestsScalarIdsFields at hnested
    obtain ⟨hvalue, hrest⟩ := Bool.and_eq_true_iff.1 hnested
    refine (extending_insertNested collection hkeys _ value hvalue).bind
      fun replaced state hreplaced hrefused hids => ?_
    exact (extending_insertNestedFields collection hkeys stack rest hrest).map
      (fun _ _ hkeeps => .cons hreplaced hkeeps) state hrefused hids
termination_by structural fields

end

/-- A document with its nested documents inserted, before it is verified. -/
def insertBelow (collection : Collection) (document : Json) : Insertion Json :=
  match document with
  | .object fields => do return .object (← insertNestedFields collection [] fields)
  | other => insertNested collection [] other

theorem prepare_eq (collection : Collection) (document : Json) :
    collection.prepare document = (do
      let prepared ← collection.insertBelow document
      Insertion.ofAccess (collection.verify prepared)
      return prepared) := by
  cases document with
  | object fields => simp only [prepare, insertBelow, bind_assoc, pure_bind]
  | _ => rfl

theorem extending_insertBelow (collection : Collection) (hkeys : collection.graph.KeysAreIds)
    {document : Json} (hsupplies : collection.suppliesScalarIds document) :
    Extending collection.graph (collection.insertBelow document)
      fun prepared _ => offersId prepared := by
  cases document with
  | object fields =>
    obtain ⟨hoffers, hnested⟩ := Bool.and_eq_true_iff.1 hsupplies
    exact (extending_insertNestedFields collection hkeys [] fields hnested).map
      fun _ _ hkeeps => hkeeps.offersId hoffers
  | array items =>
    have hnested : collection.nestsScalarIdsItems [] 0 items := by
      simpa [suppliesScalarIds, nestsScalarIds] using hsupplies
    unfold insertBelow insertNested
    exact (extending_insertNestedItems collection hkeys [] 0 items hnested).map fun _ _ _ => rfl
  | null => exact extending_pure fun _ => rfl
  | bool _ => exact extending_pure fun _ => rfl
  | number _ => exact extending_pure fun _ => rfl
  | string _ => exact extending_pure fun _ => rfl

/-- A document that is ready to be stored: it is verified, and an id that it has is a scalar. -/
def Ready (collection : Collection) (document : Json) (state : InsertionState) : Prop :=
  collection.graph.Verified state.session.store collection.name document ∧ offersId document

theorem extending_prepare (collection : Collection) (hkeys : collection.graph.KeysAreIds)
    {document : Json} (hsupplies : collection.suppliesScalarIds document) :
    Extending collection.graph (collection.prepare document) collection.Ready := by
  rw [prepare_eq]
  refine (extending_insertBelow collection hkeys hsupplies).bind fun prepared state hoffers => ?_
  have hverifying : Extending collection.graph (Insertion.ofAccess (collection.verify prepared))
      fun _ after => collection.Ready prepared after :=
    extending_ofAccess (reads_verify collection prepared) fun _ _ hids hverify _ =>
      ⟨verified_of_verify hkeys hids hverify, hoffers⟩
  exact hverifying.bind (fun _ after hready _ hids => .pure ⟨.refl hids, hready⟩) state

theorem extending_prepareAll (collection : Collection) (hkeys : collection.graph.KeysAreIds)
    {documents : List Json}
    (hsupplies : ∀ document ∈ documents, collection.suppliesScalarIds document) :
    Extending collection.graph (collection.prepareAll documents)
      fun prepared after => ∀ document ∈ prepared, collection.Ready document after := by
  induction documents with
  | nil => exact extending_pure fun _ _ hmem => absurd hmem List.not_mem_nil
  | cons document rest ih =>
    obtain ⟨hdocument, hrest⟩ := List.forall_mem_cons.1 hsupplies
    refine (extending_prepare collection hkeys hdocument).bind
      fun first state hfirst hrefused hids => ?_
    apply Leads.bind
    refine (ih hrest state hrefused hids).mono ?_ fun _ hextends => hextends
    rintro others after ⟨hextends, hothers⟩
    -- the first document stays verified while the others are prepared
    have hstill : collection.Ready first after := ⟨hextends.verified hfirst.1, hfirst.2⟩
    exact .pure ⟨hextends, List.forall_mem_cons.2 ⟨hstill, hothers⟩⟩

end Collection

end LinkedDocs
