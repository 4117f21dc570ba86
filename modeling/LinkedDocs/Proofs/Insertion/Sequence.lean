import LinkedDocs.Platform.Native
import LinkedDocs.Proofs.Insertion.Effect
import LinkedDocs.Proofs.Insertion.Runs

namespace LinkedDocs

open Json

namespace Collection

/-- A document that stands at the place of a foreign key in another one. -/
structure NestedDocument where
  place : Stack
  target : Collection
  document : Json

mutual

/-- The outermost documents nested in a value at a place of a document, in document order. -/
def nestedAt (collection : Collection) (stack : Stack) (value : Json) : List NestedDocument :=
  match value with
  | .object fields =>
    match collection.foreignKeyAt? stack with
    | none => nestedInFields collection stack fields
    | some foreignKey => [⟨stack, collection.target foreignKey, .object fields⟩]
  | .array items => nestedInItems collection stack 0 items
  | .null => []
  | .bool _ => []
  | .number _ => []
  | .string _ => []
termination_by structural value

def nestedInItems (collection : Collection) (stack : Stack) (position : Nat) (items : List Json) :
    List NestedDocument :=
  match items with
  | [] => []
  | item :: rest =>
    nestedAt collection (stack ++ [.index position]) item ++
      nestedInItems collection stack (position + 1) rest
termination_by structural items

def nestedInFields (collection : Collection) (stack : Stack) (fields : List (String × Json)) :
    List NestedDocument :=
  match fields with
  | [] => []
  | (name, value) :: rest =>
    nestedAt collection (stack ++ [.key name]) value ++ nestedInFields collection stack rest
termination_by structural fields

end

mutual

/-- A value at a place of a document with keys for the documents nested in it, in document order,
and the keys that are left over. Where there are none left, null is put. -/
def withKeysAt (collection : Collection) (stack : Stack) (value : Json) (keys : List Json) :
    Json × List Json :=
  match value with
  | .object fields =>
    match collection.foreignKeyAt? stack with
    | none => (withKeysInFields collection stack fields keys).map .object id
    | some _ => (keys.headD .null, keys.tail)
  | .array items => (withKeysInItems collection stack 0 items keys).map .array id
  | .null => (.null, keys)
  | .bool value => (.bool value, keys)
  | .number value => (.number value, keys)
  | .string value => (.string value, keys)
termination_by structural value

def withKeysInItems (collection : Collection) (stack : Stack) (position : Nat) (items : List Json)
    (keys : List Json) : List Json × List Json :=
  match items with
  | [] => ([], keys)
  | item :: rest =>
    let first := withKeysAt collection (stack ++ [.index position]) item keys
    let others := withKeysInItems collection stack (position + 1) rest first.2
    (first.1 :: others.1, others.2)
termination_by structural items

def withKeysInFields (collection : Collection) (stack : Stack) (fields : List (String × Json))
    (keys : List Json) : List (String × Json) × List Json :=
  match fields with
  | [] => ([], keys)
  | (name, value) :: rest =>
    let first := withKeysAt collection (stack ++ [.key name]) value keys
    let others := withKeysInFields collection stack rest first.2
    ((name, first.1) :: others.1, others.2)
termination_by structural fields

end

/-- The outermost documents nested in a document. No foreign key stands at its root. -/
def nestedIn (collection : Collection) (document : Json) : List NestedDocument :=
  match document with
  | .object fields => nestedInFields collection [] fields
  | other => nestedAt collection [] other

/-- A document with keys for the documents nested in it. -/
def withKeys (collection : Collection) (document : Json) (keys : List Json) : Json × List Json :=
  match document with
  | .object fields => (withKeysInFields collection [] fields keys).map .object id
  | other => withKeysAt collection [] other keys

/-- The keys of the documents nested in a value, and the value with the keys in their places. -/
structure Filled {α : Type} (fill : List Json → α × List Json) where
  keys : List Json
  value : α
  fill_append : ∀ more, fill (keys ++ more) = (value, more)

section Fills

variable {α β γ : Type} {fill : List Json → α × List Json} {fillOther : List Json → β × List Json}

def Filled.map (f : α → β) (filled : Filled fill) : Filled fun keys => (fill keys).map f id where
  keys := filled.keys
  value := f filled.value
  fill_append := by
    intro more
    rw [filled.fill_append]
    rfl

/-- Two values that are filled one after the other. -/
def Filled.both (f : α → β → γ) (first : Filled fill) (second : Filled fillOther) :
    Filled fun keys =>
      let left := fill keys
      let right := fillOther left.2
      (f left.1 right.1, right.2) where
  keys := first.keys ++ second.keys
  value := f first.value second.value
  fill_append := by
    intro more
    simp only [List.append_assoc, first.fill_append, second.fill_append]

/-- A key in the place of a whole value. -/
def Filled.ofKey (key : Json) : Filled fun keys : List Json => (keys.headD .null, keys.tail) where
  keys := [key]
  value := key
  fill_append := fun _ => rfl

/-- A walk that inserts the documents nested in a value does what inserting each of them does, and
returns the value with their keys. -/
def Fills (walk : Insertion α) (inserts : Access (List Json)) (fill : List Json → α × List Json) :
    Prop :=
  ∃ effect : StoreEffect (Filled fill),
    Realizes InsertionState.session walk (Filled.value <$> effect) ∧
      Realizes id inserts (Filled.keys <$> effect)

variable {walk : Insertion α} {inserts : Access (List Json)}

theorem fills_pure (value : α) :
    Fills (pure value) (pure []) (fun keys => (value, keys)) := by
  refine ⟨pure ⟨[], value, fun _ => rfl⟩, ?_, ?_⟩
  · rw [map_pure]
    exact .pure value
  · rw [map_pure]
    exact .pure []

theorem Fills.map (h : Fills walk inserts fill) (f : α → β) :
    Fills (do return f (← walk)) inserts (fun keys => (fill keys).map f id) := by
  obtain ⟨effect, hwalk, hinserts⟩ := h
  refine ⟨Filled.map f <$> effect, ?_, ?_⟩
  · have heffect : Filled.value <$> Filled.map f <$> effect = f <$> Filled.value <$> effect := by
      rw [Functor.map_map, Functor.map_map]
      rfl
    rw [heffect, bind_pure_comp]
    exact hwalk.map f
  · rw [Functor.map_map]
    exact hinserts

theorem Fills.both (h : Fills walk inserts fill) {other : Insertion β} {others : Access (List Json)}
    (hother : Fills other others fillOther) (f : α → β → γ) :
    Fills (do return f (← walk) (← other))
      (do
        let keys ← inserts
        let more ← others
        return keys ++ more)
      (fun keys =>
        let left := fill keys
        let right := fillOther left.2
        (f left.1 right.1, right.2)) := by
  obtain ⟨effect, hwalk, hinserts⟩ := h
  obtain ⟨next, hnext, hmore⟩ := hother
  refine ⟨effect >>= fun first => Filled.both f first <$> next, ?_, ?_⟩
  · have heffect : Filled.value <$> (effect >>= fun first => Filled.both f first <$> next) =
        (Filled.value <$> effect) >>= fun value =>
          (Filled.value <$> next) >>= fun last => pure (f value last) := by
      simp [Filled.both]
    rw [heffect]
    exact hwalk.bind fun value => hnext.bind fun last => .pure (f value last)
  · have heffect : Filled.keys <$> (effect >>= fun first => Filled.both f first <$> next) =
        (Filled.keys <$> effect) >>= fun keys =>
          (Filled.keys <$> next) >>= fun more => pure (keys ++ more) := by
      simp [Filled.both]
    rw [heffect]
    exact hinserts.bind fun keys => hmore.bind fun more => .pure (keys ++ more)

end Fills

/-- Keys in the places of nested documents, as a walk that inserted these has put them in. -/
theorem Filled.withKeys_eq {collection : Collection} {document : Json}
    (filled : Filled fun keys => collection.withKeys document keys) :
    (collection.withKeys document filled.keys).1 = filled.value := by
  have hfill := filled.fill_append []
  rw [List.append_nil] at hfill
  rw [hfill]

section

variable [Platform]

/-- Inserts nested documents, one after the other, and returns the keys that they got. -/
def insertEach (collection : Collection) : List NestedDocument → Access (List Json)
  | [] => return []
  | nested :: rest => do
    let stored ← nested.target.insert nested.document
    match nested.target.keyOf? stored with
    | none =>
      throw (.violation collection.name (canonicalKey nested.place)
        (.nestedWithoutKey nested.target.key nested.target.name))
    | some key =>
      let others ← insertEach collection rest
      return key :: others

/-- Inserts the documents nested in a document before the document with their keys. -/
def insertByHand (collection : Collection) (document : Json) : Access Json := do
  let keys ← collection.insertEach (collection.nestedIn document)
  collection.insert (collection.withKeys document keys).1

theorem insertEach_append (collection : Collection) (first second : List NestedDocument) :
    collection.insertEach (first ++ second) = (do
      let keys ← collection.insertEach first
      let others ← collection.insertEach second
      return keys ++ others) := by
  induction first with
  | nil => simp [insertEach]
  | cons nested rest ih =>
    simp only [List.cons_append, insertEach, ih, bind_assoc]
    congr 1
    funext stored
    cases nested.target.keyOf? stored with
    | none => rfl
    | some key => simp

/-- A nested document: the ones nested in it are inserted first, then it is placed itself. -/
theorem fills_nested (collection : Collection) (stack : Stack) {target : Collection}
    {fields : List (String × Json)} {inserts : Access (List Json)}
    {fill : List Json → List (String × Json) × List Json}
    (hfields : Fills (insertNestedFields target [] fields) inserts fill) :
    Fills (do
      let document := .object (← insertNestedFields target [] fields)
      Insertion.ofAccess (target.verify document)
      let stored ← Insertion.ofAccess (Access.insertOne target.name document)
      match target.keyOf? stored with
      | none =>
        throw (.violation collection.name (canonicalKey stack)
          (.nestedWithoutKey target.key target.name))
      | some key =>
        Insertion.record ⟨target.name, key⟩
        return key)
      (collection.insertEach [⟨stack, target, .object fields⟩])
      (fun keys => (keys.headD .null, keys.tail)) := by
  obtain ⟨effect, hwalk, -⟩ := hfields
  let documents : StoreEffect Json := Json.object <$> Filled.value <$> effect
  refine ⟨Filled.ofKey <$> (documents >>= target.placingKey), ?_, ?_⟩
  · have heffect : Filled.value <$> Filled.ofKey <$> (documents >>= target.placingKey) =
        (Filled.value <$> effect) >>= fun fields =>
          (target.verify (.object fields)).effect >>= fun _ =>
            (performing fun store => store.insertOne target.name (.object fields)) >>=
              fun stored => StateT.lift (target.keyOf? stored) >>= pure := by
      simp [documents, placingKey, placing, Filled.ofKey]
    rw [heffect]
    refine hwalk.bind fun prepared => ?_
    refine (Insertion.realizes_ofAccess (reads_verify target _).realizes).bind fun _ => ?_
    refine (Insertion.realizes_ofAccess (realizes_call _ _ _)).bind fun stored => ?_
    cases target.keyOf? stored with
    | none => exact .throw _
    | some key => exact (Insertion.realizes_record ⟨target.name, key⟩).bind fun _ => .pure key
  · have heffect : Filled.keys <$> Filled.ofKey <$> (documents >>= target.placingKey) =
        (documents >>= target.placing) >>= fun stored =>
          StateT.lift (target.keyOf? stored) >>= fun key => pure [key] := by
      simp [placingKey, Filled.ofKey]
    have hbelow : Realizes InsertionState.session (target.insertBelow (.object fields))
        documents := by
      change Realizes _ (do return Json.object (← insertNestedFields target [] fields)) _
      rw [bind_pure_comp]
      exact hwalk.map Json.object
    rw [heffect]
    refine (realizes_insert hbelow).bind fun stored => ?_
    dsimp only
    cases target.keyOf? stored with
    | none => exact .throw _
    | some key => exact (Realizes.pure []).bind fun others => .pure (key :: others)

mutual

theorem fills_insertNested (collection : Collection) (stack : Stack) (value : Json) :
    Fills (insertNested collection stack value)
      (collection.insertEach (nestedAt collection stack value))
      (fun keys => withKeysAt collection stack value keys) := by
  cases value with
  | object fields =>
    unfold insertNested nestedAt withKeysAt
    cases collection.foreignKeyAt? stack with
    | none => exact (fills_insertNestedFields collection stack fields).map Json.object
    | some foreignKey =>
      exact fills_nested collection stack (fills_insertNestedFields _ [] fields)
  | array items =>
    unfold insertNested nestedAt withKeysAt
    exact (fills_insertNestedItems collection stack 0 items).map Json.array
  | null => exact fills_pure _
  | bool value => exact fills_pure _
  | number value => exact fills_pure _
  | string value => exact fills_pure _
termination_by structural value

theorem fills_insertNestedItems (collection : Collection) (stack : Stack) (position : Nat)
    (items : List Json) :
    Fills (insertNestedItems collection stack position items)
      (collection.insertEach (nestedInItems collection stack position items))
      (fun keys => withKeysInItems collection stack position items keys) := by
  cases items with
  | nil => exact fills_pure _
  | cons item rest =>
    unfold insertNestedItems nestedInItems withKeysInItems
    rw [insertEach_append]
    exact (fills_insertNested collection _ item).both
      (fills_insertNestedItems collection stack _ rest) List.cons
termination_by structural items

theorem fills_insertNestedFields (collection : Collection) (stack : Stack)
    (fields : List (String × Json)) :
    Fills (insertNestedFields collection stack fields)
      (collection.insertEach (nestedInFields collection stack fields))
      (fun keys => withKeysInFields collection stack fields keys) := by
  cases fields with
  | nil => exact fills_pure _
  | cons field rest =>
    obtain ⟨name, value⟩ := field
    unfold insertNestedFields nestedInFields withKeysInFields
    rw [insertEach_append]
    exact (fills_insertNested collection _ value).both
      (fills_insertNestedFields collection stack rest) fun replaced others =>
        (name, replaced) :: others
termination_by structural fields

end

theorem fills_insertBelow (collection : Collection) (document : Json) :
    Fills (collection.insertBelow document)
      (collection.insertEach (collection.nestedIn document))
      (fun keys => collection.withKeys document keys) := by
  cases document with
  | object fields => exact (fills_insertNestedFields collection [] fields).map Json.object
  | array items => exact fills_insertNested collection [] (.array items)
  | null => exact fills_pure _
  | bool value => exact fills_pure _
  | number value => exact fills_pure _
  | string value => exact fills_pure _

/-- A value without parts, as keys are. -/
def IsBare (value : Json) : Prop :=
  value.isObject = false ∧ value.isArray = false

theorem insertNested_of_isBare (collection : Collection) (stack : Stack) {value : Json}
    (h : IsBare value) : insertNested collection stack value = pure value := by
  cases value with
  | object fields => cases h.1
  | array items => cases h.2
  | _ => rfl

mutual

theorem insertNested_withKeysAt (collection : Collection) (stack : Stack) (value : Json)
    {keys : List Json} (hkeys : ∀ key ∈ keys, IsBare key) :
    insertNested collection stack (withKeysAt collection stack value keys).1 =
        pure (withKeysAt collection stack value keys).1 ∧
      (withKeysAt collection stack value keys).2 <:+ keys := by
  cases value with
  | object fields =>
    unfold withKeysAt
    cases hplace : collection.foreignKeyAt? stack with
    | none =>
      obtain ⟨hfields, hrest⟩ := insertNestedFields_withKeys collection stack fields hkeys
      refine ⟨?_, hrest⟩
      rw [Prod.map_fst, insertNested, hplace]
      simp only [hfields, pure_bind]
    | some foreignKey =>
      refine ⟨insertNested_of_isBare collection stack ?_, List.tail_suffix keys⟩
      cases keys with
      | nil => exact ⟨rfl, rfl⟩
      | cons key rest => exact hkeys key List.mem_cons_self
  | array items =>
    unfold withKeysAt
    obtain ⟨hitems, hrest⟩ := insertNestedItems_withKeys collection stack 0 items hkeys
    refine ⟨?_, hrest⟩
    rw [Prod.map_fst, insertNested, hitems, pure_bind]
  | null => exact ⟨rfl, List.suffix_rfl⟩
  | bool _ => exact ⟨rfl, List.suffix_rfl⟩
  | number _ => exact ⟨rfl, List.suffix_rfl⟩
  | string _ => exact ⟨rfl, List.suffix_rfl⟩
termination_by structural value

theorem insertNestedItems_withKeys (collection : Collection) (stack : Stack) (position : Nat)
    (items : List Json) {keys : List Json} (hkeys : ∀ key ∈ keys, IsBare key) :
    insertNestedItems collection stack position
          (withKeysInItems collection stack position items keys).1 =
        pure (withKeysInItems collection stack position items keys).1 ∧
      (withKeysInItems collection stack position items keys).2 <:+ keys := by
  cases items with
  | nil => exact ⟨rfl, List.suffix_rfl⟩
  | cons item rest =>
    unfold withKeysInItems
    dsimp only
    obtain ⟨hitem, hleft⟩ := insertNested_withKeysAt collection (stack ++ [.index position]) item hkeys
    obtain ⟨hrest, hlast⟩ := insertNestedItems_withKeys collection stack (position + 1) rest
      fun key hkey => hkeys key (hleft.subset hkey)
    refine ⟨?_, hlast.trans hleft⟩
    rw [insertNestedItems, hitem, pure_bind, hrest, pure_bind]
termination_by structural items

theorem insertNestedFields_withKeys (collection : Collection) (stack : Stack)
    (fields : List (String × Json)) {keys : List Json} (hkeys : ∀ key ∈ keys, IsBare key) :
    insertNestedFields collection stack (withKeysInFields collection stack fields keys).1 =
        pure (withKeysInFields collection stack fields keys).1 ∧
      (withKeysInFields collection stack fields keys).2 <:+ keys := by
  cases fields with
  | nil => exact ⟨rfl, List.suffix_rfl⟩
  | cons field rest =>
    obtain ⟨name, value⟩ := field
    unfold withKeysInFields
    dsimp only
    obtain ⟨hvalue, hleft⟩ := insertNested_withKeysAt collection (stack ++ [.key name]) value hkeys
    obtain ⟨hrest, hlast⟩ := insertNestedFields_withKeys collection stack rest
      fun key hkey => hkeys key (hleft.subset hkey)
    refine ⟨?_, hlast.trans hleft⟩
    rw [insertNestedFields, hvalue, pure_bind, hrest, pure_bind]
termination_by structural fields

end

/-- No documents are nested in a document with keys in their places. -/
theorem insertBelow_withKeys (collection : Collection) (document : Json) {keys : List Json}
    (hkeys : ∀ key ∈ keys, IsBare key) :
    collection.insertBelow (collection.withKeys document keys).1 =
      pure (collection.withKeys document keys).1 := by
  cases document with
  | object fields =>
    have hfields := (insertNestedFields_withKeys collection [] fields hkeys).1
    change (do return Json.object (← insertNestedFields collection [] _)) = _
    rw [hfields, pure_bind]
    rfl
  | array items => exact (insertNested_withKeysAt collection [] (.array items) hkeys).1
  | _ => rfl

theorem leads_insertByHand {collection : Collection} {document : Json}
    {effect : StoreEffect (Filled fun keys => collection.withKeys document keys)}
    (heach : Realizes id (collection.insertEach (collection.nestedIn document))
      (Filled.keys <$> effect)) {session : Session} (hrefused : session.refused = [])
    (hkeys : ∀ keys after,
      (collection.insertEach (collection.nestedIn document)).runIn session = (.ok keys, after) →
        ∀ key ∈ keys, IsBare key) :
    Leads (collection.insertByHand document) session
      (fun value after => (Filled.value <$> effect >>= collection.placing).run session.store =
        some (value, after.store))
      fun _ => (Filled.value <$> effect >>= collection.placing).run session.store = none := by
  apply Leads.bind
  refine (heach session hrefused).and_run.mono ?_ ?_
  · rintro keys after ⟨⟨hafter, heffect⟩, hrun⟩
    obtain ⟨filled, hfilled, rfl⟩ := run_map_eq_some_iff.1 heffect
    have hvalue : (Filled.value <$> effect).run session.store = some (filled.value, after.store) :=
      run_map_eq_some_iff.2 ⟨filled, hfilled, rfl⟩
    -- no documents are nested in the document with keys, so it is placed as it is
    have hbelow : collection.insertBelow filled.value = pure filled.value :=
      filled.withKeys_eq ▸ insertBelow_withKeys collection document (hkeys _ _ hrun)
    have hinsert := realizes_insert (hbelow ▸ Realizes.pure filled.value) after hafter
    rw [pure_bind] at hinsert
    rw [StateT.run_bind, hvalue, filled.withKeys_eq]
    exact hinsert.mono (fun _ _ h => h.2) fun _ h => h
  · intro _ hnone
    have hvalue : (Filled.value <$> effect).run session.store = none :=
      run_map_eq_none_iff.2 (run_map_eq_none_iff.1 hnone)
    rw [StateT.run_bind, hvalue]
    rfl

/-- A document is inserted with its nested documents exactly when they can be inserted by hand, and
then both ways return the same document and leave the same store. -/
theorem insert_iff_insertByHand {collection : Collection} {document : Json} {session : Session}
    (hrefused : session.refused = [])
    (hkeys : ∀ keys after,
      (collection.insertEach (collection.nestedIn document)).runIn session = (.ok keys, after) →
        ∀ key ∈ keys, key.isObject = false ∧ key.isArray = false)
    (result : Json) (store : Store) :
    (∃ after, (collection.insert document).runIn session = (.ok result, after) ∧
        after.store = store) ↔
      ∃ after, (collection.insertByHand document).runIn session = (.ok result, after) ∧
        after.store = store := by
  obtain ⟨effect, hwalk, heach⟩ := fills_insertBelow collection document
  have hdirect := (realizes_insert hwalk session hrefused).mono (fun _ _ h => h.2) fun _ h => h
  have hhand := leads_insertByHand heach hrefused hkeys
  exact (exists_runIn_iff hdirect).trans (exists_runIn_iff hhand).symm

end

/-- A book with two new authors, one of whom has a new publisher; neither the book nor the other
author has an id. -/
def sharedBook : Json :=
  .object [("title", .string "t"), ("authors", .array [
    .object [("_id", .string "c"), ("publisher", .object [("_id", .string "q")])],
    .string "a", .object [("publisher", .string "p")]])]

theorem exists_insertByHand_sharedBook :
    ∃ result after,
      (∃ direct, ((librarySchema.graph.collection "books").insert sharedBook).runIn librarySession =
          (.ok result, direct) ∧ direct.store = after) ∧
      (∃ byHand, ((librarySchema.graph.collection "books").insertByHand sharedBook).runIn
          librarySession = (.ok result, byHand) ∧ byHand.store = after) ∧
      result.identical (.object [("_id", .string (Store.generatedId 1)), ("title", .string "t"),
        ("authors", .array [.string "c", .string "a", .string (Store.generatedId 0)])]) := by
  have hflat : (((librarySchema.graph.collection "books").insertEach
      ((librarySchema.graph.collection "books").nestedIn sharedBook)).answer
        librarySession).toOption.all fun keys =>
          keys.all fun key => !key.isObject && !key.isArray := by
    decide +kernel
  have hanswer : (((librarySchema.graph.collection "books").insert sharedBook).answer
      librarySession).toOption.any fun result => result.identical (.object [
        ("_id", .string (Store.generatedId 1)), ("title", .string "t"),
        ("authors", .array [.string "c", .string "a", .string (Store.generatedId 0)])]) := by
    decide +kernel
  cases hrun : ((librarySchema.graph.collection "books").insert sharedBook).runIn
      librarySession with
  | mk answer direct =>
    rw [Access.answer, hrun] at hanswer
    cases answer with
    | error error => cases hanswer
    | ok result =>
      refine ⟨result, direct.store, ⟨direct, rfl, rfl⟩, ?_, hanswer⟩
      refine (insert_iff_insertByHand rfl (fun keys after hkeys key hkey => ?_) _ _).1
        ⟨direct, hrun, rfl⟩
      rw [Access.answer, hkeys] at hflat
      simpa using List.all_eq_true.1 hflat key hkey

end Collection

end LinkedDocs
