import LinkedDocs.Platform.Native
import LinkedDocs.Proofs.Graph.Built
import LinkedDocs.Proofs.Insertion.Sequence
import LinkedDocs.Proofs.Json.Ends

/-!
What inserting nested documents leaves behind: a document in which none is nested. The walk tells the
places of foreign keys by the names on the way, whatever arrays they lead through, so it has been
wherever a foreign key path reads.
-/

namespace LinkedDocs

open Json

namespace Insertion

variable {α β : Type} {clean : α → Prop}

/-- Whether an insertion that succeeds has recorded dependencies behind those that were there before
and, if none of their keys has parts, returns a value with a property. -/
def Cleans (insertion : Insertion α) (clean : α → Prop) : Prop :=
  ∀ state value after, insertion.run.run state = (.ok value, after) →
    ∃ recorded, after.dependencies = state.dependencies ++ recorded ∧
      ((∀ dependency ∈ recorded, Collection.IsBare dependency.key) → clean value)

theorem cleans_pure {value : α} (h : clean value) : (pure value : Insertion α).Cleans clean := by
  rintro state _ _ ⟨⟩
  exact ⟨[], (List.append_nil _).symm, fun _ => h⟩

theorem cleans_throw (error : Error) : (throw error : Insertion α).Cleans clean := by
  rintro _ _ _ ⟨⟩

theorem cleans_ofAccess (access : Access α) : (ofAccess access).Cleans fun _ => True := by
  intro state value after hrun
  rw [run_ofAccess] at hrun
  cases (Prod.mk.inj hrun).2
  exact ⟨[], (List.append_nil _).symm, fun _ => trivial⟩

theorem cleans_record (dependency : Dependency) :
    (record dependency).Cleans fun _ => Collection.IsBare dependency.key := by
  rintro state _ _ ⟨⟩
  exact ⟨[dependency], rfl, fun hbare => hbare dependency List.mem_cons_self⟩

theorem Cleans.bind {first : Insertion α} {next : α → Insertion β} {cleanNext : β → Prop}
    (hfirst : first.Cleans clean)
    (hnext : ∀ value, (next value).Cleans fun result => clean value → cleanNext result) :
    (first >>= next).Cleans cleanNext := by
  intro state result after hrun
  obtain ⟨value, middle, hstart, hend⟩ := run_run_bind_eq_ok hrun
  obtain ⟨recorded, hrecorded, hclean⟩ := hfirst state value middle hstart
  obtain ⟨more, hmore, hcleanNext⟩ := hnext value middle result after hend
  refine ⟨recorded ++ more, by rw [hmore, hrecorded, List.append_assoc], fun hbare => ?_⟩
  obtain ⟨hkeys, hmoreKeys⟩ := List.forall_mem_append.1 hbare
  exact hcleanNext hmoreKeys (hclean hkeys)

theorem Cleans.map {first : Insertion α} (hfirst : first.Cleans clean) {change : α → β}
    {cleanNext : β → Prop} (h : ∀ value, clean value → cleanNext (change value)) :
    (do return change (← first)).Cleans cleanNext :=
  hfirst.bind fun value => cleans_pure (h value)

end Insertion

namespace Collection

theorem nestedAt_of_isBare (collection : Collection) (stack : Stack) {value : Json}
    (h : IsBare value) : nestedAt collection stack value = [] := by
  cases value with
  | object fields => cases h.1
  | array items => cases h.2
  | _ => rfl

section

variable {collection : Collection} {stack : Stack}

theorem nestedAt_of_nestedInItems {position : Nat} {items : List Json}
    (h : nestedInItems collection stack position items = []) :
    ∀ item ∈ items, ∃ index, nestedAt collection (stack ++ [.index index]) item = [] := by
  induction items generalizing position with
  | nil => exact fun _ hmem => absurd hmem List.not_mem_nil
  | cons item rest ih =>
    rw [nestedInItems, List.append_eq_nil_iff] at h
    exact List.forall_mem_cons.2 ⟨⟨position, h.1⟩, ih h.2⟩

theorem nestedAt_of_lookupName {fields : List (String × Json)} {name : String} {child : Json}
    (h : nestedInFields collection stack fields = []) (hlookup : lookupName name fields = some child) :
    nestedAt collection (stack ++ [.key name]) child = [] := by
  induction fields with
  | nil => cases hlookup
  | cons field rest ih =>
    obtain ⟨first, value⟩ := field
    rw [nestedInFields, List.append_eq_nil_iff] at h
    rw [lookupName] at hlookup
    split at hlookup
    case isTrue hname =>
      cases hlookup
      rw [← hname]
      exact h.1
    case isFalse => exact ih h.2 hlookup

theorem nestedInFields_of_nestedAt {fields : List (String × Json)}
    (h : nestedAt collection stack (.object fields) = []) :
    nestedInFields collection stack fields = [] := by
  rw [nestedAt] at h
  split at h
  case h_1 => exact h
  case h_2 => cases h

/-- The foreign key at the end of a path from a place, where its canonical key is looked up. -/
def HasKeyAlong (collection : Collection) (stack : Stack) (path : List String) : Prop :=
  (collection.foreignKeys.get? (joinPath (stackNames stack ++
    path.filter fun segment => segment ≠ wildcard))).isSome

theorem HasKeyAlong.index {path : List String} (h : HasKeyAlong collection stack path)
    (position : Nat) : HasKeyAlong collection (stack ++ [.index position]) path := by
  rwa [HasKeyAlong, stackNames_index]

theorem HasKeyAlong.wildcard {rest : List String}
    (h : HasKeyAlong collection stack (wildcard :: rest)) : HasKeyAlong collection stack rest := by
  rwa [HasKeyAlong, List.filter_cons_of_neg (by simp)] at h

theorem HasKeyAlong.name {name : String} {rest : List String} (hname : Identifier.isValid name)
    (h : HasKeyAlong collection stack (name :: rest)) :
    HasKeyAlong collection (stack ++ [.key name]) rest := by
  have hkeep : (name :: rest).filter (fun segment => segment ≠ LinkedDocs.wildcard) =
      name :: rest.filter fun segment => segment ≠ LinkedDocs.wildcard :=
    List.filter_cons_of_pos (by simpa using Identifier.ne_wildcard hname)
  rw [HasKeyAlong, hkeep] at h
  rwa [HasKeyAlong, stackNames_key hname, List.append_assoc]

/-- At the place of a foreign key stands no object unless one is nested there. -/
theorem isObject_eq_false_of_nestedAt {value : Json} (hkey : HasKeyAlong collection stack [])
    (h : nestedAt collection stack value = []) : value.isObject = false := by
  cases value with
  | object fields =>
    obtain ⟨foreignKey, hforeignKey⟩ := Option.isSome_iff_exists.1 hkey
    rw [List.filter_nil, List.append_nil, ← canonicalKey_eq] at hforeignKey
    rw [nestedAt, foreignKeyAt?, hforeignKey] at h
    cases h
  | _ => rfl

/-- An array at the end of a path holds several keys, each of them at the place of the foreign key. -/
theorem isObject_eq_false_of_mem_valuesAt_nil {value : Json} (hkey : HasKeyAlong collection stack [])
    (h : nestedAt collection stack value = []) :
    ∀ found ∈ value.valuesAt [], found.isObject = false := by
  intro found hfound
  cases value with
  | null => cases hfound
  | array items =>
    obtain ⟨index, hitem⟩ := nestedAt_of_nestedInItems h found (List.mem_of_mem_filter hfound)
    exact isObject_eq_false_of_nestedAt (hkey.index index) hitem
  | object => cases isObject_eq_false_of_nestedAt hkey h
  | _ =>
    rw [List.mem_singleton.1 hfound]
    rfl

/-- A path along which a foreign key stands leads to places that the walk has seen. -/
theorem exists_place_of_reaches {path : List String} {value found : Json}
    (hreaches : value.Reaches path found)
    (hpath : ∀ segment ∈ path, segment = wildcard ∨ Identifier.isValid segment)
    (hkey : HasKeyAlong collection stack path) (h : nestedAt collection stack value = []) :
    ∃ place, HasKeyAlong collection place [] ∧ nestedAt collection place found = [] := by
  induction hreaches generalizing stack with
  | here value => exact ⟨stack, hkey, h⟩
  | field hsegment hlookup _ ih =>
    obtain ⟨hname, hrest⟩ := List.forall_mem_cons.1 hpath
    exact ih hrest (hkey.name (hname.resolve_left hsegment))
      (nestedAt_of_lookupName (nestedInFields_of_nestedAt h) hlookup)
  | element hmem _ ih =>
    obtain ⟨index, hitem⟩ := nestedAt_of_nestedInItems h _ hmem
    exact ih (List.forall_mem_cons.1 hpath).2 (hkey.wildcard.index index) hitem

/-- Where no document is nested in another one, a foreign key path leads to none. -/
theorem isObject_eq_false_of_nestedIn {name : String} {foreignKey : ForeignKey}
    (hforeignKey : collection.foreignKeys.get? name = some foreignKey)
    (hcompiled : foreignKey.Compiled name) {document : Json}
    (h : collection.nestedIn document = []) :
    ∀ found ∈ document.valuesAt foreignKey.path, found.isObject = false := by
  obtain ⟨first, rest, hpath, hfirst, hrest⟩ := hcompiled.path_eq
  have hroot : HasKeyAlong collection [] (first :: rest) := by
    rw [HasKeyAlong, ← hpath]
    change (collection.foreignKeys.get? (pathKey foreignKey.path)).isSome
    rw [← hcompiled.name_eq, hforeignKey]
    rfl
  intro found hfound
  rw [valuesAt_eq_flatMap] at hfound
  obtain ⟨field, hfield, hvalue⟩ := List.mem_flatMap.1 hfound
  have hreaches := mem_endsAt_iff.1 hfield
  rw [hpath] at hreaches
  cases hreaches with
  | element => exact absurd rfl (Identifier.ne_wildcard hfirst)
  | field _ hlookup hchild =>
    obtain ⟨place, hplace, hnested⟩ :=
      exists_place_of_reaches hchild hrest (hroot.name hfirst) (nestedAt_of_lookupName h hlookup)
    exact isObject_eq_false_of_mem_valuesAt_nil hplace hnested found hvalue

end

section

variable [Platform]

mutual

/-- No document is nested in what takes the place of a value. -/
theorem cleans_insertNested (collection : Collection) (stack : Stack) (value : Json) :
    (insertNested collection stack value).Cleans fun result =>
      nestedAt collection stack result = [] := by
  cases value with
  | object fields =>
    unfold insertNested
    split
    case h_1 hplace =>
      refine (cleans_insertNestedFields collection stack fields).map fun others hothers => ?_
      rw [nestedAt, hplace]
      exact hothers
    case h_2 foreignKey _ =>
      -- the key of the document takes its place
      refine (cleans_insertNestedFields (collection.target foreignKey) [] fields).bind fun _ => ?_
      refine (Insertion.cleans_ofAccess _).bind fun _ => ?_
      refine (Insertion.cleans_ofAccess _).bind fun stored => ?_
      split
      case h_1 => exact Insertion.cleans_throw _
      case h_2 key _ =>
        refine (Insertion.cleans_record _).bind fun _ => Insertion.cleans_pure ?_
        exact fun hbare _ _ _ => nestedAt_of_isBare collection stack hbare
  | array items =>
    unfold insertNested
    exact (cleans_insertNestedItems collection stack 0 items).map fun _ hothers => hothers
  | null => exact Insertion.cleans_pure rfl
  | bool _ => exact Insertion.cleans_pure rfl
  | number _ => exact Insertion.cleans_pure rfl
  | string _ => exact Insertion.cleans_pure rfl
termination_by structural value

theorem cleans_insertNestedItems (collection : Collection) (stack : Stack) (position : Nat)
    (items : List Json) :
    (insertNestedItems collection stack position items).Cleans fun results =>
      nestedInItems collection stack position results = [] := by
  cases items with
  | nil => exact Insertion.cleans_pure rfl
  | cons item rest =>
    unfold insertNestedItems
    refine (cleans_insertNested collection _ item).bind fun replaced => ?_
    refine (cleans_insertNestedItems collection stack _ rest).map fun others hothers hreplaced => ?_
    rw [nestedInItems, hreplaced, hothers]
    rfl
termination_by structural items

theorem cleans_insertNestedFields (collection : Collection) (stack : Stack)
    (fields : List (String × Json)) :
    (insertNestedFields collection stack fields).Cleans fun results =>
      nestedInFields collection stack results = [] := by
  cases fields with
  | nil => exact Insertion.cleans_pure rfl
  | cons field rest =>
    obtain ⟨name, value⟩ := field
    unfold insertNestedFields
    refine (cleans_insertNested collection _ value).bind fun replaced => ?_
    refine (cleans_insertNestedFields collection stack rest).map fun others hothers hreplaced => ?_
    rw [nestedInFields, hreplaced, hothers]
    rfl
termination_by structural fields

end

theorem cleans_insertBelow (collection : Collection) (document : Json) :
    (collection.insertBelow document).Cleans fun prepared => collection.nestedIn prepared = [] := by
  cases document with
  | object fields =>
    exact (cleans_insertNestedFields collection [] fields).map fun _ hothers => hothers
  | array items =>
    exact (cleans_insertNestedItems collection [] 0 items).map fun _ hothers => hothers
  | null => exact Insertion.cleans_pure rfl
  | bool _ => exact Insertion.cleans_pure rfl
  | number _ => exact Insertion.cleans_pure rfl
  | string _ => exact Insertion.cleans_pure rfl

/-- When the keys of the documents that were inserted on the way have no parts, no foreign key of the
collection finds a document in what the walk makes of a document, before this is verified. -/
theorem isObject_eq_false_of_insertBelow {schema : Schema} {graph : Graph}
    (hbuilt : Graph.build schema = .ok graph) {name : String} {document prepared : Json}
    {state after : InsertionState}
    (hrun : ((graph.collection name).insertBelow document).run.run state = (.ok prepared, after)) :
    ∃ recorded, after.dependencies = state.dependencies ++ recorded ∧
      ((∀ dependency ∈ recorded, IsBare dependency.key) →
        ∀ key foreignKey, (graph.collection name).foreignKeys.get? key = some foreignKey →
          ∀ found ∈ prepared.valuesAt foreignKey.path, found.isObject = false) := by
  obtain ⟨recorded, hrecorded, hclean⟩ := cleans_insertBelow _ _ _ _ _ hrun
  refine ⟨recorded, hrecorded, fun hbare key foreignKey hforeignKey => ?_⟩
  exact isObject_eq_false_of_nestedIn hforeignKey (Graph.compiled hbuilt hforeignKey) (hclean hbare)

end

/-- A book whose authors are listed in rows: a new one who has a new publisher, a known one, and
another new one. -/
def stackedBook : Json :=
  .object [("_id", .string "b"), ("authors", .array [
    .array [.object [("_id", .string "c"), ("publisher", .object [("_id", .string "q")])],
      .string "a"],
    .object [("_id", .string "d")]])]

theorem isObject_eq_false_stackedBook : ∃ prepared after recorded,
    ((librarySchema.graph.collection "books").insertBelow stackedBook).run.run
      { session := librarySession } = (.ok prepared, after) ∧
    after.dependencies = recorded ∧ (∀ dependency ∈ recorded, IsBare dependency.key) ∧
    sameItems (prepared.valuesAt ["authors", "$"]) [.string "c", .string "a", .string "d"] ∧
    ∀ found ∈ prepared.valuesAt ["authors", "$"], found.isObject = false := by
  have hruns : (((librarySchema.graph.collection "books").insertBelow stackedBook).run.run
        { session := librarySession }).1.toOption.any (fun prepared =>
          sameItems (prepared.valuesAt ["authors", "$"]) [.string "c", .string "a", .string "d"]) ∧
      (((librarySchema.graph.collection "books").insertBelow stackedBook).run.run
        { session := librarySession }).2.dependencies.all fun dependency =>
          !dependency.key.isObject && !dependency.key.isArray := by
    decide
  cases hrun : ((librarySchema.graph.collection "books").insertBelow stackedBook).run.run
      { session := librarySession } with
  | mk result after =>
    rw [hrun] at hruns
    cases result with
    | error error => cases hruns.1
    | ok prepared =>
      obtain ⟨recorded, hrecorded, hfree⟩ :=
        isObject_eq_false_of_insertBelow (librarySchema.build_graph rfl) hrun
      rw [List.nil_append] at hrecorded
      have hbare : ∀ dependency ∈ recorded, IsBare dependency.key := by
        rw [← hrecorded]
        simpa [IsBare] using hruns.2
      have hforeignKey : ∃ foreignKey,
          (librarySchema.graph.collection "books").foreignKeys.get? "authors" = some foreignKey ∧
            foreignKey.path = ["authors", "$"] := by decide
      obtain ⟨foreignKey, hget, hpath⟩ := hforeignKey
      refine ⟨prepared, after, recorded, rfl, hrecorded, hbare, hruns.1, ?_⟩
      rw [← hpath]
      exact hfree hbare _ _ hget

end Collection

end LinkedDocs
