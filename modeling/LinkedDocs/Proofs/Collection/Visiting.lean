import LinkedDocs.Collection.Normalization
import LinkedDocs.Json.Walk
import LinkedDocs.Proofs.Graph.Built
import LinkedDocs.Proofs.Insertion.Nested

namespace LinkedDocs.Collection

/-- No foreign key stands at the root of a document. -/
theorem foreignKeyAt?_nil {schema : Schema} {graph : Graph} (hbuilt : Graph.build schema = .ok graph)
    (name : String) : (graph.collection name).foreignKeyAt? [] = none := by
  cases hplace : (graph.collection name).foreignKeyAt? [] with
  | none => rfl
  | some foreignKey =>
    have hcompiled : foreignKey.Compiled "" := Graph.compiled hbuilt hplace
    obtain ⟨first, rest, hpath, hfirst, -⟩ := hcompiled.path_eq
    have hsplit := hcompiled.splitPath_name
    rw [hpath, List.filter_cons_of_pos (by simpa using Identifier.ne_wildcard hfirst)] at hsplit
    have hempty : first = "" := (List.head_eq_of_cons_eq hsplit).symm
    rw [hempty] at hfirst
    exact absurd hfirst (by decide)

variable [Platform]

/-- The visit of nested insertion: a document at a foreign key is prepared, inserted and replaced by
its key. -/
def visitNested (collection : Collection) (value : Json) (stack : Stack) :
    Insertion (Option Json) :=
  match value with
  | .object fields =>
    match collection.foreignKeyAt? stack with
    | none => return none
    | some foreignKey => do
      let target := collection.target foreignKey
      let document ← target.prepare (.object fields)
      let stored ← Insertion.ofAccess (Access.insertOne target.name document)
      match target.keyOf? stored with
      | none =>
        throw (.violation collection.name (canonicalKey stack)
          (.nestedWithoutKey target.key target.name))
      | some key =>
        Insertion.record ⟨target.name, key⟩
        return some key
  | _ => return none

mutual

theorem insertNested_eq_walk (collection : Collection) (stack : Stack) (value : Json) :
    insertNested collection stack value = Json.walk collection.visitNested stack value := by
  cases value with
  | array items =>
    rw [insertNested, Json.walk, insertNestedItems_eq_walk collection stack 0 items]
    rfl
  | object fields =>
    rw [insertNested, Json.walk, visitNested]
    cases hplace : collection.foreignKeyAt? stack with
    | none => simp only [insertNestedFields_eq_walk collection stack fields, pure_bind]
    | some foreignKey =>
      simp only [prepare, bind_assoc, pure_bind]
      refine bind_congr fun nested => bind_congr fun _ => bind_congr fun stored => ?_
      cases (collection.target foreignKey).keyOf? stored with
      | none => rfl
      | some key => simp only [bind_assoc, pure_bind]
  | _ => rfl
termination_by structural value

theorem insertNestedItems_eq_walk (collection : Collection) (stack : Stack) (position : Nat)
    (items : List Json) :
    insertNestedItems collection stack position items =
      Json.walkItems collection.visitNested stack position items := by
  cases items with
  | nil => rfl
  | cons item rest =>
    rw [insertNestedItems, Json.walkItems, insertNested_eq_walk collection _ item,
      insertNestedItems_eq_walk collection stack _ rest]
termination_by structural items

theorem insertNestedFields_eq_walk (collection : Collection) (stack : Stack)
    (fields : List (String × Json)) :
    insertNestedFields collection stack fields =
      Json.walkFields collection.visitNested stack fields := by
  cases fields with
  | nil => rfl
  | cons field rest =>
    rw [insertNestedFields, Json.walkFields, insertNested_eq_walk collection _ field.2,
      insertNestedFields_eq_walk collection stack rest]
termination_by structural fields

end

/-- The nested documents of a document are inserted by the deep walk over it. -/
theorem insertBelow_eq_walk {schema : Schema} {graph : Graph}
    (hbuilt : Graph.build schema = .ok graph) (name : String) (document : Json) :
    (graph.collection name).insertBelow document =
      Json.walk (graph.collection name).visitNested [] document := by
  rw [← insertNested_eq_walk]
  cases document with
  | object fields => rw [insertBelow, insertNested, foreignKeyAt?_nil hbuilt]
  | _ => rfl

/-- The visit of normalization: a condition with key sets at a foreign key gets keys in place of the
queries in it. -/
def visitKeySets (collection : Collection) (value : Json) (stack : Stack) :
    Access (Option Json) :=
  match value with
  | .object fields =>
    match if takesKeySet fields then collection.foreignKeyAt? stack else none with
    | none => return none
    | some foreignKey =>
      return some (.object (← keySetFields collection (collection.target foreignKey) fields))
  | _ => return none

mutual

theorem normalizeAt_eq_walk (collection : Collection) (stack : Stack) (filter : Json) :
    normalizeAt collection stack filter = Json.walk collection.visitKeySets stack filter := by
  cases filter with
  | array items =>
    rw [normalizeAt, Json.walk, normalizeItems_eq_walk collection stack 0 items]
    rfl
  | object fields =>
    rw [normalizeAt, Json.walk, visitKeySets]
    cases if takesKeySet fields then collection.foreignKeyAt? stack else none with
    | none => simp only [normalizeFields_eq_walk collection stack fields, pure_bind]
    | some foreignKey => simp only [bind_assoc, pure_bind]
  | _ => rfl
termination_by structural filter

theorem normalizeItems_eq_walk (collection : Collection) (stack : Stack) (position : Nat)
    (items : List Json) :
    normalizeItems collection stack position items =
      Json.walkItems collection.visitKeySets stack position items := by
  cases items with
  | nil => rfl
  | cons item rest =>
    rw [normalizeItems, Json.walkItems, normalizeAt_eq_walk collection _ item,
      normalizeItems_eq_walk collection stack _ rest]
termination_by structural items

theorem normalizeFields_eq_walk (collection : Collection) (stack : Stack)
    (fields : List (String × Json)) :
    normalizeFields collection stack fields =
      Json.walkFields collection.visitKeySets stack fields := by
  cases fields with
  | nil => rfl
  | cons field rest =>
    rw [normalizeFields, Json.walkFields, normalizeAt_eq_walk collection _ field.2,
      normalizeFields_eq_walk collection stack rest]
termination_by structural fields

end

end LinkedDocs.Collection
