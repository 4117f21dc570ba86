import LinkedDocs.Platform.Native
import LinkedDocs.Proofs.Collection.Normalizing

/-!
Plain filter queries: at foreign keys they hold keys and no queries. A normalized filter query is
plain, except that an operator beside a key set is left as it was, with what queries it holds.
-/

namespace LinkedDocs

open Access

namespace Collection

variable {session : Session}

mutual

/-- Whether every key set at a foreign key, in the part of a filter query at a place, is a list of
keys. The operators that stand beside a key set may be left out. -/
def PlainAt (collection : Collection) (store : Store) (beside : Bool) (stack : Stack)
    (filter : Json) : Prop :=
  match filter with
  | .object fields =>
    PlainFields collection store beside stack
      (if takesKeySet fields then collection.foreignKeyAt? stack else none) fields
  | .array items => PlainItems collection store beside stack 0 items
  | _ => True
termination_by structural filter

def PlainItems (collection : Collection) (store : Store) (beside : Bool) (stack : Stack)
    (position : Nat) (items : List Json) : Prop :=
  match items with
  | [] => True
  | item :: rest =>
    PlainAt collection store beside (stack ++ [.index position]) item ∧
      PlainItems collection store beside stack (position + 1) rest
termination_by structural items

def PlainFields (collection : Collection) (store : Store) (beside : Bool) (stack : Stack)
    (keySetOf : Option ForeignKey) (fields : List (String × Json)) : Prop :=
  match fields with
  | [] => True
  | (name, argument) :: rest =>
    (match keySetOf with
      | some foreignKey =>
        if (keySetOperator? name).isSome then
          ListsKeys (collection.target foreignKey) store argument
        else beside → PlainAt collection store beside (stack ++ [.key name]) argument
      | none => PlainAt collection store beside (stack ++ [.key name]) argument) ∧
      PlainFields collection store beside stack keySetOf rest
termination_by structural fields

end

mutual

/-- Whether the operators beside the key sets of a filter query at foreign keys are plain. -/
def PlainBesideAt (collection : Collection) (store : Store) (stack : Stack) (filter : Json) :
    Prop :=
  match filter with
  | .object fields =>
    match if takesKeySet fields then collection.foreignKeyAt? stack else none with
    | some _ => ∀ field ∈ fields, keySetOperator? field.1 = none →
        PlainAt collection store true (stack ++ [.key field.1]) field.2
    | none => PlainBesideFields collection store stack fields
  | .array items => PlainBesideItems collection store stack 0 items
  | _ => True
termination_by structural filter

def PlainBesideItems (collection : Collection) (store : Store) (stack : Stack) (position : Nat)
    (items : List Json) : Prop :=
  match items with
  | [] => True
  | item :: rest =>
    PlainBesideAt collection store (stack ++ [.index position]) item ∧
      PlainBesideItems collection store stack (position + 1) rest
termination_by structural items

def PlainBesideFields (collection : Collection) (store : Store) (stack : Stack)
    (fields : List (String × Json)) : Prop :=
  match fields with
  | [] => True
  | (name, argument) :: rest =>
    PlainBesideAt collection store (stack ++ [.key name]) argument ∧
      PlainBesideFields collection store stack rest
termination_by structural fields

end

section Plain

variable [Platform]
variable {schema : Schema} {graph : Graph} {name : String}

/-- At a foreign key, only the operators beside the key sets may not be plain, and they are as they
were. -/
theorem plainFields_keySetFields_iff (hbuilt : Graph.build schema = .ok graph) {beside : Bool}
    {stack : Stack} {foreignKey : ForeignKey} {fields results : List (String × Json)}
    (h : (keySetFields (graph.collection name) ((graph.collection name).target foreignKey)
      fields).answer session = .ok results) :
    PlainFields (graph.collection name) session.store beside stack (some foreignKey) results ↔
      (beside → ∀ field ∈ fields, keySetOperator? field.1 = none →
        PlainAt (graph.collection name) session.store true (stack ++ [.key field.1]) field.2) := by
  induction fields generalizing results with
  | nil =>
    cases h
    simp [PlainFields]
  | cons field rest ih =>
    obtain ⟨field, argument⟩ := field
    obtain ⟨result, others, rfl, hresult, hothers⟩ := exists_of_keySetFields_cons h
    rw [PlainFields, ih hothers]
    cases hname : keySetOperator? field with
    | none =>
      rw [eq_of_keySetArgument hname hresult]
      cases beside <;> simp [hname]
    | some operator =>
      have hvalid : ∀ segment ∈ splitPath ((graph.collection name).target foreignKey).key,
          Identifier.isValid segment :=
        Graph.isValid_of_mem_key hbuilt foreignKey.collection
      have hlists := listsKeys_of_keySetArgument hvalid (Option.isSome_of_eq_some hname) hresult
      simp [hname, hlists]

mutual

/-- A normalized part of a filter query is plain unless operators beside its key sets are not. -/
theorem plainAt_normalizeAt_iff (hbuilt : Graph.build schema = .ok graph) {beside : Bool}
    {stack : Stack} (filter : Json) {result : Json}
    (h : (normalizeAt (graph.collection name) stack filter).answer session = .ok result) :
    PlainAt (graph.collection name) session.store beside stack result ↔
      (beside → PlainBesideAt (graph.collection name) session.store stack filter) := by
  cases filter with
  | object fields =>
    rw [normalizeAt] at h
    rw [PlainBesideAt]
    cases hkey : if takesKeySet fields then (graph.collection name).foreignKeyAt? stack else none with
    | some foreignKey =>
      rw [hkey] at h
      obtain ⟨results, hresults, h⟩ :=
        ((reads_keySetFields _ _ _).answer_bind_eq_ok_iff fun _ => .pure _).1 h
      cases h
      -- the names decide whether a condition takes key sets, and they are as they were
      rw [PlainAt, takesKeySet_congr (names_keySetFields hresults), hkey]
      exact plainFields_keySetFields_iff hbuilt hresults
    | none =>
      rw [hkey] at h
      obtain ⟨results, hresults, h⟩ :=
        ((reads_normalizeFields _ _ _).answer_bind_eq_ok_iff fun _ => .pure _).1 h
      cases h
      rw [PlainAt, takesKeySet_congr (names_normalizeFields hresults), hkey]
      exact plainFields_normalizeFields_iff hbuilt fields hresults
  | array items =>
    rw [normalizeAt] at h
    obtain ⟨results, hresults, h⟩ :=
      ((reads_normalizeItems _ _ _ _).answer_bind_eq_ok_iff fun _ => .pure _).1 h
    cases h
    rw [PlainAt, PlainBesideAt]
    exact plainItems_normalizeItems_iff hbuilt items hresults
  | _ =>
    cases h
    simp [PlainAt, PlainBesideAt]
termination_by structural filter

theorem plainItems_normalizeItems_iff (hbuilt : Graph.build schema = .ok graph) {beside : Bool}
    {stack : Stack} {position : Nat} (items : List Json) {results : List Json}
    (h : (normalizeItems (graph.collection name) stack position items).answer session =
      .ok results) :
    PlainItems (graph.collection name) session.store beside stack position results ↔
      (beside → PlainBesideItems (graph.collection name) session.store stack position items) := by
  cases items with
  | nil =>
    cases h
    simp [PlainItems, PlainBesideItems]
  | cons item rest =>
    rw [normalizeItems, (reads_normalizeAt _ _ _).answer_cons_eq_ok_iff
      (reads_normalizeItems _ _ _ _)] at h
    obtain ⟨result, others, hresult, hothers, rfl⟩ := h
    rw [PlainItems, PlainBesideItems, plainAt_normalizeAt_iff hbuilt item hresult,
      plainItems_normalizeItems_iff hbuilt rest hothers, forall_and]
termination_by structural items

theorem plainFields_normalizeFields_iff (hbuilt : Graph.build schema = .ok graph) {beside : Bool}
    {stack : Stack} (fields : List (String × Json)) {results : List (String × Json)}
    (h : (normalizeFields (graph.collection name) stack fields).answer session = .ok results) :
    PlainFields (graph.collection name) session.store beside stack none results ↔
      (beside → PlainBesideFields (graph.collection name) session.store stack fields) := by
  cases fields with
  | nil =>
    cases h
    simp [PlainFields, PlainBesideFields]
  | cons field rest =>
    obtain ⟨field, argument⟩ := field
    obtain ⟨result, others, rfl, hresult, hothers⟩ := exists_of_normalizeFields_cons h
    rw [PlainFields, PlainBesideFields, plainAt_normalizeAt_iff hbuilt argument hresult,
      plainFields_normalizeFields_iff hbuilt rest hothers, forall_and]
termination_by structural fields

end

/-- A normalized filter query is plain but for the operators beside its key sets at foreign keys.
They are left as they were, so it is plain there too when they were plain before. -/
theorem plainAt_normalize (hbuilt : Graph.build schema = .ok graph)
    (hlinked : (graph.collection name).foreignKeys.isEmpty = false) {filter normalized : Json}
    (hnormalized : ((graph.collection name).normalize filter).answer session = .ok normalized) :
    PlainAt (graph.collection name) session.store false [] normalized ∧
      (PlainAt (graph.collection name) session.store true [] normalized ↔
        PlainBesideAt (graph.collection name) session.store [] filter) := by
  rw [normalize, hlinked, if_neg Bool.false_ne_true] at hnormalized
  constructor
  · refine (plainAt_normalizeAt_iff hbuilt filter hnormalized).2 fun hbeside => ?_
    cases hbeside
  · rw [plainAt_normalizeAt_iff hbuilt filter hnormalized]
    exact forall_prop_of_true rfl

end Plain

/-- In one condition on the author the query is below an operator, in the other beside one. -/
def byEither : Json :=
  .single "$or" (.array [.single "author" (.single "$not" (authorNamed "Ursula")),
    .single "author" (.object [("$ne", .string "u"), ("$nin", .single "name" (.string "Ursula"))])])

def plainByEither : Json :=
  .single "$or" (.array [.single "author" (.single "$not" (.oneOf [.string "u"])),
    .single "author" (.object [("$ne", .string "u"), ("$nin", .array [.string "u"])])])

theorem plainAt_normalize_byEither :
    ((authorSchema.graph.collection "books").normalize byEither).answer authorSession =
        .ok plainByEither ∧
      PlainAt (authorSchema.graph.collection "books") authorSession.store true []
        plainByEither := by
  have hnormalized : ((authorSchema.graph.collection "books").normalize byEither).answer
      authorSession = .ok plainByEither := rfl
  refine ⟨hnormalized, (plainAt_normalize (authorSchema.build_graph rfl) rfl hnormalized).2.2
    ⟨⟨⟨⟨?below, trivial⟩, trivial⟩, ⟨?beside, trivial⟩, trivial⟩, trivial⟩⟩
  case below =>
    exact List.forall_mem_singleton.2 fun hname => absurd hname (by decide)
  case beside =>
    exact List.forall_mem_cons.2
      ⟨fun _ => trivial, List.forall_mem_singleton.2 fun hname => absurd hname (by decide)⟩

def besideKeys : Json :=
  .single "author" (.object [("$in", .array [.string "u"]), ("$not", authorNamed "Ursula")])

/-- The query below an operator that stands beside a list of keys is left behind. -/
theorem not_plainAt_normalize_besideKeys :
    ((authorSchema.graph.collection "books").normalize besideKeys).answer authorSession =
        .ok besideKeys ∧
      ¬ PlainAt (authorSchema.graph.collection "books") authorSession.store true [] besideKeys := by
  refine ⟨rfl, ?_⟩
  rintro ⟨⟨-, hbeside, -⟩, -⟩
  obtain ⟨⟨items, hitems, -⟩, -⟩ := hbeside rfl
  cases hitems

end Collection

end LinkedDocs
