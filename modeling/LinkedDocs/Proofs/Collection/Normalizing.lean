import LinkedDocs.Proofs.Collection.Keys
import LinkedDocs.Proofs.Path

namespace LinkedDocs

open Access

namespace Collection

variable {collection target : Collection} {session : Session}

theorem foreignKeyAt?_congr {stack other : Stack} (hnames : stackNames stack = stackNames other) :
    collection.foreignKeyAt? stack = collection.foreignKeyAt? other := by
  rw [foreignKeyAt?, foreignKeyAt?, canonicalKey_eq, canonicalKey_eq, hnames]

theorem stackNames_congr {stack other : Stack} (hnames : stackNames stack = stackNames other)
    (segment : Segment) : stackNames (stack ++ [segment]) = stackNames (other ++ [segment]) := by
  rw [stackNames_append, stackNames_append, hnames]

theorem takesKeySet_congr {fields others : List (String × Json)}
    (hnames : fields.map Prod.fst = others.map Prod.fst) :
    takesKeySet fields = takesKeySet others := by
  have hmap (fields : List (String × Json)) :
      takesKeySet fields = (fields.map Prod.fst).any fun name => (keySetOperator? name).isSome := by
    rw [takesKeySet, List.any_map]
    rfl
  rw [hmap, hmap, hnames]

variable [Platform]

mutual

theorem normalizeAt_congr {stack other : Stack} (hnames : stackNames stack = stackNames other)
    (filter : Json) :
    normalizeAt collection stack filter = normalizeAt collection other filter := by
  cases filter with
  | object fields =>
    rw [normalizeAt, normalizeAt, foreignKeyAt?_congr hnames, normalizeFields_congr hnames fields]
  | array items => rw [normalizeAt, normalizeAt, normalizeItems_congr hnames 0 items]
  | _ => rfl
termination_by structural filter

theorem normalizeItems_congr {stack other : Stack} (hnames : stackNames stack = stackNames other)
    (position : Nat) (items : List Json) :
    normalizeItems collection stack position items =
      normalizeItems collection other position items := by
  cases items with
  | nil => rfl
  | cons item rest =>
    rw [normalizeItems, normalizeItems, normalizeAt_congr (stackNames_congr hnames _) item,
      normalizeItems_congr hnames _ rest]
termination_by structural items

theorem normalizeFields_congr {stack other : Stack} (hnames : stackNames stack = stackNames other)
    (fields : List (String × Json)) :
    normalizeFields collection stack fields = normalizeFields collection other fields := by
  cases fields with
  | nil => rfl
  | cons field rest =>
    obtain ⟨name, value⟩ := field
    rw [normalizeFields, normalizeFields, normalizeAt_congr (stackNames_congr hnames _) value,
      normalizeFields_congr hnames rest]
termination_by structural fields

end

/-- The items of a list are normalized as at the place of the list. -/
theorem answer_normalizeItems_eq_ok_iff {stack : Stack} {position : Nat}
    {items results : List Json} :
    (normalizeItems collection stack position items).answer session = .ok results ↔
      List.Forall₂ (fun item result =>
        (normalizeAt collection stack item).answer session = .ok result) items results := by
  induction items generalizing position results with
  | nil =>
    rw [normalizeItems, answer_pure, List.forall₂_nil_left_iff, Except.ok.injEq, eq_comm]
  | cons item rest ih =>
    have hnames := stackNames_index stack position
    rw [normalizeItems, normalizeAt_congr hnames, List.forall₂_cons_left_iff,
      (reads_normalizeAt _ _ _).answer_cons_eq_ok_iff (reads_normalizeItems _ _ _ _)]
    simp only [ih]

theorem exists_of_normalizeFields_cons {stack : Stack} {name : String} {value : Json}
    {rest results : List (String × Json)}
    (h : (normalizeFields collection stack ((name, value) :: rest)).answer session = .ok results) :
    ∃ result others, results = (name, result) :: others ∧
      (normalizeAt collection (stack ++ [.key name]) value).answer session = .ok result ∧
      (normalizeFields collection stack rest).answer session = .ok others := by
  rw [normalizeFields, (reads_normalizeAt _ _ _).answer_cons_eq_ok_iff
    (reads_normalizeFields _ _ _)] at h
  obtain ⟨result, others, hresult, hothers, rfl⟩ := h
  exact ⟨result, others, rfl, hresult, hothers⟩

theorem names_normalizeFields {stack : Stack} {fields results : List (String × Json)}
    (h : (normalizeFields collection stack fields).answer session = .ok results) :
    results.map Prod.fst = fields.map Prod.fst := by
  induction fields generalizing results with
  | nil =>
    cases h
    rfl
  | cons field rest ih =>
    obtain ⟨value, others, rfl, -, hothers⟩ := exists_of_normalizeFields_cons h
    rw [List.map_cons, List.map_cons, ih hothers]

/-- A list of keys: an object in it is the key of a stored document, and no query. -/
def ListsKeys (target : Collection) (store : Store) (argument : Json) : Prop :=
  ∃ items, argument = .array items ∧ ∀ item ∈ items, item.isObject →
    ∃ document ∈ store.documents target.name, target.keyOf? document = some item

theorem reads_keys (filter : Json) : (target.keys filter).Reads :=
  .bind (reads_normalize _ _) fun _ => reads_storedKeys _ _ _

/-- A query in a key set is run as a query for keys of the target collection. -/
theorem keySetItems_cons (item : Json) (rest : List Json) :
    keySetItems target (item :: rest) = (do
      let keys ← if item.isObject then target.keys item else pure [item]
      return keys ++ (← keySetItems target rest)) := by
  rw [keySetItems]
  dsimp only
  split
  · simp only [keys, normalize, bind_assoc]
    split <;> rfl
  · rfl

/-- The argument of an operator at a foreign key: a key set is evaluated, others are kept. -/
def keySetArgument (collection target : Collection) (name : String) (argument : Json) :
    Access Json :=
  match keySetOperator? name with
  | none => pure argument
  | some operator =>
    if argument.isObject then return .array (← target.keys argument)
    else keySet collection target operator argument

theorem keySetFields_cons (name : String) (argument : Json) (rest : List (String × Json)) :
    keySetFields collection target ((name, argument) :: rest) = (do
      let normalized ← keySetArgument collection target name argument
      return (name, normalized) :: (← keySetFields collection target rest)) := by
  rw [keySetFields, keySetArgument]
  cases keySetOperator? name with
  | none => rfl
  | some operator =>
    dsimp only
    split
    · simp only [keys, normalize, bind_assoc]
      split <;> rfl
    · rfl

theorem reads_keySetArgument (name : String) (argument : Json) :
    (keySetArgument collection target name argument).Reads := by
  rw [keySetArgument]
  split
  · exact .pure _
  · split
    · exact .bind (reads_keys _) fun _ => .pure _
    · exact reads_keySet _ _ _ _

theorem exists_of_keySetFields_cons {name : String} {argument : Json}
    {rest results : List (String × Json)}
    (h : (keySetFields collection target ((name, argument) :: rest)).answer session = .ok results) :
    ∃ result others, results = (name, result) :: others ∧
      (keySetArgument collection target name argument).answer session = .ok result ∧
      (keySetFields collection target rest).answer session = .ok others := by
  rw [keySetFields_cons, (reads_keySetArgument _ _).answer_cons_eq_ok_iff
    (reads_keySetFields _ _ _)] at h
  obtain ⟨result, others, hresult, hothers, rfl⟩ := h
  exact ⟨result, others, rfl, hresult, hothers⟩

theorem names_keySetFields {fields results : List (String × Json)}
    (h : (keySetFields collection target fields).answer session = .ok results) :
    results.map Prod.fst = fields.map Prod.fst := by
  induction fields generalizing results with
  | nil =>
    cases h
    rfl
  | cons field rest ih =>
    obtain ⟨result, others, rfl, -, hothers⟩ := exists_of_keySetFields_cons h
    rw [List.map_cons, List.map_cons, ih hothers]

section Valid

variable (hvalid : ∀ segment ∈ splitPath target.key, Identifier.isValid segment)

include hvalid

theorem exists_of_keys {filter : Json} {keys : List Json}
    (h : (target.keys filter).answer session = .ok keys) :
    ∀ key ∈ keys, ∃ document ∈ session.store.documents target.name,
      target.keyOf? document = some key := by
  obtain ⟨normalized, -, h⟩ :=
    ((reads_normalize _ _).answer_bind_eq_ok_iff fun _ => reads_storedKeys _ _ _).1 h
  exact exists_of_storedKeys hvalid h

theorem exists_of_keySetItems {items results : List Json}
    (h : (keySetItems target items).answer session = .ok results) :
    ∀ item ∈ results, item.isObject →
      ∃ document ∈ session.store.documents target.name, target.keyOf? document = some item := by
  induction items generalizing results with
  | nil =>
    cases h
    exact fun _ hmem => absurd hmem List.not_mem_nil
  | cons item rest ih =>
    have hrest := reads_keySetItems target rest
    rw [keySetItems_cons] at h
    split at h
    case isTrue =>
      obtain ⟨keys, hkeys, h⟩ :=
        ((reads_keys item).answer_bind_eq_ok_iff fun _ => .bind hrest fun _ => .pure _).1 h
      obtain ⟨others, hothers, h⟩ := (hrest.answer_bind_eq_ok_iff fun _ => .pure _).1 h
      cases h
      exact List.forall_mem_append.2
        ⟨fun key hkey _ => exists_of_keys hvalid hkeys key hkey, ih hothers⟩
    case isFalse hobject =>
      rw [pure_bind] at h
      obtain ⟨others, hothers, h⟩ := (hrest.answer_bind_eq_ok_iff fun _ => .pure _).1 h
      cases h
      exact List.forall_mem_cons.2 ⟨fun hitem => absurd hitem hobject, ih hothers⟩

/-- The key sets of a condition at a foreign key become lists of keys. -/
theorem listsKeys_of_keySetArgument {name : String} {argument result : Json}
    (hname : (keySetOperator? name).isSome)
    (h : (keySetArgument collection target name argument).answer session = .ok result) :
    ListsKeys target session.store result := by
  obtain ⟨operator, hoperator⟩ := Option.isSome_iff_exists.1 hname
  rw [keySetArgument, hoperator] at h
  dsimp only at h
  split at h
  case isTrue =>
    obtain ⟨keys, hkeys, h⟩ := ((reads_keys argument).answer_bind_eq_ok_iff fun _ => .pure _).1 h
    cases h
    exact ⟨keys, rfl, fun key hkey _ => exists_of_keys hvalid hkeys key hkey⟩
  case isFalse =>
    cases argument with
    | array items =>
      rw [keySet, (reads_keySetItems _ _).answer_bind_eq_ok_iff fun _ => .pure _] at h
      obtain ⟨keys, hkeys, h⟩ := h
      cases h
      exact ⟨keys, rfl, exists_of_keySetItems hvalid hkeys⟩
    | _ => cases h

end Valid

theorem eq_of_keySetArgument {name : String} {argument result : Json}
    (hname : keySetOperator? name = none)
    (h : (keySetArgument collection target name argument).answer session = .ok result) :
    result = argument := by
  rw [keySetArgument, hname] at h
  exact (Except.ok.inj h).symm

end Collection

/-- Books, and the authors that they name. -/
def authorSchema : Schema where
  collections := .ofList [("books", { foreignKeys := .ofList [("author",
    { collection := some "authors" })] })]

/-- The keys of the authors with a name. -/
def authorNamed (name : String) : Json :=
  .single "$in" (.single "name" (.string name))

def authoredBook (id genre author : String) : Json :=
  .object [("_id", .string id), ("genre", .string genre), ("author", .string author)]

def authorSession : Session where
  store := { collections := .ofList [
    ("authors", [.object [("_id", .string "u"), ("name", .string "Ursula")],
      .object [("_id", .string "i"), ("name", .string "Italo")]]),
    ("books", [authoredBook "a" "novel" "u", authoredBook "b" "novel" "i",
      authoredBook "c" "poem" "u", authoredBook "d" "novel" "u"])] }

end LinkedDocs
