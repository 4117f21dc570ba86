import LinkedDocs.Platform.Native
import LinkedDocs.Proofs.Collection.Keys
import LinkedDocs.Proofs.Insertion.Runs
import LinkedDocs.Proofs.Store.Runs

/-!
Whether keys belong to stored documents, asked key by key and by a count. The count is right where
every document is found by one key only and no two documents share a key. Ids are never shared; other
keys may be, and then two documents with one key make up for a key without a document.
-/

namespace LinkedDocs

open Json

namespace Json

theorem distinctFrom_eq_append {seen values : List Json} (h : (seen ++ values).Pairwise Differ) :
    distinctFrom seen values = seen ++ values := by
  induction values generalizing seen with
  | nil => rw [distinctFrom, List.append_nil]
  | cons value rest ih =>
    have hnew : holds seen value = false := by
      rw [holds, List.any_eq_false]
      intro other hother hsame
      have hdiffer := (List.pairwise_append.1 h).2.2 other hother value List.mem_cons_self
      rw [Differ, hsame] at hdiffer
      cases hdiffer
    rw [List.append_cons] at h
    rw [distinctFrom, if_neg (by simp [hnew]), ih h, ← List.append_cons]

theorem pairwise_distinct (values : List Json) : (distinct values).Pairwise Differ := by
  rw [distinct, distinctFrom_eq]
  exact DeletedKeys.pairwise_append_freshKeys .nil values

theorem distinct_distinct (values : List Json) : distinct (distinct values) = distinct values :=
  distinctFrom_eq_append (pairwise_distinct values)

theorem distinct_eq_nil_iff {values : List Json} : distinct values = [] ↔ values = [] := by
  constructor
  · intro hnil
    refine List.eq_nil_iff_forall_not_mem.2 fun value hvalue => ?_
    have hheld := holds_distinct hvalue
    rw [hnil] at hheld
    cases hheld
  · rintro rfl
    rfl

theorem distinct_subset (values : List Json) : distinct values ⊆ values := by
  rw [distinct, distinctFrom_eq]
  exact DeletedKeys.freshKeys_subset [] values

end Json

namespace Collection

/-- The key of a document as queries see it: a missing one reads as null. -/
def keyOrNull (collection : Collection) (document : Json) : Json :=
  (collection.keyOf? document).getD .null

/-- Whether a document is found by one key only: its key is no array, nor is it inside of one. -/
structure KeyedOnce (collection : Collection) (document : Json) : Prop where
  lookup_eq : Filter.lookup document collection.key = [collection.keyOf? document]
  isArray_eq : (collection.keyOrNull document).isArray = false

section

variable [Platform]

/-- Whether some keys tell the documents apart that are found by them. No two documents have the
same id, so it is other keys that they may share. -/
structure TellsApart (collection : Collection) (store : Store) (keys : List Json) : Prop where
  isObject_eq : ∀ key ∈ keys, key.isObject = false
  keyedOnce : ∀ document ∈
    Filter.matching (store.documents collection.name) (collection.keysQuery keys),
      collection.KeyedOnce document
  differ : collection.key ≠ idField →
    ((Filter.matching (store.documents collection.name) (collection.keysQuery keys)).map
      collection.keyOrNull).Pairwise Differ

/-- Whether the query for a key finds a document. -/
def Finds (collection : Collection) (store : Store) (key : Json) : Prop :=
  ∃ document ∈ store.documents collection.name,
    Filter.anyAmong (Filter.lookup document collection.key) [key]

instance (collection : Collection) (store : Store) (key : Json) :
    Decidable (collection.Finds store key) :=
  inferInstanceAs (Decidable (∃ document ∈ store.documents collection.name,
    Filter.anyAmong (Filter.lookup document collection.key) [key]))

section Keys

variable {collection : Collection} {document : Json}

omit [Platform] in
theorem keyOrNull_eq_idOf (hkey : collection.key = idField) (document : Json) :
    collection.keyOrNull document = Store.idOf document := by
  rw [keyOrNull, keyOf?, getPath?, hkey, if_neg (by decide), Store.splitPath_idField]
  cases document with
  | object fields =>
    change ((lookupName idField fields).bind some).getD .null = (lookupName idField fields).getD .null
    rw [Option.bind_fun_some]
  | _ => rfl

omit [Platform] in
theorem KeyedOnce.anyAmong_eq (h : collection.KeyedOnce document) (keys : List Json) :
    Filter.anyAmong (Filter.lookup document collection.key) keys =
      holds keys (collection.keyOrNull document) := by
  have hequals (key : Json) : Filter.equalsTarget key (collection.keyOf? document) =
      key.sameValue (collection.keyOrNull document) := by
    have harray := h.isArray_eq
    unfold keyOrNull at harray ⊢
    cases hkey : collection.keyOf? document with
    | none => cases key <;> rfl
    | some value =>
      rw [hkey] at harray
      exact (Filter.equalsTarget_some harray key).trans (sameValue_comm _ _)
  rw [h.lookup_eq]
  simp only [Filter.anyAmong, List.any_cons, List.any_nil, Bool.or_false, hequals, holds]

theorem mem_matching_keysQuery_iff (hmarked : isMarked collection.key = false) {store : Store}
    {keys : List Json} :
    document ∈ Filter.matching (store.documents collection.name) (collection.keysQuery keys) ↔
      document ∈ store.documents collection.name ∧
        Filter.anyAmong (Filter.lookup document collection.key) keys :=
  Filter.mem_matching_oneOf_iff hmarked

theorem accepts_keyQuery (hmarked : isMarked collection.key = false) {key : Json}
    (hkey : key.isObject = false) (document : Json) :
    Filter.accepts document (collection.keyQuery key) =
      .ok (Filter.anyAmong (Filter.lookup document collection.key) [key]) := by
  rw [keyQuery, Filter.accepts_value hmarked document hkey]
  simp only [Filter.anyEquals, Filter.anyAmong, List.any_cons, List.any_nil, Bool.or_false]

/-- A repeated key finds nothing more. -/
theorem matching_distinct (hmarked : isMarked collection.key = false) (documents keys : List Json) :
    Filter.matching documents (collection.keysQuery (Json.distinct keys)) =
      Filter.matching documents (collection.keysQuery keys) := by
  refine List.filter_congr fun document _ => ?_
  rw [keysQuery, keysQuery, Filter.matched_of_accepts (Filter.accepts_oneOf hmarked document _),
    Filter.matched_of_accepts (Filter.accepts_oneOf hmarked document _)]
  exact Bool.eq_iff_iff.2
    ⟨Filter.anyAmong_of_holds fun key hkey => holds_of_mem (distinct_subset keys hkey),
      Filter.anyAmong_of_holds fun key hkey => holds_distinct hkey⟩

end Keys

section Answers

variable {collection : Collection} {session : Session}

theorem answer_hasKey_eq_ok_iff (hmarked : isMarked collection.key = false) {key : Json}
    (hkey : key.isObject = false) :
    (collection.hasKey key).answer session = .ok true ↔
      session.refused.contains .count = false ∧ collection.Finds session.store key := by
  have hevaluates : Filter.Evaluates (session.store.documents collection.name)
      (collection.keyQuery key) := fun document _ => ⟨_, accepts_keyQuery hmarked hkey document⟩
  have hfinds : collection.Finds session.store key ↔ 0 < (Filter.matching
      (session.store.documents collection.name) (collection.keyQuery key)).length := by
    rw [List.length_pos_iff_exists_mem]
    simp only [Filter.mem_matching_iff, accepts_keyQuery hmarked hkey, Except.ok.injEq, Finds]
  rw [hasKey, (Access.Reads.count _ _ _).answer_bind fun _ => .pure _, Access.answer_count, hfinds]
  cases session.refused.contains .count with
  | true => simp
  | false =>
    simp only [Bool.false_eq_true, if_false, true_and, Store.count, Store.inCollection,
      Store.countIn_matching hevaluates, Store.inRoom, Except.mapError, ok_bind, Access.answer_pure,
      List.length_take, Except.ok.injEq, decide_eq_true_eq]
    omega

theorem answer_hasAllKeys_eq_ok_iff (hmarked : isMarked collection.key = false) {keys : List Json} :
    (collection.hasAllKeys keys).answer session = .ok true ↔
      keys = [] ∨ session.refused.contains .count = false ∧
        (Filter.matching (session.store.documents collection.name)
          (collection.keysQuery keys)).length = (Json.distinct keys).length := by
  have hevaluates : Filter.Evaluates (session.store.documents collection.name)
      (collection.keysQuery (Json.distinct keys)) := Filter.evaluates_oneOf hmarked _ _
  unfold hasAllKeys
  dsimp only
  split
  case isTrue hempty =>
    have hkeys : keys = [] := distinct_eq_nil_iff.1 (List.isEmpty_iff.1 hempty)
    exact ⟨fun _ => .inl hkeys, fun _ => rfl⟩
  case isFalse hsome =>
    have hkeys : keys ≠ [] := by
      rintro rfl
      exact hsome rfl
    rw [(Access.Reads.count _ _ _).answer_bind fun _ => .pure _, Access.answer_count]
    cases session.refused.contains .count with
    | true => simp [hkeys]
    | false =>
      simp [hkeys, Store.count, Store.inCollection, Store.countIn_matching hevaluates, Store.inRoom,
        Except.mapError, matching_distinct hmarked]

theorem TellsApart.holds_iff_finds (hmarked : isMarked collection.key = false) {store : Store}
    {keys : List Json} (h : collection.TellsApart store keys) {key : Json} (hkey : key ∈ keys) :
    holds ((Filter.matching (store.documents collection.name) (collection.keysQuery keys)).map
      collection.keyOrNull) key ↔ collection.Finds store key := by
  have hown (document : Json) (hkeyed : collection.KeyedOnce document) :
      Filter.anyAmong (Filter.lookup document collection.key) [key] =
        (collection.keyOrNull document).sameValue key := by
    rw [hkeyed.anyAmong_eq, holds, List.any_cons, List.any_nil, Bool.or_false, sameValue_comm]
  rw [holds, List.any_map, List.any_eq_true]
  constructor
  · rintro ⟨document, hdocument, hsame⟩
    refine ⟨document, (List.mem_filter.1 hdocument).1, ?_⟩
    exact (hown document (h.keyedOnce document hdocument)).trans hsame
  · rintro ⟨document, hdocument, hany⟩
    have hfound := (mem_matching_keysQuery_iff hmarked).2
      ⟨hdocument, Filter.anyAmong_iff.2 ⟨key, hkey, hany⟩⟩
    exact ⟨document, hfound, (hown document (h.keyedOnce document hfound)).symm.trans hany⟩

/-- Keys that tell documents apart find as many documents as there are different keys exactly if each
of them finds one. -/
theorem TellsApart.length_matching_eq_iff (hmarked : isMarked collection.key = false) {store : Store}
    (hkept : store.KeepsApart) {keys : List Json} (h : collection.TellsApart store keys) :
    (Filter.matching (store.documents collection.name) (collection.keysQuery keys)).length =
      (Json.distinct keys).length ↔ ∀ key ∈ keys, collection.Finds store key := by
  let found := Filter.matching (store.documents collection.name) (collection.keysQuery keys)
  have hdiffer : (found.map collection.keyOrNull).Pairwise Differ := by
    by_cases hkey : collection.key = idField
    · have hsub : (found.map Store.idOf).Sublist
          ((store.documents collection.name).map Store.idOf) := List.filter_sublist.map _
      rw [funext (keyOrNull_eq_idOf hkey)]
      exact (hkept collection.name).differ.sublist hsub
    · exact h.differ hkey
  have hheld : ∀ own ∈ found.map collection.keyOrNull, holds (Json.distinct keys) own := by
    intro own hown
    obtain ⟨document, hdocument, rfl⟩ := List.mem_map.1 hown
    have hany := (mem_matching_keysQuery_iff hmarked).1 hdocument
    rw [(h.keyedOnce document hdocument).anyAmong_eq] at hany
    obtain ⟨key, hkey, hsame⟩ := holds_iff.1 hany.2
    rw [← holds_congr hsame]
    exact holds_distinct hkey
  have hcount := length_eq_iff_forall_holds hdiffer (pairwise_distinct keys) hheld
  rw [List.length_map] at hcount
  rw [hcount]
  constructor
  · intro hall key hkey
    obtain ⟨other, hother, hsame⟩ := holds_iff.1 (holds_distinct hkey)
    rw [← h.holds_iff_finds hmarked hkey, ← holds_congr hsame]
    exact hall other hother
  · intro hfinds key hkey
    have hmem := distinct_subset keys hkey
    exact (h.holds_iff_finds hmarked hmem).2 (hfinds key hmem)

theorem TellsApart.answer_hasAllKeys_eq_ok_iff (hmarked : isMarked collection.key = false)
    (hkept : session.store.KeepsApart) {keys : List Json}
    (h : collection.TellsApart session.store keys) :
    (collection.hasAllKeys keys).answer session = .ok true ↔
      ∀ key ∈ keys, (collection.hasKey key).answer session = .ok true := by
  have hasKey (key : Json) (hkey : key ∈ keys) : (collection.hasKey key).answer session = .ok true ↔
      session.refused.contains .count = false ∧ collection.Finds session.store key :=
    answer_hasKey_eq_ok_iff hmarked (h.isObject_eq key hkey)
  rw [Collection.answer_hasAllKeys_eq_ok_iff hmarked, h.length_matching_eq_iff hmarked hkept]
  constructor
  · rintro (rfl | ⟨hallowed, hfinds⟩) key hkey
    · cases hkey
    · exact (hasKey key hkey).2 ⟨hallowed, hfinds key hkey⟩
  · intro hall
    refine (List.eq_nil_or_concat keys).imp_right ?_
    rintro ⟨front, last, rfl⟩
    have hlast : last ∈ front.concat last := by simp
    exact ⟨((hasKey last hlast).1 (hall last hlast)).1,
      fun key hkey => ((hasKey key hkey).1 (hall key hkey)).2⟩

theorem hasAllKeys_distinct (collection : Collection) (keys : List Json) :
    collection.hasAllKeys (Json.distinct keys) = collection.hasAllKeys keys := by
  unfold hasAllKeys
  rw [distinct_distinct]

end Answers

/-- Scalar keys that no two documents share tell the documents apart. -/
theorem tellsApart_of_pairwise {schema : Schema} {graph : Graph}
    (hbuilt : Graph.build schema = .ok graph) {name : String} {store : Store} {keys : List Json}
    (hobjects : ∀ key ∈ keys, key.isObject = false)
    (hscalar : ∀ document ∈ store.documents name,
      ((graph.collection name).keyOf? document).any isScalar)
    (hdiffer : ((store.documents name).map (graph.collection name).keyOrNull).Pairwise Differ) :
    (graph.collection name).TellsApart store keys where
  isObject_eq := hobjects
  keyedOnce := by
    intro document hdocument
    have hkeyed := hscalar document (List.mem_filter.1 hdocument).1
    cases hkey : (graph.collection name).keyOf? document with
    | none =>
      rw [hkey] at hkeyed
      cases hkeyed
    | some key =>
      rw [hkey] at hkeyed
      refine ⟨?_, ?_⟩
      · rw [hkey]
        exact Filter.candidates_of_follow? (Graph.isValid_of_mem_key hbuilt name)
          (Graph.keyOf?_eq_follow? hbuilt name document ▸ hkey)
      · rw [keyOrNull, hkey]
        exact isArray_eq_false_of_isScalar hkeyed
  differ := fun _ => hdiffer.sublist (List.filter_sublist.map _)

/-- In a store that was loaded and used, keys that tell the documents apart are all there exactly if
each of them is, and a document is verified exactly if each key is there that it has in a foreign
key to be verified. -/
theorem hasAllKeys_and_verify_iff_hasKey {schema : Schema} {graph : Graph}
    (hbuilt : Graph.build schema = .ok graph) {fixture : Json} {store : Store}
    (hload : Store.ofFixture fixture = .ok store) (calls : List StoreCall) {session : Session}
    (hstore : session.store = store.afterCalls calls) (name : String) :
    (∀ keys, (graph.collection name).TellsApart session.store keys →
      (((graph.collection name).hasAllKeys keys).answer session = .ok true ↔
        ∀ key ∈ keys, ((graph.collection name).hasKey key).answer session = .ok true)) ∧
    ∀ document,
      (∀ entry ∈ (graph.collection name).foreignKeys.entries, entry.2.onInsert = .verify →
        ((graph.collection name).target entry.2).TellsApart session.store
          (document.valuesAt entry.2.path)) →
      (((graph.collection name).verify document).answer session = .ok () ↔
        ∀ entry ∈ (graph.collection name).foreignKeys.entries, entry.2.onInsert = .verify →
          ∀ value ∈ document.valuesAt entry.2.path,
            (((graph.collection name).target entry.2).hasKey value).answer session = .ok true) := by
  have hmarked (other : String) : isMarked (graph.collection other).key = false :=
    Graph.isMarked_key hbuilt other
  have hkept : session.store.KeepsApart :=
    hstore ▸ (Store.keepsApart_ofFixture hload).afterCalls calls
  refine ⟨fun keys happart => happart.answer_hasAllKeys_eq_ok_iff (hmarked name) hkept,
    fun document happart => ?_⟩
  rw [verify, answer_verifyForeignKeys_eq_ok_iff]
  refine forall_congr' fun entry => forall_congr' fun hentry => forall_congr' fun hverify => ?_
  rw [hasAllKeys_distinct]
  exact (happart entry hentry hverify).answer_hasAllKeys_eq_ok_iff (hmarked _) hkept

end

/-- Orders for products, whose key is not their id. -/
def stockSchema : Schema where
  collections := .ofList [
    ("orders", { foreignKeys := .ofList [("items.$", { collection := some "products" })] }),
    ("products", { key := some "sku" })]

def product (id sku : String) : Json :=
  .object [("_id", .string id), ("sku", .string sku)]

def orderOf (skus : List String) : Json :=
  .object [("_id", .string "o"), ("items", .array (skus.map .string))]

/-- A product is loaded, and another one is inserted. -/
def stockSession : Session where
  store := Store.afterCalls { collections := .ofList [("products", [product "1" "p"])] }
    [⟨"products", .insertOne (product "2" "q")⟩]

/-- The two products are told apart by their keys, one of which is asked for twice. The order is not
verified, for one of its products is not there. -/
theorem hasAllKeys_stockSession :
    ((stockSchema.graph.collection "products").hasAllKeys
      [.string "p", .string "q", .string "p"]).result? stockSession = some true ∧
    ((stockSchema.graph.collection "orders").verify (orderOf ["q", "r"])).result? stockSession =
      none ∧
    (((stockSchema.graph.collection "products").hasAllKeys
        [.string "p", .string "q", .string "p"]).answer stockSession = .ok true ↔
      ∀ key ∈ [Json.string "p", .string "q", .string "p"],
        ((stockSchema.graph.collection "products").hasKey key).answer stockSession = .ok true) ∧
    (((stockSchema.graph.collection "orders").verify (orderOf ["q", "r"])).answer stockSession =
        .ok () ↔
      ∀ entry ∈ (stockSchema.graph.collection "orders").foreignKeys.entries,
        entry.2.onInsert = .verify →
          ∀ value ∈ (orderOf ["q", "r"]).valuesAt entry.2.path,
            (((stockSchema.graph.collection "orders").target entry.2).hasKey value).answer
              stockSession = .ok true) := by
  have hload : Store.ofFixture (.object [("products", .array [product "1" "p"])]) =
      .ok { collections := .ofList [("products", [product "1" "p"])] } := by rfl
  have happart (keys : List Json) (hobjects : ∀ key ∈ keys, key.isObject = false) :
      (stockSchema.graph.collection "products").TellsApart stockSession.store keys :=
    tellsApart_of_pairwise (stockSchema.build_graph rfl) hobjects (by decide) (by decide)
  have hboth (name : String) :=
    hasAllKeys_and_verify_iff_hasKey (stockSchema.build_graph rfl) hload _
      (rfl : stockSession.store = _) name
  have htargets : ∀ entry ∈ (stockSchema.graph.collection "orders").foreignKeys.entries,
      (stockSchema.graph.collection "orders").target entry.2 =
          stockSchema.graph.collection "products" ∧
        ∀ value ∈ (orderOf ["q", "r"]).valuesAt entry.2.path, value.isObject = false := by decide
  refine ⟨by decide, by decide, (hboth "products").1 _ (happart _ (by decide)),
    (hboth "orders").2 _ fun entry hentry _ => ?_⟩
  obtain ⟨htarget, hobjects⟩ := htargets entry hentry
  rw [htarget]
  exact happart _ hobjects

def twinProducts : List Json := [product "1" "p", product "2" "p"]

def twinSession : Session :=
  (((stockSchema.graph.collection "products").insertMany twinProducts).runIn {}).2

/-- Two products with one key are one too many for that key, and make up for a key without a product.
So an order of the one is not verified, and an order of both is. -/
theorem hasAllKeys_ne_twinProducts :
    (((stockSchema.graph.collection "products").insertMany twinProducts).result? {}).isSome ∧
    ((stockSchema.graph.collection "products").hasKey (.string "p")).result? twinSession =
      some true ∧
    ((stockSchema.graph.collection "products").hasAllKeys [.string "p"]).result? twinSession =
      some false ∧
    ((stockSchema.graph.collection "products").hasKey (.string "q")).result? twinSession =
      some false ∧
    ((stockSchema.graph.collection "products").hasAllKeys [.string "p", .string "q"]).result?
      twinSession = some true ∧
    ((stockSchema.graph.collection "orders").verify (orderOf ["p"])).result? twinSession = none ∧
    ((stockSchema.graph.collection "orders").verify (orderOf ["p", "q"])).result? twinSession =
      some () := by
  decide

end Collection

end LinkedDocs
