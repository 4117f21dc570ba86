import LinkedDocs.Platform.Native
import LinkedDocs.Proofs.Collection.Keys
import LinkedDocs.Proofs.Selection.Pushdown

/-!
Foreign keys as joins. Where a selector comes to a foreign key, it is resolved as against the whole
documents that the key refers to, from the top of their collection, although only what it reads of
them is read from the store.
-/

namespace LinkedDocs

open Projection

namespace Collection

variable {collection : Collection} {session : Session}

theorem keySetOperator?_eq_none {name : String} (hname : isMarked name = false) :
    keySetOperator? name = none := by
  rw [keySetOperator?, if_neg, if_neg] <;>
    · rintro rfl
      exact absurd hname (by decide)

theorem takesKeySet_single {name : String} (hname : isMarked name = false) (condition : Json) :
    takesKeySet [(name, condition)] = false := by
  rw [takesKeySet, List.any_cons, List.any_nil, keySetOperator?_eq_none hname]
  rfl

variable [Platform]

theorem normalizeAt_scalar {key : Json} (hkey : key.isScalar) (stack : Stack) :
    normalizeAt collection stack key = pure key := by
  cases key with
  | bool _ => rfl
  | number _ => rfl
  | string _ => rfl
  | _ => cases hkey

theorem normalizeItems_scalars {keys : List Json} (hkeys : ∀ key ∈ keys, key.isScalar)
    (stack : Stack) (position : Nat) :
    normalizeItems collection stack position keys = pure keys := by
  induction keys generalizing position with
  | nil => rfl
  | cons key rest ih =>
    obtain ⟨hkey, hrest⟩ := List.forall_mem_cons.1 hkeys
    rw [normalizeItems, normalizeAt_scalar hkey, pure_bind, ih hrest, pure_bind]

theorem keySetItems_scalars {target : Collection} {keys : List Json}
    (hkeys : ∀ key ∈ keys, key.isScalar) : keySetItems target keys = pure keys := by
  induction keys with
  | nil => rfl
  | cons key rest ih =>
    obtain ⟨hkey, hrest⟩ := List.forall_mem_cons.1 hkeys
    rw [keySetItems, ih hrest]
    simp only [Json.isObject_eq_false_of_isScalar hkey, Bool.false_eq_true, if_false, pure_bind]
    rfl

theorem normalizeAt_oneOf {keys : List Json} (hkeys : ∀ key ∈ keys, key.isScalar) (stack : Stack) :
    normalizeAt collection stack (.oneOf keys) = pure (.oneOf keys) := by
  have htakes : takesKeySet [("$in", .array keys)] = true := rfl
  rw [Json.oneOf, Json.single, normalizeAt, htakes, if_pos rfl]
  cases collection.foreignKeyAt? stack with
  | none =>
    dsimp only
    rw [normalizeFields, normalizeAt, normalizeItems_scalars hkeys]
    rfl
  | some foreignKey =>
    have hoperator : keySetOperator? "$in" = some .isIn := rfl
    dsimp only
    rw [keySetFields, hoperator]
    simp only [Json.isObject, Bool.false_eq_true, if_false, keySet, keySetItems_scalars hkeys,
      pure_bind]
    rfl

/-- A condition on a field that is left as it is leaves its query as it is. -/
theorem normalize_single {name : String} (hname : isMarked name = false) {condition : Json}
    (hcondition : ∀ stack, normalizeAt collection stack condition = pure condition) :
    collection.normalize (.single name condition) = pure (.single name condition) := by
  rw [normalize]
  split
  · rfl
  · rw [Json.single, normalizeAt, takesKeySet_single hname]
    simp only [Bool.false_eq_true, if_false, normalizeFields, hcondition, pure_bind]

theorem answer_find_of_normalize {filter : Json}
    (hnormalize : collection.normalize filter = pure filter)
    (hevaluates : Filter.Evaluates (session.store.documents collection.name) filter)
    (hrefused : session.refused.contains .find = false) :
    (collection.find filter).answer session =
      .ok (Filter.matching (session.store.documents collection.name) filter) := by
  have hnormalized : (collection.normalize filter).answer session = .ok filter := by
    rw [hnormalize, Access.answer_pure]
  exact answer_find_of_find hnormalized hrefused (Store.find_matching hevaluates)

/-- What the value of a foreign key stands for among the documents of the target: null for null, the
first document with a key, and for a list of keys the documents with one of them. -/
inductive Joins (target : Collection) (documents : List Json) : Json → Json → Prop
  | null : Joins target documents .null .null
  | one {key : Json} (hkey : key.isScalar) :
      Joins target documents key
        ((Filter.matching documents (target.keyQuery key)).head?.getD .null)
  | many {keys : List Json} (hkeys : ∀ key ∈ keys, key.isScalar) :
      Joins target documents (.array keys)
        (.array (Filter.matching documents (target.keysQuery keys)))

end Collection

namespace Selector

variable [Platform]
variable {options : SelectionOptions} {session : Session}

/-- From the top of a collection, a selector is resolved against the part of a value that it reads
as against the value. -/
theorem WellFormed.result?_resolve_part {selector : Selector} (h : selector.WellFormed)
    (collection : Collection) {paths : List String}
    (hreads : selector.reads (options.foreignKeys collection) = some paths) (value : Json) :
    (selector.resolve options (.value (itemPart (kept paths) value))
        ⟨collection, []⟩).result? session =
      (selector.resolve options (.value value) ⟨collection, []⟩).result? session := by
  have hcovers : Covers (kept paths) (selector.reads (options.foreignKeys collection)) :=
    hreads ▸ covers_kept paths
  exact (h.resolvesParts collection [] _ (apart_absorb _) hcovers _ ⟨rfl, rfl⟩ value).symm

theorem WellFormed.result?_resolve_view {selector : Selector} (h : selector.WellFormed)
    (collection : Collection) (document : Json) :
    (selector.resolve options
        (.value (Store.view (selector.reads (options.foreignKeys collection)) document))
        ⟨collection, []⟩).result? session =
      (selector.resolve options (.value document) ⟨collection, []⟩).result? session := by
  cases hreads : selector.reads (options.foreignKeys collection) with
  | none => rfl
  | some paths =>
    rw [show Store.view (some paths) document = itemPart (kept paths) document from
      project_eq_itemPart paths document]
    exact h.result?_resolve_part collection hreads document

theorem WellFormed.result?_resolve_views {selector : Selector} (h : selector.WellFormed)
    (collection : Collection) (documents : List Json) :
    (selector.resolve options
        (.value (.array (documents.map
          (Store.view (selector.reads (options.foreignKeys collection))))))
        ⟨collection, []⟩).result? session =
      (selector.resolve options (.value (.array documents)) ⟨collection, []⟩).result? session := by
  cases hreads : selector.reads (options.foreignKeys collection) with
  | none =>
    rw [show Store.view none = id from rfl, List.map_id]
  | some paths =>
    rw [show Store.view (some paths) = itemPart (kept paths) from
      funext (project_eq_itemPart paths),
      ← itemPart_array (nil_notMem_kept paths) (kept_ne_nil paths)]
    exact h.result?_resolve_part collection hreads (.array documents)

end Selector

namespace Resolution

open Selector

variable {options : SelectionOptions} {session : Session} {place : Place} {foreignKey : ForeignKey}
  {target : Collection} {next : Selector}

section Follow

variable (hfollow : options.followForeignKeys)
  (hforeignKey : place.collection.foreignKeyAt? place.stack = some foreignKey)
  (htarget : place.collection.target foreignKey = target)

include hfollow hforeignKey htarget

variable [Platform]

theorem follow_null (resolution : Resolution) :
    follow options next resolution place .null = resolution (.value .null) ⟨target, []⟩ := by
  rw [follow, hfollow, if_pos rfl, hforeignKey, ← htarget]
  rfl

theorem follow_key {key : Json} (hkey : key.isScalar) (resolution : Resolution) :
    follow options next resolution place key = (do
      let found ← target.find (target.keyQuery key)
        { limit := some 1, projection := next.reads target.foreignKeys }
      resolution (.value (found.head?.getD .null)) ⟨target, []⟩) := by
  rw [follow, hfollow, if_pos rfl, hforeignKey, ← htarget]
  cases key with
  | bool _ => rfl
  | number _ => rfl
  | string _ => rfl
  | _ => cases hkey

theorem follow_keys (keys : List Json) (resolution : Resolution) :
    follow options next resolution place (.array keys) =
      resolution (.documents { target.lazy (target.keysQuery keys) with
        projection := next.reads target.foreignKeys }) ⟨target, []⟩ := by
  rw [follow, hfollow, if_pos rfl, hforeignKey, ← htarget]
  rfl

theorem result?_follow_key (hnext : next.WellFormed) {key : Json} (hkey : key.isScalar)
    {documents : List Json}
    (hfind : (target.find (target.keyQuery key)).answer session = .ok documents) :
    (follow options next (next.resolve options) place key).result? session =
      (next.resolve options (.value (documents.head?.getD .null)) ⟨target, []⟩).result? session := by
  have hreads := target.reads_find (target.keyQuery key)
    { limit := some 1, projection := next.reads target.foreignKeys }
  rw [follow_key hfollow hforeignKey htarget hkey,
    hreads.result?_bind fun _ => reads_resolve options next _ _, Access.result?,
    Collection.answer_find_eq_ok hfind]
  change (next.resolve options _ _).result? session = _
  cases documents with
  | nil => rfl
  | cons document rest =>
    rw [show target.foreignKeys = options.foreignKeys target from (if_pos hfollow).symm]
    exact hnext.result?_resolve_view target document

theorem result?_follow_keys (hnext : next.WellFormed) (hroot : next.queriesRoot = false)
    {keys documents : List Json}
    (hfind : (target.find (target.keysQuery keys)).answer session = .ok documents) :
    (follow options next (next.resolve options) place (.array keys)).result? session =
      (next.resolve options (.value (.array documents)) ⟨target, []⟩).result? session := by
  have hholds : ({ target.lazy (target.keysQuery keys) with
      projection := next.reads target.foreignKeys } : LazyDocuments).Holds session
        (documents.map (Store.view (next.reads target.foreignKeys))) :=
    ⟨LazyDocuments.answer_fetch hfind _, LazyDocuments.answer_fetchOne hfind _⟩
  rw [follow_keys hfollow hforeignKey htarget, result?_resolve_documents hholds next hroot,
    show target.foreignKeys = options.foreignKeys target from (if_pos hfollow).symm]
  exact hnext.result?_resolve_views target documents

end Follow

end Resolution

namespace Graph

open Selector Access Resolution

variable {schema : Schema} {graph : Graph} {options : SelectionOptions} {session : Session}

section

variable [Platform]

/-- A query for a key finds the whole documents that match it. -/
theorem answer_find_keyQuery (hbuilt : Graph.build schema = .ok graph)
    (hrefused : session.refused.contains .find = false) (name : String) {key : Json}
    (hkey : key.isScalar) :
    ((graph.collection name).find ((graph.collection name).keyQuery key)).answer session =
      .ok (Filter.matching (session.store.documents name)
        ((graph.collection name).keyQuery key)) := by
  have hmarked : isMarked (graph.collection name).key = false := isMarked_key hbuilt name
  exact Collection.answer_find_of_normalize
    (Collection.normalize_single hmarked (Collection.normalizeAt_scalar hkey))
    (fun document _ => ⟨_, Filter.accepts_value hmarked document
      (Json.isObject_eq_false_of_isScalar hkey)⟩) hrefused

theorem answer_find_keysQuery (hbuilt : Graph.build schema = .ok graph)
    (hrefused : session.refused.contains .find = false) (name : String) {keys : List Json}
    (hkeys : ∀ key ∈ keys, key.isScalar) :
    ((graph.collection name).find ((graph.collection name).keysQuery keys)).answer session =
      .ok (Filter.matching (session.store.documents name)
        ((graph.collection name).keysQuery keys)) := by
  have hmarked : isMarked (graph.collection name).key = false := isMarked_key hbuilt name
  exact Collection.answer_find_of_normalize
    (Collection.normalize_single hmarked (Collection.normalizeAt_oneOf hkeys))
    (Filter.evaluates_oneOf hmarked _ _) hrefused

/-- Resolving a selector through a foreign key is resolving what comes after the field against the
whole documents that the value of the field stands for. -/
theorem result?_resolve_join (hbuilt : Graph.build schema = .ok graph)
    (hrefused : session.refused.contains .find = false) (hfollow : options.followForeignKeys)
    {name : String} {next : Selector} (hproducible : (Selector.field name next).Producible)
    {source : String} {stack : Stack} {foreignKey : ForeignKey}
    (hforeignKey :
      (graph.collection source).foreignKeyAt? (stack ++ [.key name]) = some foreignKey)
    {fields : List (String × Json)} {value joined : Json}
    (hvalue : lookupName name fields = some value)
    (hjoins : (graph.collection foreignKey.collection).Joins
      (session.store.documents foreignKey.collection) value joined)
    (hroot : value.isArray → next.queriesRoot = false) :
    ((Selector.field name next).resolve options (.value (.object fields))
        ⟨graph.collection source, stack⟩).result? session =
      (next.resolve options (.value joined)
        ⟨graph.collection foreignKey.collection, []⟩).result? session := by
  have hnext : next.WellFormed := by
    cases hproducible.wellFormed with
    | field _ hnext => exact hnext
  have hfield : (Selector.field name next).resolve options (.value (.object fields))
      ⟨graph.collection source, stack⟩ =
        follow options next (next.resolve options)
          ⟨graph.collection source, stack ++ [.key name]⟩ value := by
    change Resolution.field options name next _ _ fields = _
    rw [Resolution.field, hvalue]
    rfl
  rw [hfield]
  cases hjoins with
  | null => rw [follow_null hfollow hforeignKey rfl]; rfl
  | one hkey =>
    exact result?_follow_key hfollow hforeignKey rfl hnext hkey
      (answer_find_keyQuery hbuilt hrefused foreignKey.collection hkey)
  | many hkeys =>
    exact result?_follow_keys hfollow hforeignKey rfl hnext (hroot rfl)
      (answer_find_keysQuery hbuilt hrefused foreignKey.collection hkeys)

end

/-- Loans of books, whose authors are people. -/
def loanSchema : Schema where
  collections := .ofList [
    ("loans", { foreignKeys := .ofList [("books.$", { collection := some "books" })] }),
    ("books", { foreignKeys := .ofList [("author", { collection := some "people" })] })]

/-- A book of the store, with more fields than its author. -/
def loanedBook (id author : String) : Json :=
  .object [("_id", .string id), ("title", .string "t"), ("author", .string author)]

def loanSession : Session where
  store := { collections := .ofList [
    ("people", [.object [("_id", .string "bob"), ("name", .string "Bob")],
      .object [("_id", .string "ann"), ("name", .string "Ann")]]),
    ("books", [loanedBook "c" "ann", loanedBook "a" "bob", loanedBook "b" "bob"])] }

def authorNames : Selector := .field "author" (.field "name" .identity)

theorem parse_bookAuthorNames : parse "books.author.name" = .ok (.field "books" authorNames) := by
  have hlex : lex "books.author.name" =
      [⟨.field "books", 0⟩, ⟨.field "author", 6⟩, ⟨.field "name", 13⟩] := by
    decide +kernel
  refine parseWith_of_readSelector hlex ?_
  simp only [readSelector]
  rfl

/-- The names of the authors of two borrowed books are read from the books as the store lists them. -/
theorem result?_resolve_loan :
    ((Selector.field "books" authorNames).resolve {}
        (.value (.object [("books", .array [.string "b", .string "c"])]))
        ⟨loanSchema.graph.collection "loans", []⟩).result? loanSession =
      some (.array [.string "Ann", .string "Bob"]) ∧
    (authorNames.resolve {}
        (.value (.array [loanedBook "c" "ann", loanedBook "b" "bob"]))
        ⟨loanSchema.graph.collection "books", []⟩).result? loanSession =
      some (.array [.string "Ann", .string "Bob"]) := by
  have hmatching : Filter.matching (loanSession.store.documents "books")
      ((loanSchema.graph.collection "books").keysQuery [.string "b", .string "c"]) =
        [loanedBook "c" "ann", loanedBook "b" "bob"] := rfl
  have hforeign : (loanSchema.graph.collection "loans").foreignKeyAt? ([] ++ [.key "books"]) =
      some ⟨["books", "$"], "books", .verify, .bypass, none⟩ := rfl
  have hjoins : (loanSchema.graph.collection "books").Joins (loanSession.store.documents "books")
      (.array [.string "b", .string "c"])
      (.array [loanedBook "c" "ann", loanedBook "b" "bob"]) := hmatching ▸ .many (by decide)
  have hproducible : (Selector.field "books" authorNames).Producible :=
    .parsed (fun token nested hnested => by cases hnested) parse_bookAuthorNames
  have hrefused : loanSession.refused.contains .find = false := rfl
  have hbooks : (authorNames.resolve {}
      (.value (.array [loanedBook "c" "ann", loanedBook "b" "bob"]))
      ⟨loanSchema.graph.collection "books", []⟩).result? loanSession =
        some (.array [.string "Ann", .string "Bob"]) := rfl
  refine ⟨Eq.trans ?_ hbooks, hbooks⟩
  exact result?_resolve_join (loanSchema.build_graph rfl) hrefused rfl hproducible hforeign rfl
    hjoins fun _ => rfl

end Graph

end LinkedDocs
