import LinkedDocs.Platform.Native
import LinkedDocs.Proofs.Projection.Part
import LinkedDocs.Proofs.References.Scanning
import LinkedDocs.Proofs.Store.Finding

namespace LinkedDocs

namespace Json

mutual

/-- Whether a value is a scalar, or an array of such values at any depth. -/
def objectFree (value : Json) : Bool :=
  match value with
  | .object _ => false
  | .array items => objectFreeItems items
  | .null => true
  | .bool _ => true
  | .number _ => true
  | .string _ => true
termination_by structural value

def objectFreeItems (items : List Json) : Bool :=
  match items with
  | [] => true
  | item :: rest => objectFree item && objectFreeItems rest
termination_by structural items

end

end Json

namespace Filter

/-- Whether each element of an array to which an index on a path leads holds no object. -/
def indexesNoObject : List String → Json → Bool
  | [], _ => true
  | segment :: rest, value =>
    let below (fields : List (String × Json)) : Bool :=
      (lookupName segment fields).all (indexesNoObject rest)
    match value with
    | .object fields => below fields
    | .array items =>
      ((index? segment).bind fun position => items[position]?).all Json.objectFree &&
        items.all fun
          | .object fields => below fields
          | _ => true
    | _ => true

theorem indexesNoObject_object_iff {segment : String} {rest : List String}
    {fields : List (String × Json)} :
    indexesNoObject (segment :: rest) (.object fields) ↔
      ∀ child, lookupName segment fields = some child → indexesNoObject rest child :=
  Option.all_eq_true _ _

theorem indexesNoObject_array_iff {segment : String} {rest : List String} {items : List Json} :
    indexesNoObject (segment :: rest) (.array items) ↔
      (∀ item, ((index? segment).bind fun position => items[position]?) = some item →
        item.objectFree) ∧
      ∀ item ∈ items, item.isObject → indexesNoObject (segment :: rest) item := by
  simp only [indexesNoObject, Bool.and_eq_true, Option.all_eq_true, List.all_eq_true]
  refine and_congr_right fun _ => forall₂_congr fun item _ => ?_
  cases item <;> simp [Json.isObject]

/-- A path without indices leads to no element by its index. -/
theorem indexesNoObject_of_names {path : List String}
    (h : ∀ segment ∈ path, index? segment = none) (value : Json) : indexesNoObject path value := by
  induction path generalizing value with
  | nil => rfl
  | cons segment rest ih =>
    obtain ⟨hsegment, hrest⟩ := List.forall_mem_cons.1 h
    have hobject (fields : List (String × Json)) :
        indexesNoObject (segment :: rest) (.object fields) :=
      indexesNoObject_object_iff.2 fun child _ => ih hrest child
    cases value with
    | object fields => exact hobject fields
    | array items =>
      refine indexesNoObject_array_iff.2 ⟨fun item hitem => ?_, fun item _ hitem => ?_⟩
      · rw [hsegment] at hitem
        cases hitem
      · cases item with
        | object fields => exact hobject fields
        | _ => cases hitem
    | _ => rfl

/-- What holds on a path holds on the way to it. -/
theorem indexesNoObject_of_prefix {path kept : List String} (hbegins : kept <+: path) {value : Json}
    (h : indexesNoObject path value) : indexesNoObject kept value := by
  induction kept generalizing path value with
  | nil => rfl
  | cons segment before ih =>
    obtain ⟨after, rfl⟩ := hbegins
    have hobject {fields : List (String × Json)}
        (hfields : indexesNoObject (segment :: (before ++ after)) (.object fields)) :
        indexesNoObject (segment :: before) (.object fields) :=
      indexesNoObject_object_iff.2 fun child hchild =>
        ih (List.prefix_append before after) (indexesNoObject_object_iff.1 hfields child hchild)
    cases value with
    | object fields => exact hobject h
    | array items =>
      obtain ⟨hindexed, hitems⟩ := indexesNoObject_array_iff.1 h
      refine indexesNoObject_array_iff.2 ⟨hindexed, fun item hmem hitem => ?_⟩
      cases item with
      | object fields => exact hobject (hitems _ hmem rfl)
      | _ => cases hitem
    | _ => rfl

end Filter

namespace Projection

open LinkedDocs.Filter

section Parts

variable {segments : List (List String)}

mutual

theorem itemPart_of_objectFree (hnil : [] ∉ segments) (hne : segments ≠ []) {value : Json}
    (h : value.objectFree) : itemPart segments value = value := by
  cases value with
  | object fields => cases h
  | array items => rw [itemPart_array hnil hne, map_itemPart_of_objectFree hnil hne h]
  | _ => exact itemPart_of_scalar hne rfl rfl
termination_by structural value

theorem map_itemPart_of_objectFree (hnil : [] ∉ segments) (hne : segments ≠ []) {items : List Json}
    (h : Json.objectFreeItems items) : items.map (itemPart segments) = items := by
  cases items with
  | nil => rfl
  | cons item rest =>
    obtain ⟨hitem, hrest⟩ := Bool.and_eq_true_iff.1 h
    rw [List.map_cons, itemPart_of_objectFree hnil hne hitem,
      map_itemPart_of_objectFree hnil hne hrest]
termination_by structural items

end

theorem isObject_itemPart (hnil : [] ∉ segments) (hne : segments ≠ []) (value : Json) :
    (itemPart segments value).isObject = value.isObject := by
  cases value with
  | object fields =>
    obtain ⟨kept, hkept, -⟩ := itemPart_object hnil fields
    rw [hkept]
    rfl
  | array items =>
    rw [itemPart_array hnil hne]
    rfl
  | _ => rw [itemPart_of_scalar hne rfl rfl]

/-- The candidates of an object at a path, when its part keeps those of the field that is read. -/
theorem candidates_itemPart_object (hapart : segments.Pairwise Apart) (hnil : [] ∉ segments)
    {segment : String} {rest : List String}
    (hparts : ∃ kept ∈ below segment segments, kept <+: rest) {fields : List (String × Json)}
    (hchild : ∀ child, lookupName segment fields = some child →
      candidates rest (itemPart (below segment segments) child) = candidates rest child) :
    candidates (segment :: rest) (itemPart segments (.object fields)) =
      candidates (segment :: rest) (.object fields) := by
  obtain ⟨kept, hpart, -, hlookup⟩ := itemPart_object hnil fields
  rw [hpart, candidates_object, candidates_object, hlookup]
  cases hfield : lookupName segment fields with
  | none => rfl
  | some child =>
    have hsame := hchild child hfield
    rw [Option.bind_some]
    rw [itemPart] at hsame
    cases hkept : part? (below segment segments) child with
    | some part => rwa [hkept] at hsame
    | none =>
      -- the field is left out, so nothing is found below it
      rw [hkept, Option.getD_none] at hsame
      obtain ⟨inner, hinner, hbegins⟩ := hparts
      cases rest with
      | nil =>
        rw [part?_of_nil_mem (apart_below hapart segment)
          (List.prefix_nil.1 hbegins ▸ hinner)] at hkept
        cases hkept
      | cons second others => exact hsame

/-- The candidates of an array at a path, when its part keeps those of the objects in it. -/
theorem candidates_itemPart_array (hnil : [] ∉ segments) (hne : segments ≠ []) {segment : String}
    {rest : List String} {items : List Json}
    (hindexed : ∀ item, ((index? segment).bind fun position => items[position]?) = some item →
      item.objectFree)
    (hobjects : ∀ item ∈ items, item.isObject →
      candidates (segment :: rest) (itemPart segments item) = candidates (segment :: rest) item) :
    candidates (segment :: rest) (itemPart segments (.array items)) =
      candidates (segment :: rest) (.array items) := by
  have hindex : ((index? segment).bind fun position => (items.map (itemPart segments))[position]?) =
      (index? segment).bind fun position => items[position]? := by
    have hmap : ((index? segment).bind fun position =>
          (items.map (itemPart segments))[position]?) =
        ((index? segment).bind fun position => items[position]?).map (itemPart segments) := by
      cases index? segment <;> simp
    rw [hmap]
    cases hitem : (index? segment).bind fun position => items[position]? with
    | none => rfl
    | some item => rw [Option.map_some, itemPart_of_objectFree hnil hne (hindexed item hitem)]
  have hitems : ∀ item ∈ items,
      (if (itemPart segments item).isObject then
        candidates (segment :: rest) (itemPart segments item) else []) =
      if item.isObject then candidates (segment :: rest) item else [] := by
    intro item hitem
    rw [isObject_itemPart hnil hne]
    split
    case isTrue hobject => exact hobjects item hitem hobject
    case isFalse => rfl
  rw [itemPart_array hnil hne, candidates_array, candidates_array, hindex, List.flatMap_map,
    List.flatMap_congr hitems]

/-- A part at paths of which one leads to a path has the candidates of the path, when no index on
the way to that one leads to an object. -/
theorem candidates_itemPart (hapart : segments.Pairwise Apart) {kept path : List String}
    (hkept : kept ∈ segments) (hbegins : kept <+: path) {value : Json}
    (h : indexesNoObject kept value) :
    candidates path (itemPart segments value) = candidates path value := by
  induction kept generalizing path segments value with
  | nil => rw [itemPart_of_nil_mem hapart hkept]
  | cons segment before ih =>
    by_cases hnil : [] ∈ segments
    · rw [itemPart_of_nil_mem hapart hnil]
    obtain ⟨rest, rfl⟩ : ∃ rest, path = segment :: rest := by
      obtain ⟨after, rfl⟩ := hbegins
      exact ⟨before ++ after, rfl⟩
    have hne : segments ≠ [] := List.ne_nil_of_mem hkept
    have hbelow : before ∈ below segment segments := mem_below_iff.2 hkept
    have hrest : before <+: rest := (List.cons_prefix_cons.1 hbegins).2
    have hobject {fields : List (String × Json)}
        (hfields : indexesNoObject (segment :: before) (.object fields)) :
        candidates (segment :: rest) (itemPart segments (.object fields)) =
          candidates (segment :: rest) (.object fields) :=
      candidates_itemPart_object hapart hnil ⟨before, hbelow, hrest⟩ fun child hchild =>
        ih (apart_below hapart segment) hbelow hrest
          (indexesNoObject_object_iff.1 hfields child hchild)
    cases value with
    | object fields => exact hobject h
    | array items =>
      obtain ⟨hindexed, hobjects⟩ := indexesNoObject_array_iff.1 h
      refine candidates_itemPart_array hnil hne hindexed fun item hmem hitem => ?_
      cases item with
      | object fields => exact hobject (hobjects _ hmem rfl)
      | _ => cases hitem
    | _ => rw [itemPart_of_scalar hne rfl rfl]

theorem idField_mem_absorb (paths : List String) : idField ∈ absorb (idField :: paths) := by
  refine mem_absorb_iff.2 ⟨List.mem_cons_self, fun other _ => Bool.eq_false_iff.2 fun hbelow => ?_⟩
  obtain ⟨rest, hrest⟩ := isBelow_iff.1 hbelow
  have hdot : '.' ∈ idField.toList := by simp [hrest]
  exact absurd hdot (by decide)

/-- The values at a path are those of the projection to it. Below `_id` there is no condition, as
every projection keeps `_id` whole. -/
theorem fieldValues_project {path : String} {document : Json}
    (h : (splitPath path).head? = some idField ∨ indexesNoObject (splitPath path) document) :
    Collection.fieldValues path (project [path] document) = Collection.fieldValues path document := by
  obtain ⟨kept, hkept, hbegins, hindexes⟩ : ∃ kept ∈ absorb [idField, path],
      splitPath kept <+: splitPath path ∧ indexesNoObject (splitPath kept) document := by
    rcases h with hid | hindexes
    · obtain ⟨rest, hrest⟩ := List.head?_eq_some_iff.1 hid
      have hsplit : splitPath idField = [idField] := rfl
      refine ⟨idField, idField_mem_absorb _, ⟨rest, by rw [hrest, hsplit]; rfl⟩,
        indexesNoObject_of_names ?_ document⟩
      rw [hsplit]
      exact List.forall_mem_singleton.2 rfl
    · obtain ⟨kept, hkept, hbegins⟩ :=
        exists_mem_absorb (List.mem_cons_of_mem idField (List.mem_singleton_self path))
      exact ⟨kept, hkept, hbegins, indexesNoObject_of_prefix hbegins hindexes⟩
  have hsame := candidates_itemPart (apart_absorb _) (List.mem_map_of_mem hkept) hbegins hindexes
  rw [Collection.fieldValues, Collection.fieldValues, lookup, lookup, project_eq_itemPart]
  exact congrArg _ hsame

end Parts

end Projection

namespace Collection

variable {collection : Collection} {session : Session}

section

variable [Platform]

theorem distinct_eq_bind_find (collection : Collection) (path : String) (filter : Json) :
    collection.distinct path filter = (do
      let documents ← collection.find filter { projection := some [path] }
      return Json.distinct (documents.flatMap (fieldValues path))) :=
  (bind_assoc _ _ _).symm

theorem answer_distinct_eq {filter normalized : Json}
    (hrefused : session.refused.contains .find = false)
    (hnormalized : (collection.normalize filter).answer session = .ok normalized)
    (hevaluates : Filter.Evaluates (session.store.documents collection.name) normalized)
    (path : String) :
    (collection.distinct path filter).answer session = .ok (Json.firstOfEach
      ((Filter.matching (session.store.documents collection.name) normalized).flatMap
        fun document => fieldValues path (Projection.project [path] document))) := by
  have hfind : (collection.find filter { projection := some [path] }).answer session = _ :=
    answer_find_eq_ok_iff.2 ⟨hrefused, normalized, hnormalized, hevaluates, rfl⟩
  rw [distinct_eq_bind_find, (reads_find _ _ _).answer_bind fun _ => .pure _, hfind, ok_bind,
    Access.answer_pure, Json.distinct_eq_firstOfEach, List.flatMap_map]
  rfl

/-- The different values at a path are the values at the path of the matching documents, each of
them where it comes first. -/
theorem answer_distinct {filter normalized : Json}
    (hrefused : session.refused.contains .find = false)
    (hnormalized : (collection.normalize filter).answer session = .ok normalized)
    (hevaluates : Filter.Evaluates (session.store.documents collection.name) normalized)
    {path : String}
    (hindexes : ∀ document ∈ Filter.matching (session.store.documents collection.name) normalized,
      (splitPath path).head? = some idField ∨ Filter.indexesNoObject (splitPath path) document) :
    (collection.distinct path filter).answer session = .ok (Json.firstOfEach
      ((Filter.matching (session.store.documents collection.name) normalized).flatMap
        (fieldValues path))) := by
  have hvalues : ∀ document ∈
      Filter.matching (session.store.documents collection.name) normalized,
      fieldValues path (Projection.project [path] document) = fieldValues path document :=
    fun document hdocument => Projection.fieldValues_project (hindexes document hdocument)
  rw [answer_distinct_eq hrefused hnormalized hevaluates, List.flatMap_congr hvalues]

end

def shelf (id : String) (rows : List Json) : Json :=
  .object [("_id", .string id), ("rows", .array rows)]

def bookRow (books : List Json) : Json :=
  .single "books" (.array books)

/-- A shelf with a book and a set of books in its rows. -/
def plainShelf : Json :=
  shelf "a" [bookRow [.string "Emma", .string "Atlas"],
    bookRow [.array [.string "Ulysses", .string "Emma"]], .object []]

/-- A shelf with a book that is an object. -/
def titledShelf : Json :=
  shelf "b" [bookRow [.single "title" (.string "Persuasion")]]

def titledSession : Session where
  store := { collections := .ofList [("shelves", [plainShelf, titledShelf])] }

def shelves : Collection := ⟨⟨.empty⟩, "shelves"⟩

/-- The first books of all rows of a shelf, where a set of books counts book by book. -/
theorem answer_distinct_firstBooks :
    (shelves.distinct "rows.books.0" (.single "_id" (.oneOf [.string "a"]))).answer titledSession =
      .ok [.string "Emma", .string "Ulysses"] := by
  have hmatching : Filter.matching (titledSession.store.documents shelves.name)
      (.single "_id" (.oneOf [.string "a"])) = [plainShelf] := rfl
  have hevaluates : Filter.Evaluates (titledSession.store.documents shelves.name)
      (.single "_id" (.oneOf [.string "a"])) := Filter.evaluates_oneOf (by decide) _ _
  refine (answer_distinct rfl rfl hevaluates fun document hdocument => .inr ?_).trans ?_
  · rw [hmatching] at hdocument
    rw [List.mem_singleton.1 hdocument]
    decide
  · rw [hmatching]
    rfl

theorem project_firstRow :
    Projection.project ["rows.0"] titledShelf = shelf "b" [.object []] := by
  have hkept : Projection.kept ["rows.0"] = [["_id"], ["rows", "0"]] := by decide
  rw [Projection.project_eq_itemPart, hkept]
  rfl

/-- The first row of a shelf is an object, of which the projection to it leaves nothing. -/
theorem distinct_ne_firstRow :
    (shelves.distinct "rows.0" (.single "_id" (.string "b"))).answer titledSession =
      .ok [.object []] ∧
    fieldValues "rows.0" titledShelf = [bookRow [.single "title" (.string "Persuasion")]] ∧
    (shelves.distinct "rows.0.books.title" (.single "_id" (.string "b"))).answer titledSession =
      .ok [] ∧
    fieldValues "rows.0.books.title" titledShelf = [.string "Persuasion"] := by
  have hfilter : Filter.Evaluates (titledSession.store.documents shelves.name)
      (.single "_id" (.string "b")) :=
    fun document _ => ⟨_, Filter.accepts_value (by decide) document rfl⟩
  have hmatching : Filter.matching (titledSession.store.documents shelves.name)
      (.single "_id" (.string "b")) = [titledShelf] := rfl
  refine ⟨?_, rfl, ?_, rfl⟩
  · rw [answer_distinct_eq rfl rfl hfilter, hmatching, List.flatMap_singleton, project_firstRow]
    rfl
  · have hkept : Projection.kept ["rows.0.books.title"] =
        [["_id"], ["rows", "0", "books", "title"]] := by decide
    rw [answer_distinct_eq rfl rfl hfilter, hmatching, List.flatMap_singleton,
      Projection.project_eq_itemPart, hkept]
    rfl

end Collection

end LinkedDocs
