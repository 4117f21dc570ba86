import LinkedDocs.Platform.Native
import LinkedDocs.Proofs.Collection.Normalizing

/-!
Extending a set of documents. The query of a set holds for the documents for which all its queries
hold, each of them normalized on its own; so a further query picks out what it finds among the
documents of the set, in their order, and the order of two further queries does not matter.
-/

namespace LinkedDocs

open Access

namespace Filter

variable [Platform]
variable {filters : List Json} {document : Json}

theorem verdicts_eq_ok_iff {results : List Bool} :
    verdicts document filters = .ok results ↔
      (∀ filter ∈ filters, ∃ verdict, accepts document filter = .ok verdict) ∧
        results = filters.map fun filter => matched filter document := by
  induction filters generalizing results with
  | nil => simp [verdicts, eq_comm]
  | cons filter rest ih =>
    rw [verdicts, bind_eq_ok_iff, List.forall_mem_cons, List.map_cons]
    simp only [bind_eq_ok_iff, ih]
    constructor
    · rintro ⟨verdict, hverdict, others, ⟨hrest, rfl⟩, heq⟩
      cases heq
      exact ⟨⟨⟨verdict, hverdict⟩, hrest⟩, by rw [matched_of_accepts hverdict]⟩
    · rintro ⟨⟨⟨verdict, hverdict⟩, hrest⟩, rfl⟩
      exact ⟨verdict, hverdict, _, ⟨hrest, rfl⟩, by rw [matched_of_accepts hverdict]; rfl⟩

/-- A conjunction evaluates all its clauses, also behind one that does not hold. -/
theorem accepts_conjunction_eq_ok_iff {verdict : Bool} :
    accepts document (.single Connective.conjunction.name (.array filters)) = .ok verdict ↔
      (∀ filter ∈ filters, ∃ verdict, accepts document filter = .ok verdict) ∧
        verdict = filters.all fun filter => matched filter document := by
  have hname : Connective.ofName? Connective.conjunction.name = some .conjunction := rfl
  have hverdict : accepts document (.single Connective.conjunction.name (.array filters)) =
      (verdicts document filters).map fun results => results.all id := by
    rw [Json.single, accepts, acceptsFields, hname]
    dsimp only
    rw [clauseVerdicts]
    cases verdicts document filters with
    | error => rfl
    | ok results =>
      change (if results.all id then Except.ok true else Except.ok false) =
        Except.ok (results.all id)
      cases results.all id <;> rfl
  rw [hverdict, map_eq_ok_iff]
  simp only [verdicts_eq_ok_iff]
  constructor
  · rintro ⟨results, ⟨hevaluates, rfl⟩, rfl⟩
    exact ⟨hevaluates, List.all_map⟩
  · rintro ⟨hevaluates, rfl⟩
    exact ⟨_, ⟨hevaluates, rfl⟩, List.all_map⟩

end Filter

namespace Collection

variable [Platform]
variable {collection : Collection} {session : Session}

theorem normalize_eq_pure (hlinked : collection.foreignKeys.isEmpty) (filter : Json) :
    collection.normalize filter = pure filter :=
  if_pos hlinked

theorem normalize_eq_normalizeAt (hlinked : collection.foreignKeys.isEmpty = false)
    {stack : Stack} (hnames : stackNames stack = []) (filter : Json) :
    collection.normalize filter = normalizeAt collection stack filter := by
  have hroot : stackNames [] = stackNames stack := hnames.symm
  rw [normalize, hlinked, if_neg Bool.false_ne_true, normalizeAt_congr hroot]

/-- A conjunction of queries is normalized query by query, as if each of them stood alone. -/
theorem answer_normalize_conjunction_eq_ok_iff {queries : List Json} {normalized : Json} :
    (collection.normalize (.single Connective.conjunction.name (.array queries))).answer session =
        .ok normalized ↔
      ∃ filters, List.Forall₂ (fun query filter =>
          (collection.normalize query).answer session = .ok filter) queries filters ∧
        normalized = .single Connective.conjunction.name (.array filters) := by
  cases hlinked : collection.foreignKeys.isEmpty with
  | true =>
    simp only [normalize_eq_pure hlinked, answer_pure, Except.ok.injEq, List.forall₂_eq_eq_eq,
      exists_eq_left', eq_comm]
  | false =>
    have hclauses : stackNames [.key Connective.conjunction.name] = [] := rfl
    have hfields : collection.normalize (.single Connective.conjunction.name (.array queries)) =
        (do return .single Connective.conjunction.name (.array
          (← normalizeItems collection [.key Connective.conjunction.name] 0 queries))) := by
      have htakes : takesKeySet [(Connective.conjunction.name, .array queries)] = false := rfl
      rw [normalize, hlinked, if_neg Bool.false_ne_true, Json.single, normalizeAt, htakes]
      simp only [Bool.false_eq_true, if_false, normalizeFields, normalizeAt, bind_assoc, pure_bind,
        List.nil_append]
      rfl
    rw [hfields, (reads_normalizeItems _ _ _ _).answer_bind_eq_ok_iff fun _ => .pure _]
    simp only [answer_normalizeItems_eq_ok_iff, normalize_eq_normalizeAt hlinked hclauses,
      answer_pure, Except.ok.injEq]
    exact exists_congr fun filters => and_congr_right fun _ => eq_comm

end Collection

namespace LazyDocuments

variable {session : Session} {documents : LazyDocuments}

section

variable [Platform]

theorem accepts_query_eq_ok_iff {document : Json} {verdict : Bool} :
    Filter.accepts document documents.query = .ok verdict ↔
      (∀ query ∈ documents.queries, ∃ verdict, Filter.accepts document query = .ok verdict) ∧
        verdict = documents.queries.all fun query => Filter.matched query document := by
  obtain ⟨collection, queries, projection⟩ := documents
  match queries with
  | [] =>
    have hempty : Filter.accepts document (.object []) = .ok true := rfl
    simp [query, hempty, eq_comm]
  | [single] =>
    change Filter.accepts document single = .ok verdict ↔ _
    rw [List.forall_mem_singleton, List.all_cons, List.all_nil, Bool.and_true]
    constructor
    · intro h
      exact ⟨⟨verdict, h⟩, (Filter.matched_of_accepts h).symm⟩
    · rintro ⟨⟨other, h⟩, rfl⟩
      rw [Filter.matched_of_accepts h, h]
  | first :: second :: rest => exact Filter.accepts_conjunction_eq_ok_iff

theorem answer_normalize_query_eq_ok_iff {normalized : Json} :
    (documents.collection.normalize documents.query).answer session = .ok normalized ↔
      ∃ filters, List.Forall₂ (fun query filter =>
          (documents.collection.normalize query).answer session = .ok filter)
          documents.queries filters ∧
        normalized = { documents with queries := filters }.query := by
  obtain ⟨collection, queries, projection⟩ := documents
  match queries with
  | [] =>
    have hempty : collection.normalize (.object []) = pure (.object []) := by
      rw [Collection.normalize]
      split <;> rfl
    simp [query, hempty, eq_comm]
  | [single] =>
    change (collection.normalize single).answer session = .ok normalized ↔ _
    constructor
    · intro h
      exact ⟨[normalized], .cons h .nil, rfl⟩
    · rintro ⟨_, _ | ⟨h, _ | _⟩, rfl⟩
      exact h
  | first :: second :: rest =>
    refine Collection.answer_normalize_conjunction_eq_ok_iff.trans
      (exists_congr fun filters => and_congr_right fun hfilters => ?_)
    obtain _ | ⟨_, _ | ⟨_, _⟩⟩ := hfilters
    rfl

/-- A query of a set is evaluated on every document when all its queries are. -/
theorem evaluates_query_iff {stored : List Json} :
    Filter.Evaluates stored documents.query ↔
      ∀ query ∈ documents.queries, Filter.Evaluates stored query := by
  simp only [Filter.Evaluates, accepts_query_eq_ok_iff, exists_and_left, exists_eq, and_true]
  exact ⟨fun h query hquery document hdocument => h document hdocument query hquery,
    fun h document hdocument query hquery => h query hquery document hdocument⟩

theorem matching_query {stored : List Json} (h : Filter.Evaluates stored documents.query) :
    Filter.matching stored documents.query =
      stored.filter fun document =>
        documents.queries.all fun query => Filter.matched query document := by
  refine List.filter_congr fun document hdocument => ?_
  obtain ⟨verdict, hverdict⟩ := h document hdocument
  rw [Filter.matched_of_accepts hverdict, (accepts_query_eq_ok_iff.1 hverdict).2]

/-- A set is fetched when all its queries can be normalized and evaluated; then it has the documents
for which all of them hold. -/
theorem answer_fetch_eq_ok_iff {found : List Json} :
    documents.fetch.answer session = .ok found ↔
      session.refused.contains .find = false ∧ ∃ filters,
        List.Forall₂ (fun query filter =>
          (documents.collection.normalize query).answer session = .ok filter)
          documents.queries filters ∧
        (∀ filter ∈ filters,
          Filter.Evaluates (session.store.documents documents.collection.name) filter) ∧
        found = ((session.store.documents documents.collection.name).filter fun document =>
          filters.all fun filter => Filter.matched filter document).map
            (Store.view documents.projection) := by
  rw [fetch, Collection.answer_find_eq_ok_iff]
  refine and_congr_right fun _ => ?_
  simp only [answer_normalize_query_eq_ok_iff]
  constructor
  · rintro ⟨_, ⟨filters, hfilters, rfl⟩, hevaluates, rfl⟩
    exact ⟨filters, hfilters, evaluates_query_iff.1 hevaluates, by rw [matching_query hevaluates]⟩
  · rintro ⟨filters, hfilters, hevaluates, rfl⟩
    have hquery : Filter.Evaluates (session.store.documents documents.collection.name)
        { documents with queries := filters }.query := evaluates_query_iff.2 hevaluates
    exact ⟨_, ⟨filters, hfilters, rfl⟩, hquery, by rw [matching_query hquery]⟩

theorem answer_fetch_view {stored : List Json}
    (h : { documents with projection := none }.fetch.answer session = .ok stored) :
    documents.fetch.answer session = .ok (stored.map (Store.view documents.projection)) := by
  obtain ⟨hrefused, filters, hfilters, hevaluates, rfl⟩ := answer_fetch_eq_ok_iff.1 h
  refine answer_fetch_eq_ok_iff.2 ⟨hrefused, filters, hfilters, hevaluates, ?_⟩
  rw [show Store.view none = id from rfl, List.map_id]

/-- A further query picks out the documents of the set for which it holds. -/
theorem answer_fetch_extend_eq_ok_iff {query : Json} {found : List Json} :
    (documents.extend query).fetch.answer session = .ok found ↔
      ∃ stored filter, { documents with projection := none }.fetch.answer session = .ok stored ∧
        (documents.collection.normalize query).answer session = .ok filter ∧
        Filter.Evaluates (session.store.documents documents.collection.name) filter ∧
        found = (stored.filter (Filter.matched filter)).map (Store.view documents.projection) := by
  simp only [answer_fetch_eq_ok_iff, show Store.view none = id from rfl, List.map_id]
  constructor
  · rintro ⟨hrefused, _, hfilters, hevaluates, rfl⟩
    obtain ⟨filters, filter, hinit, hlast, rfl⟩ := forall₂_concat_left_iff.1 hfilters
    obtain ⟨hevaluatesInit, hevaluatesLast⟩ := List.forall_mem_append.1 hevaluates
    refine ⟨_, filter, ⟨hrefused, filters, hinit, hevaluatesInit, rfl⟩, hlast,
      List.forall_mem_singleton.1 hevaluatesLast, ?_⟩
    rw [List.filter_filter]
    simp [extend, Bool.and_comm]
  · rintro ⟨_, filter, ⟨hrefused, filters, hinit, hevaluates, rfl⟩, hlast, hevaluatesLast, rfl⟩
    refine ⟨hrefused, filters ++ [filter], forall₂_concat_left_iff.2
      ⟨filters, filter, hinit, hlast, rfl⟩, List.forall_mem_append.2
      ⟨hevaluates, List.forall_mem_singleton.2 hevaluatesLast⟩, ?_⟩
    rw [List.filter_filter]
    simp [extend, Bool.and_comm]

theorem answer_fetch_extend_extend_eq_ok_iff {query other : Json} {found : List Json} :
    ((documents.extend query).extend other).fetch.answer session = .ok found ↔
      ∃ stored filter next, { documents with projection := none }.fetch.answer session = .ok stored ∧
        (documents.collection.normalize query).answer session = .ok filter ∧
        Filter.Evaluates (session.store.documents documents.collection.name) filter ∧
        (documents.collection.normalize other).answer session = .ok next ∧
        Filter.Evaluates (session.store.documents documents.collection.name) next ∧
        found = ((stored.filter (Filter.matched filter)).filter (Filter.matched next)).map
          (Store.view documents.projection) := by
  rw [answer_fetch_extend_eq_ok_iff]
  change (∃ narrowed next, ({ documents with projection := none }.extend query).fetch.answer session =
    .ok narrowed ∧ _) ↔ _
  simp only [answer_fetch_extend_eq_ok_iff, show Store.view none = id from rfl, List.map_id]
  constructor
  · rintro ⟨_, next, ⟨stored, filter, hstored, hfilter, hevaluates, rfl⟩, hnext, hnextEvaluates, rfl⟩
    exact ⟨stored, filter, next, hstored, hfilter, hevaluates, hnext, hnextEvaluates, rfl⟩
  · rintro ⟨stored, filter, next, hstored, hfilter, hevaluates, hnext, hnextEvaluates, rfl⟩
    exact ⟨_, next, ⟨stored, filter, hstored, hfilter, hevaluates, rfl⟩, hnext, hnextEvaluates, rfl⟩

theorem answer_fetch_extend_comm {query other : Json} {found : List Json}
    (h : ((documents.extend query).extend other).fetch.answer session = .ok found) :
    ((documents.extend other).extend query).fetch.answer session = .ok found := by
  obtain ⟨stored, filter, next, hstored, hfilter, hfilterEvaluates, hnext, hnextEvaluates, rfl⟩ :=
    answer_fetch_extend_extend_eq_ok_iff.1 h
  refine answer_fetch_extend_extend_eq_ok_iff.2
    ⟨stored, next, filter, hstored, hnext, hnextEvaluates, hfilter, hfilterEvaluates, ?_⟩
  rw [List.filter_comm]

/-- Extending a set filters it. -/
theorem fetch_extend (documents : LazyDocuments) (session : Session) :
    (∀ query found, (documents.extend query).fetch.answer session = .ok found ↔
      ∃ stored filter, { documents with projection := none }.fetch.answer session = .ok stored ∧
        documents.fetch.answer session = .ok (stored.map (Store.view documents.projection)) ∧
        (documents.collection.normalize query).answer session = .ok filter ∧
        Filter.Evaluates (session.store.documents documents.collection.name) filter ∧
        found = (stored.filter (Filter.matched filter)).map (Store.view documents.projection)) ∧
    (∀ query other, ((documents.extend query).extend other).fetch.result? session =
      ((documents.extend other).extend query).fetch.result? session) ∧
    (∀ query, documents.fetch.answer ((documents.extend query).fetch.runIn session).2 =
      documents.fetch.answer session) ∧
    ∀ queries normalized,
      (documents.collection.normalize
          (.single Connective.conjunction.name (.array queries))).answer session = .ok normalized ↔
        ∃ filters, List.Forall₂ (fun query filter =>
            (documents.collection.normalize query).answer session = .ok filter) queries filters ∧
          normalized = .single Connective.conjunction.name (.array filters) := by
  refine ⟨fun query found => ?_, fun query other => ?_, fun query => ?_, fun queries normalized =>
    Collection.answer_normalize_conjunction_eq_ok_iff⟩
  · rw [answer_fetch_extend_eq_ok_iff]
    constructor
    · rintro ⟨stored, filter, hstored, h⟩
      exact ⟨stored, filter, hstored, answer_fetch_view hstored, h⟩
    · rintro ⟨stored, filter, hstored, -, h⟩
      exact ⟨stored, filter, hstored, h⟩
  · refine Option.ext fun found => ?_
    rw [result?_eq_some_iff, result?_eq_some_iff]
    exact ⟨answer_fetch_extend_comm, answer_fetch_extend_comm⟩
  · obtain ⟨_, hread⟩ := (documents.extend query).reads_fetch
    obtain ⟨calls, hcalls⟩ := hread session
    rw [hcalls]
    exact documents.reads_fetch.answer_congr rfl rfl

end

/-- All novels but the last one, of which only the authors are read. -/
def novels : LazyDocuments where
  collection := authorSchema.graph.collection "books"
  queries := [.single "genre" (.string "novel"), .single "_id" (.single "$ne" (.string "d"))]
  projection := some ["author"]

theorem fetch_extend_novels :
    novels.fetch.answer authorSession =
        .ok ([authoredBook "a" "novel" "u", authoredBook "b" "novel" "i"].map
          (Store.view (some ["author"]))) ∧
      (novels.extend (.single "author" (authorNamed "Italo"))).fetch.answer authorSession =
        .ok ([authoredBook "b" "novel" "i"].map (Store.view (some ["author"]))) := by
  have hnovels : { novels with projection := none }.fetch.answer authorSession =
      .ok [authoredBook "a" "novel" "u", authoredBook "b" "novel" "i"] := rfl
  have hfilter : (novels.collection.normalize (.single "author" (authorNamed "Italo"))).answer
      authorSession = .ok (.single "author" (.oneOf [.string "i"])) := rfl
  have hevaluates : Filter.Evaluates (authorSession.store.documents novels.collection.name)
      (.single "author" (.oneOf [.string "i"])) := Filter.evaluates_oneOf (by decide) _ _
  exact ⟨answer_fetch_view hnovels, ((fetch_extend novels authorSession).1 _ _).2
    ⟨_, _, hnovels, answer_fetch_view hnovels, hfilter, hevaluates, rfl⟩⟩

end LazyDocuments

end LinkedDocs
