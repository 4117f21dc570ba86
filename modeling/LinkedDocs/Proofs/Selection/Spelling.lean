import LinkedDocs.Platform.Native
import LinkedDocs.Proofs.Collection.Reading
import LinkedDocs.Proofs.Graph.Acceptance
import LinkedDocs.Proofs.Json.Ends
import LinkedDocs.Proofs.Selector.Rendering

namespace LinkedDocs

namespace Selector

/-- Selects along a foreign key path: a name is a field, and a wildcard maps over an array. -/
def ofSegments (segments : List String) : Selector :=
  segments.foldr (fun segment next => if segment = wildcard then .map next else .field segment next)
    .identity

theorem ofSegments_wildcard (rest : List String) :
    ofSegments (wildcard :: rest) = .map (ofSegments rest) := by
  rw [ofSegments, List.foldr_cons, if_pos rfl]
  rfl

theorem ofSegments_name {segment : String} (hsegment : segment ≠ wildcard) (rest : List String) :
    ofSegments (segment :: rest) = .field segment (ofSegments rest) := by
  rw [ofSegments, List.foldr_cons, if_neg hsegment]
  rfl

/-- What the schema accepts as an identifier is read as the field of this name, and no other text is
read as the field that it spells. -/
theorem check_eq_ok_iff_parse {text : String} :
    Identifier.check text = .ok () ↔ parse text = .ok (.field text .identity) := by
  rw [Identifier.check_eq_ok_iff, ← Identifier.isValid_iff_wellSpelled]
  constructor
  · intro hvalid
    exact (derives_field _ text).parseWith (cut_of_isLexical (isLexical_field_iff.2 hvalid))
  · intro hparse
    have hsymbols : SymbolTable.WellFormed .empty := fun _ _ hsymbol => by cases hsymbol
    cases wellFormed_of_parseWith hsymbols hparse with
    | field hname _ => exact hname

/-- The segments of a foreign key path are names and wildcards. -/
def IsSegment (segment : String) : Prop :=
  segment = wildcard ∨ Identifier.isValid segment

def segmentToken (segment : String) : Token :=
  if segment = wildcard then .map else .field segment

/-- A segment is cut as one token, by longest match too. -/
theorem cut_segment {segment : String} (h : IsSegment segment) :
    Cut segment.toList [segmentToken segment] := by
  rw [segmentToken]
  split
  case isTrue hsegment =>
    have hmap : Cut Token.map.toChars [.map] := cut_of_isLexical trivial
    rw [hsegment]
    exact hmap
  case isFalse hsegment =>
    exact cut_of_isLexical (isLexical_field_iff.2 (h.resolve_left hsegment))

theorem toList_joinPath_cons (first second : String) (rest : List String) :
    (joinPath (first :: second :: rest)).toList =
      first.toList ++ '.' :: (joinPath (second :: rest)).toList := by
  simp [joinPath, String.toList_intercalate, List.intercalate]

/-- A path is cut at its dots. Wildcards that follow each other stay apart. -/
theorem cut_joinPath {segments : List String} (hne : segments ≠ [])
    (hsegments : ∀ segment ∈ segments, IsSegment segment) :
    Cut (joinPath segments).toList (segments.map segmentToken) := by
  induction segments with
  | nil => exact absurd rfl hne
  | cons first rest ih =>
    obtain ⟨hfirst, hrest⟩ := List.forall_mem_cons.1 hsegments
    cases rest with
    | nil => simpa [joinPath] using cut_segment hfirst
    | cons second rest =>
      rw [toList_joinPath_cons]
      exact (cut_segment hfirst).append (by decide) (ih (List.cons_ne_nil _ _) hrest)

theorem derives_ofSegments (symbols : SymbolTable) (segments : List String) :
    Derives symbols false (segments.map segmentToken) (ofSegments segments) := by
  induction segments with
  | nil => exact .identity
  | cons first rest ih =>
    rw [List.map_cons, segmentToken]
    split
    case isTrue hfirst =>
      rw [hfirst, ofSegments_wildcard]
      exact .prefixed .map ih
    case isFalse hfirst =>
      rw [ofSegments_name hfirst]
      exact .prefixed .field ih

theorem parse_of_isForeignKeyPath {path : String} (h : Identifier.IsForeignKeyPath path) :
    parse path = .ok (ofSegments (splitPath path)) := by
  obtain ⟨first, rest, hsplit, hfirst, hrest⟩ := Identifier.isForeignKeyPath_iff.1 h
  simp only [← Identifier.isValid_iff_wellSpelled] at hfirst hrest
  have hsegments : ∀ segment ∈ splitPath path, IsSegment segment := by
    rw [hsplit]
    exact List.forall_mem_cons.2 ⟨.inr hfirst, hrest⟩
  have hcut := cut_joinPath (splitPath_ne_nil path) hsegments
  rw [joinPath_splitPath] at hcut
  exact (derives_ofSegments .empty _).parseWith hcut

end Selector

/-- Whether each name on a path is read from an object that has such a field, and each wildcard from
an array. -/
inductive Json.HasFieldsAt : Json → List String → Prop
  | here (value : Json) : HasFieldsAt value []
  | field {fields : List (String × Json)} {segment : String} {rest : List String} {child : Json}
      (hsegment : segment ≠ wildcard) (hlookup : lookupName segment fields = some child)
      (h : HasFieldsAt child rest) : HasFieldsAt (.object fields) (segment :: rest)
  | elements {items : List Json} {rest : List String} (h : ∀ item ∈ items, HasFieldsAt item rest) :
      HasFieldsAt (.array items) (wildcard :: rest)

namespace Resolution

variable {session : Session}

/-- The values of an array of results, flattened by one level, are those of the results. -/
theorem valuesAt_flatten (results : List Json) :
    (Json.array (flatten results)).valuesAt [] =
      results.flatMap fun result => result.valuesAt [] := by
  change (flatten results).filter (fun value => !value.isNull) = _
  rw [flatten, List.filter_flatMap]
  refine List.flatMap_congr fun result _ => ?_
  cases result <;> rfl

theorem result?_eachFrom {resolution : Resolution} (hreads : resolution.Reads)
    {values : Json → List Json} {items : List Json}
    (h : ∀ item ∈ items, ∀ place, ∃ result,
      (resolution (.value item) place).result? session = some result ∧
        result.valuesAt [] = values item) (place : Place) (position : Nat) :
    ∃ results, (resolution.eachFrom place position items).result? session = some results ∧
      (results.flatMap fun result => result.valuesAt []) = items.flatMap values := by
  induction items generalizing position with
  | nil => exact ⟨[], rfl, rfl⟩
  | cons item rest ih =>
    obtain ⟨hitem, hrest⟩ := List.forall_mem_cons.1 h
    obtain ⟨result, hresult, hvalues⟩ := hitem (place.below (.index position))
    obtain ⟨others, hothers, hothersValues⟩ := ih hrest (position + 1)
    have hfollowing := reads_eachFrom hreads place (position + 1) rest
    refine ⟨result :: others, ?_, ?_⟩
    · rw [eachFrom, (hreads _ _).result?_bind fun _ => .bind hfollowing fun _ => .pure _, hresult,
        Option.bind_some, hfollowing.result?_bind fun _ => .pure _, hothers]
      rfl
    · rw [List.flatMap_cons, List.flatMap_cons, hvalues, hothersValues]

end Resolution

namespace Selector

section

variable [Platform]

/-- From a document with every field on a path, selecting along the path gives the values at the
path. Foreign keys on the way are values like any others. -/
theorem result?_resolve_ofSegments {options : SelectionOptions}
    (hplain : options.followForeignKeys = false) {session : Session} {document : Json}
    {path : List String} (h : document.HasFieldsAt path) (place : Place) :
    ∃ result, ((ofSegments path).resolve options (.value document) place).result? session =
        some result ∧ result.valuesAt [] = document.valuesAt path := by
  induction h generalizing place with
  | here value => exact ⟨value, rfl, rfl⟩
  | @field fields segment rest child hsegment hlookup _ ih =>
    have hresolve : (ofSegments (segment :: rest)).resolve options (.value (.object fields)) place =
        (ofSegments rest).resolve options (.value child) (place.below (.key segment)) := by
      rw [ofSegments_name hsegment, resolve]
      change Resolution.field options segment _ _ place fields = _
      rw [Resolution.field, hlookup]
      simp [Resolution.follow, hplain]
    rw [hresolve, Json.valuesAt_name_object hsegment, hlookup]
    exact ih _
  | @elements items rest _ ih =>
    have hreads := reads_resolve options (ofSegments rest)
    obtain ⟨results, hresults, hvalues⟩ := Resolution.result?_eachFrom hreads ih place 0
    refine ⟨.array (Resolution.flatten results), ?_, ?_⟩
    · rw [ofSegments_wildcard, resolve]
      change Access.result? (do
        let results ← Resolution.eachFrom ((ofSegments rest).resolve options) place 0 items
        return Json.array (Resolution.flatten results)) session = _
      rw [(Resolution.reads_eachFrom hreads place 0 items).result?_bind fun _ => .pure _, hresults]
      rfl
    · rw [Resolution.valuesAt_flatten, hvalues, Json.valuesAt.eq_def]
      exact (if_pos rfl).symm

/-- The schema and the parser agree on identifiers, and the parser reads each foreign key path with
a field for a name and a map for a wildcard. So a foreign key that is declared can be selected as it
is spelled. -/
theorem parse_identifier_and_path :
    (∀ text : String,
      Identifier.check text = .ok () ↔ parse text = .ok (.field text .identity)) ∧
      (∀ path : String, Identifier.checkForeignKeyPath path = .ok () →
        parse path = .ok (ofSegments (splitPath path))) ∧
      ∀ (schema : Schema) (graph : Graph), Graph.build schema = .ok graph →
        ∀ (name : String) (declaration : CollectionDeclaration),
          schema.get? name = some declaration →
          ∀ (path : String) (declared : ForeignKeyDeclaration),
            declaration.foreignKeys.get? path = some declared →
            parse path = .ok (ofSegments (splitPath path)) ∧
              ∀ options : SelectionOptions, options.followForeignKeys = false →
                ∀ (session : Session) (document : Json), document.HasFieldsAt (splitPath path) →
                  ∃ result, ((graph.collection name).resolve options (ofSegments (splitPath path))
                      document).result? session = some result ∧
                    result.valuesAt [] = document.valuesAt (splitPath path) := by
  refine ⟨fun _ => check_eq_ok_iff_parse, fun path hpath => ?_, ?_⟩
  · exact parse_of_isForeignKeyPath (Identifier.checkForeignKeyPath_eq_ok_iff.1 hpath)
  · intro schema graph hbuilt name declaration hdeclaration path declared hdeclared
    have hacceptable := Graph.exists_build_iff.1 ⟨graph, hbuilt⟩
    have hpath := ((hacceptable name declaration hdeclaration).foreignKeys path declared
      hdeclared).isForeignKeyPath
    exact ⟨parse_of_isForeignKeyPath hpath, fun options hplain session document hfields =>
      result?_resolve_ofSegments hplain hfields _⟩

end

/-- Grids, whose rows hold the keys of their cells. -/
def gridDeclaration : CollectionDeclaration where
  foreignKeys := .ofList [("rows.$.$", { collection := some "cells" })]

def gridSchema : Schema where
  collections := .ofList [("grids", gridDeclaration)]

def smallGrid : Json :=
  .object [("rows", .array [.array [.string "a", .null], .array [], .array [.string "b"]])]

theorem valuesAt_smallGrid :
    parse "cell-1" = .ok (.field "cell-1" .identity) ∧
      parse "rows.$.$" = .ok (.field "rows" (.map (.map .identity))) ∧
      ∃ result, ((gridSchema.graph.collection "grids").resolve { followForeignKeys := false }
          (.field "rows" (.map (.map .identity))) smallGrid).result? {} = some result ∧
        result.valuesAt [] = [.string "a", .string "b"] := by
  obtain ⟨hidentifiers, hpaths, hdeclared⟩ := parse_identifier_and_path
  have hbuilt : Graph.build gridSchema = .ok gridSchema.graph := rfl
  have hfields : smallGrid.HasFieldsAt ["rows", wildcard, wildcard] :=
    .field (by decide) rfl (.elements fun row hrow => by
      simp only [List.mem_cons, List.not_mem_nil, or_false] at hrow
      rcases hrow with rfl | rfl | rfl <;> exact .elements fun _ _ => .here _)
  exact ⟨(hidentifiers "cell-1").1 (by decide), hpaths "rows.$.$" (by decide),
    (hdeclared gridSchema gridSchema.graph hbuilt "grids" gridDeclaration rfl "rows.$.$" _ rfl).2
      { followForeignKeys := false } rfl {} smallGrid hfields⟩

end Selector

end LinkedDocs
