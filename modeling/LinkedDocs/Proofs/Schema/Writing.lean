import LinkedDocs.Graph
import LinkedDocs.Schema.Reader
import LinkedDocs.Proofs.Json.Text
import LinkedDocs.Proofs.NameMap

namespace LinkedDocs

namespace NameMap

variable {α : Type}

/-- A map is made from its own entries. -/
theorem ofList_entries (map : NameMap α) : ofList map.entries = map := by
  refine ext_get? fun name => Option.ext fun value => ?_
  rw [get?_ofList_eq_some_iff map.nodup_keys, mem_entries_iff]

end NameMap

theorem InsertPolicy.ofName?_name (policy : InsertPolicy) : ofName? policy.name = some policy := by
  cases policy <;> decide

theorem DeletePolicy.ofName?_name (policy : DeletePolicy) : ofName? policy.name = some policy := by
  cases policy <;> decide

namespace SchemaFormat

theorem readEntries?_map {α : Type} {encode : α → Json} {read? : Json → Option α}
    (h : ∀ value, read? (encode value) = some value) (entries : List (String × α)) :
    readEntries? read? (entries.map fun (name, value) => (name, encode value)) = some entries := by
  induction entries with
  | nil => rfl
  | cons entry rest ih =>
    rw [List.map_cons, readEntries?, h, ih]
    rfl

/-- A map is read back if each of its values is. -/
theorem readMap?_toJson {α : Type} {encode : α → Json} {read? : Json → Option α}
    (h : ∀ value, read? (encode value) = some value) (map : NameMap α) :
    json.readMap? read? (map.toJson encode) = some map := by
  have hentries : json.entries? (map.toJson encode) =
      some (map.entries.map fun (name, value) => (name, encode value)) := rfl
  rw [readMap?, hentries]
  simp only [Option.bind_eq_bind, Option.bind_some, readEntries?_map h, NameMap.ofList_entries,
    Option.pure_def]

theorem distinctNames_iff {names : List String} : distinctNames names ↔ names.Nodup := by
  induction names with
  | nil => simp [distinctNames]
  | cons name rest ih => simp [distinctNames, ih]

/-- A record is read with all its fields if these are some of the known ones in order. -/
theorem record?_of_sublist {names : List String} (hnames : names.Nodup)
    {fields : List (String × Json)} (hfields : (fields.map Prod.fst).Sublist names) :
    json.record? names (.object fields) = some fields := by
  have hknown : (fields.map Prod.fst).all names.contains := by
    simpa using fun name value hfield => hfields.subset (List.mem_map_of_mem hfield)
  have hdistinct : distinctNames (fields.map Prod.fst) := distinctNames_iff.2 (hnames.sublist hfields)
  simp only [record?, json, Option.bind_eq_bind, Option.bind_some]
  rw [if_pos (by rw [hknown, hdistinct]; rfl)]

theorem sublist_optionalField (name : String) (value : Option String) :
    ((optionalField name value).map Prod.fst).Sublist [name] := by
  cases value with
  | none => exact List.nil_sublist _
  | some text => exact List.Sublist.refl _

theorem sublist_foreignKeyFields (collection onInsert onDelete : Option String) :
    ((optionalField "collection" collection ++ optionalField "onInsert" onInsert ++
      optionalField "onDelete" onDelete).map Prod.fst).Sublist
        ["collection", "onInsert", "onDelete"] := by
  simp only [List.map_append]
  exact ((sublist_optionalField _ _).append (sublist_optionalField _ _)).append
    (sublist_optionalField _ _)

theorem sublist_collectionFields (key : Option String) (absent : Bool) (foreignKeys : Json) :
    ((optionalField "key" key ++ if absent then [] else [("foreignKeys", foreignKeys)]).map
      Prod.fst).Sublist ["key", "foreignKeys"] := by
  have hdeclared : ((if absent then [] else [("foreignKeys", foreignKeys)]).map Prod.fst).Sublist
      ["foreignKeys"] := by
    cases absent <;> simp
  rw [List.map_append]
  exact (sublist_optionalField _ _).append hdeclared

theorem lookupName_append {α : Type} (name : String) (fields others : List (String × α)) :
    lookupName name (fields ++ others) = (lookupName name fields).or (lookupName name others) := by
  induction fields with
  | nil => rfl
  | cons field rest ih =>
    obtain ⟨first, value⟩ := field
    by_cases hname : first = name <;> simp [lookupName, hname, ih]

theorem lookupName_optionalField (name other : String) (value : Option String) :
    lookupName other (optionalField name value) =
      if name = other then value.map Json.string else none := by
  cases value <;> simp [optionalField, lookupName]

/-- A field that may be left out is read back. -/
theorem optional?_of_lookupName {α : Type} {name : String} {fields : List (String × Json)}
    {encode : α → String} {read? : Json → Option α}
    (hread : ∀ value, read? (.string (encode value)) = some value) {value : Option α}
    (hlookup : lookupName name fields = (value.map encode).map Json.string) :
    json.optional? read? name fields = some value := by
  rw [optional?, hlookup]
  cases value with
  | none => rfl
  | some value =>
    change (read? (.string (encode value))).map some = _
    rw [hread]
    rfl

theorem readForeignKey?_toJson (declaration : ForeignKeyDeclaration) :
    json.readForeignKey? declaration.toJson = some declaration := by
  obtain ⟨collection, onInsert, onDelete⟩ := declaration
  let fields := optionalField "collection" collection ++
    optionalField "onInsert" (onInsert.map InsertPolicy.name) ++
    optionalField "onDelete" (onDelete.map DeletePolicy.name)
  have hrecord : json.record? ["collection", "onInsert", "onDelete"] (.object fields) =
      some fields :=
    record?_of_sublist (by decide) (sublist_foreignKeyFields _ _ _)
  have hcollection : json.optional? json.text? "collection" fields = some collection := by
    refine optional?_of_lookupName (fun text => (rfl : json.text? (.string (id text)) = _)) ?_
    simp [fields, lookupName_append, lookupName_optionalField]
  have hinsert : json.optional? (fun node => (json.choice? node).bind InsertPolicy.ofName?)
      "onInsert" fields = some onInsert := by
    refine optional?_of_lookupName InsertPolicy.ofName?_name ?_
    simp [fields, lookupName_append, lookupName_optionalField]
  have hdelete : json.optional? (fun node => (json.choice? node).bind DeletePolicy.ofName?)
      "onDelete" fields = some onDelete := by
    refine optional?_of_lookupName DeletePolicy.ofName?_name ?_
    simp [fields, lookupName_append, lookupName_optionalField]
  change json.readForeignKey? (.object fields) = _
  simp only [readForeignKey?, hrecord, hcollection, hinsert, hdelete, Option.bind_eq_bind,
    Option.bind_some, Option.pure_def]

theorem readCollection?_toJson (declaration : CollectionDeclaration) :
    json.readCollection? declaration.toJson = some declaration := by
  obtain ⟨key, foreignKeys⟩ := declaration
  let declared : List (String × Json) := if foreignKeys.isEmpty then []
    else [("foreignKeys", foreignKeys.toJson ForeignKeyDeclaration.toJson)]
  let fields := optionalField "key" key ++ declared
  have hrecord : json.record? ["key", "foreignKeys"] (.object fields) = some fields :=
    record?_of_sublist (by decide) (sublist_collectionFields _ _ _)
  have hkey : json.optional? json.text? "key" fields = some key := by
    refine optional?_of_lookupName (fun text => (rfl : json.text? (.string (id text)) = _)) ?_
    have hdeclared : lookupName "key" declared = none := by
      simp only [declared]
      split <;> simp [lookupName]
    simp [fields, lookupName_append, lookupName_optionalField, hdeclared]
  have hforeignKeys : lookupName "foreignKeys" fields =
      if foreignKeys.isEmpty then none
      else some (foreignKeys.toJson ForeignKeyDeclaration.toJson) := by
    by_cases hempty : foreignKeys.isEmpty <;>
      simp [fields, declared, lookupName_append, lookupName_optionalField, lookupName, hempty]
  change json.readCollection? (.object fields) = _
  simp only [readCollection?, hrecord, hkey, hforeignKeys, Option.bind_eq_bind, Option.bind_some,
    Option.pure_def]
  by_cases hempty : foreignKeys.isEmpty
  · have hnone : foreignKeys = .empty := NameMap.ext (List.isEmpty_iff.1 hempty)
    rw [if_pos hempty, hnone]
  · rw [if_neg hempty]
    simp only [readMap?_toJson readForeignKey?_toJson, Option.bind_some]

theorem readSchema?_toJson (schema : Schema) : json.readSchema? schema.toJson = some schema := by
  rw [readSchema?, Schema.toJson, readMap?_toJson readCollection?_toJson]
  rfl

end SchemaFormat

theorem nests_optionalField (limit : Nat) (name : String) (value : Option String) :
    ∀ field ∈ optionalField name value, Json.Nests limit field.2 := by
  cases value with
  | none => exact fun _ hmem => absurd hmem List.not_mem_nil
  | some text => exact List.forall_mem_singleton.2 (.string limit text)

theorem NameMap.nests_toJson {α : Type} {encode : α → Json} {limit : Nat}
    (h : ∀ value, Json.Nests limit (encode value)) (map : NameMap α) :
    Json.Nests (limit + 1) (map.toJson encode) := by
  refine .object ?_ (List.forall_mem_map.2 fun entry _ => h entry.2)
  rw [List.map_map]
  exact map.nodup_keys

theorem ForeignKeyDeclaration.nests_toJson (declaration : ForeignKeyDeclaration) :
    Json.Nests 1 declaration.toJson := by
  refine .object ((SchemaFormat.sublist_foreignKeyFields _ _ _).nodup (by decide)) ?_
  simp only [List.forall_mem_append]
  exact ⟨⟨nests_optionalField _ _ _, nests_optionalField _ _ _⟩, nests_optionalField _ _ _⟩

theorem CollectionDeclaration.nests_toJson (declaration : CollectionDeclaration) :
    Json.Nests 3 declaration.toJson := by
  refine .object ((SchemaFormat.sublist_collectionFields _ _ _).nodup (by decide)) ?_
  rw [List.forall_mem_append]
  refine ⟨nests_optionalField _ _ _, ?_⟩
  split
  · exact fun _ hmem => absurd hmem List.not_mem_nil
  · exact List.forall_mem_singleton.2
      (NameMap.nests_toJson ForeignKeyDeclaration.nests_toJson declaration.foreignKeys)

theorem Schema.nests_toJson (schema : Schema) : Json.Nests 4 schema.toJson :=
  NameMap.nests_toJson CollectionDeclaration.nests_toJson schema.collections

namespace Schema

theorem ofJson_toJson (schema : Schema) : ofJson schema.toJson = .ok schema := by
  rw [ofJson, SchemaFormat.readSchema?_toJson]

theorem ofText_write {format : Json.TextFormat} (hformat : format.RoundTrips) (schema : Schema) :
    ofText format.read? (format.write schema.toJson) = .ok schema := by
  rw [ofText, hformat 4 schema.toJson schema.nests_toJson (by decide)]
  exact ofJson_toJson schema

/-- A schema is read back from its JSON value and from the text of that value, in any format whose
texts read back and so in the compact one, and it then has the graph that it had. -/
theorem ofJson_toJson_and_ofJsonText_toText (schema : Schema) :
    ofJson schema.toJson = .ok schema ∧ ofJsonText schema.toJson.toText = .ok schema ∧
      (ofJson schema.toJson >>= Graph.build) = Graph.build schema ∧
      (ofJsonText schema.toJson.toText >>= Graph.build) = Graph.build schema ∧
      ∀ format : Json.TextFormat, format.RoundTrips →
        ofText format.read? (format.write schema.toJson) = .ok schema ∧
          (ofText format.read? (format.write schema.toJson) >>= Graph.build) =
            Graph.build schema := by
  have htext : ofJsonText schema.toJson.toText = .ok schema :=
    ofText_write Json.TextFormat.roundTrips_compact schema
  refine ⟨ofJson_toJson schema, htext, ?_, ?_, fun format hformat => ?_⟩
  · rw [ofJson_toJson]
    rfl
  · rw [htext]
    rfl
  · have hread := ofText_write hformat schema
    refine ⟨hread, ?_⟩
    rw [hread]
    rfl

/-- Books under a name with a quote, which refer to authors by all but one of the fields. -/
def quotedSchema : Schema where
  collections := .ofList [
    ("books\"", { key := some "isbn", foreignKeys := .ofList [
      ("authors.$", { collection := some "authors", onDelete := some .pull })] }),
    ("authors", {})]

theorem ofText_compact_quotedSchema :
    Json.TextFormat.compact.RoundTrips ∧
      Json.TextFormat.compact.write quotedSchema.toJson =
        "\x7b\"authors\":\x7b\x7d,\"books\\\"\":\x7b\"key\":\"isbn\",\"foreignKeys\":" ++
          "\x7b\"authors.$\":\x7b\"collection\":\"authors\",\"onDelete\":\"PULL\"\x7d\x7d\x7d\x7d" ∧
      ofText Json.readRaw? (Json.TextFormat.compact.write quotedSchema.toJson) =
        .ok quotedSchema := by
  have hcompact := Json.TextFormat.roundTrips_compact
  obtain ⟨-, -, -, -, hread⟩ := ofJson_toJson_and_ofJsonText_toText quotedSchema
  exact ⟨hcompact, by decide, (hread .compact hcompact).1⟩

end Schema

end LinkedDocs
