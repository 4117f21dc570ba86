import LinkedDocs.Proofs.Graph.Built
import LinkedDocs.Proofs.Insertion.Leading
import LinkedDocs.Proofs.Store.Identity

namespace LinkedDocs

open Json

/-- Whether the key of every collection is the id. -/
def Graph.KeysAreIds (graph : Graph) : Prop :=
  ∀ name, (graph.links name).key = idField

theorem Graph.keysAreIds_of_forall {graph : Graph}
    (h : ∀ entry ∈ graph.collections.entries, entry.2.key = idField) : graph.KeysAreIds := by
  intro name
  rw [links, get?]
  cases hlinks : graph.collections.get? name with
  | none => rfl
  | some links => exact h (name, links) (NameMap.mem_entries_iff.2 hlinks)

/-- Whether each value of a foreign key that is verified on insert is the id of a document of its
target collection. -/
def Graph.Verified (graph : Graph) (store : Store) (name : String) (document : Json) : Prop :=
  ∀ key foreignKey, (graph.links name).foreignKeys.get? key = some foreignKey →
    foreignKey.onInsert = .verify → ∀ value ∈ document.valuesAt foreignKey.path,
      ∃ target ∈ store.documents foreignKey.collection, (Store.idOf target).sameValue value

/-- Whether that is so for all documents of a store. -/
def Graph.Honest (graph : Graph) (store : Store) : Prop :=
  ∀ name, ∀ document ∈ store.documents name, graph.Verified store name document

/-- Whether every foreign key path begins with a name that is not the id. -/
def Graph.SparesIds (graph : Graph) : Prop :=
  ∀ name key foreignKey, (graph.links name).foreignKeys.get? key = some foreignKey →
    ∃ segment rest, foreignKey.path = segment :: rest ∧ segment ≠ idField

theorem Graph.sparesIds_of_build {schema : Schema} {graph : Graph}
    (hbuilt : build schema = .ok graph)
    (h : ∀ name key foreignKey, (graph.links name).foreignKeys.get? key = some foreignKey →
      foreignKey.path.head? ≠ some idField) : graph.SparesIds := by
  intro name key foreignKey hforeign
  obtain ⟨segment, rest, hpath, -⟩ := (compiled hbuilt hforeign).path_eq
  have hhead := h name key foreignKey hforeign
  rw [hpath] at hhead
  exact ⟨segment, rest, hpath, by simpa using hhead⟩

section Verified

variable {graph : Graph} {store other : Store} {name : String} {document : Json}

/-- Each id that a document refers to may get another spelling, as long as none goes away. -/
theorem Graph.Verified.mono (h : graph.Verified store name document)
    (hids : ∀ collection, ∀ target ∈ store.documents collection,
      ∃ kept ∈ other.documents collection, (Store.idOf kept).sameValue (Store.idOf target)) :
    graph.Verified other name document := by
  intro key foreignKey hforeign hverify value hvalue
  obtain ⟨target, htarget, hsame⟩ := h key foreignKey hforeign hverify value hvalue
  obtain ⟨kept, hkept, hid⟩ := hids _ target htarget
  exact ⟨kept, hkept, sameValue_trans hid hsame⟩

theorem Graph.Verified.storedAs (hspares : graph.SparesIds)
    (h : graph.Verified store name document) {stored : Json}
    (hstored : Store.StoredAs document stored) : graph.Verified store name stored := by
  intro key foreignKey hforeign hverify value hvalue
  obtain ⟨segment, rest, hpath, hsegment⟩ := hspares name key foreignKey hforeign
  rw [hpath, hstored.valuesAt_eq hsegment, ← hpath] at hvalue
  exact h key foreignKey hforeign hverify value hvalue

end Verified

namespace Json

theorem distinctFrom_eq (seen values : List Json) :
    distinctFrom seen values = seen ++ DeletedKeys.freshKeys seen values := by
  induction values generalizing seen with
  | nil => simp [distinctFrom, DeletedKeys.freshKeys]
  | cons value rest ih =>
    rw [distinctFrom, DeletedKeys.freshKeys]
    split
    · exact ih seen
    · rw [ih, List.append_assoc, List.singleton_append]

theorem holds_distinct {values : List Json} {value : Json} (h : value ∈ values) :
    holds (distinct values) value := by
  have hholds : holds ([] ++ DeletedKeys.freshKeys [] values) value :=
    DeletedKeys.holds_append_freshKeys h
  rwa [distinct, distinctFrom_eq]

end Json

namespace Collection

variable [Platform]
variable {session : Session}

theorem reads_hasAllKeys (collection : Collection) (keys : List Json) :
    (collection.hasAllKeys keys).Reads := by
  unfold hasAllKeys
  dsimp only
  split
  · exact .pure _
  · exact .bind (.count _ _ _) fun _ => .pure _

theorem exists_of_hasAllKeys {collection : Collection} (hkey : collection.key = idField)
    (hids : Store.DistinctIds (session.store.documents collection.name)) {keys : List Json}
    (h : (collection.hasAllKeys keys).answer session = .ok true) :
    ∀ key ∈ keys, ∃ document ∈ session.store.documents collection.name,
      (Store.idOf document).sameValue key := by
  intro key hmem
  obtain ⟨unique, hunique, hsame⟩ := holds_iff.1 (holds_distinct hmem)
  unfold hasAllKeys at h
  dsimp only at h
  split at h
  case isTrue hempty =>
    rw [List.isEmpty_iff.1 hempty] at hunique
    cases hunique
  case isFalse =>
    rw [(Access.Reads.count _ _ _).answer_bind fun _ => .pure _, Access.answer_count] at h
    split at h
    case isTrue => cases h
    case isFalse =>
      obtain ⟨found, hfound, h⟩ := bind_eq_ok_iff.1 h
      rw [keysQuery, hkey] at hfound
      have hevaluates : Filter.Evaluates (session.store.documents collection.name)
          (.single idField (.oneOf (Json.distinct keys))) :=
        Filter.evaluates_oneOf Store.isMarked_idField _ _
      have hcount := mapError_eq_ok_iff.1 hfound
      rw [Store.countIn_matching hevaluates, Except.ok.injEq] at hcount
      have hlength : found = (Json.distinct keys).length := by simpa using h
      obtain ⟨document, hdocument, hid⟩ :=
        Store.exists_of_length_matching hids (hcount.trans hlength) unique hunique
      exact ⟨document, hdocument, sameValue_trans hid hsame⟩

theorem reads_verifyForeignKeys (collection : Collection) (document : Json)
    (entries : List (String × ForeignKey)) :
    (collection.verifyForeignKeys document entries).Reads := by
  induction entries with
  | nil => exact .pure _
  | cons entry rest ih =>
    unfold verifyForeignKeys
    dsimp only
    split
    · split
      · refine .bind (reads_hasAllKeys _ _) fun found => ?_
        cases found with
        | false => exact .bind (.throw _) fun _ => ih
        | true => exact ih
      · exact ih
    · exact ih

theorem reads_verify (collection : Collection) (document : Json) :
    (collection.verify document).Reads :=
  reads_verifyForeignKeys _ _ _

/-- A document is verified when all keys of each foreign key that is to be verified are there. -/
theorem answer_verifyForeignKeys_eq_ok_iff {collection : Collection} {document : Json}
    {entries : List (String × ForeignKey)} :
    (collection.verifyForeignKeys document entries).answer session = .ok () ↔
      ∀ entry ∈ entries, entry.2.onInsert = .verify →
        ((collection.target entry.2).hasAllKeys
          (Json.distinct (document.valuesAt entry.2.path))).answer session = .ok true := by
  induction entries with
  | nil => exact ⟨fun _ _ hentry => absurd hentry List.not_mem_nil, fun _ => rfl⟩
  | cons entry rest ih =>
    obtain ⟨key, foreignKey⟩ := entry
    rw [List.forall_mem_cons, ← ih, verifyForeignKeys]
    dsimp only
    split
    case isFalse hignored =>
      exact ⟨fun hrest => ⟨fun hverify => absurd hverify hignored, hrest⟩, fun h => h.2⟩
    case isTrue hverify =>
      simp only [hverify, forall_const]
      split
      case isFalse hempty =>
        have hnone : Json.distinct (document.valuesAt foreignKey.path) = [] := by
          simpa using hempty
        rw [hnone]
        exact ⟨fun hrest => ⟨rfl, hrest⟩, fun h => h.2⟩
      case isTrue =>
        rw [(reads_hasAllKeys _ _).answer_bind fun found => by
          cases found with
          | false => exact .bind (.throw _) fun _ => reads_verifyForeignKeys _ _ _
          | true => exact reads_verifyForeignKeys _ _ _]
        constructor
        · intro h
          obtain ⟨found, hfound, hrest⟩ := bind_eq_ok_iff.1 h
          cases found with
          | false => cases hrest
          | true => exact ⟨hfound, hrest⟩
        · rintro ⟨hfound, hrest⟩
          exact bind_eq_ok_iff.2 ⟨true, hfound, hrest⟩

theorem exists_of_verifyForeignKeys {collection : Collection}
    (hkeys : collection.graph.KeysAreIds) (hids : session.store.Identified) {document : Json}
    {entries : List (String × ForeignKey)}
    (h : (collection.verifyForeignKeys document entries).answer session = .ok ()) :
    ∀ entry ∈ entries, entry.2.onInsert = .verify →
      ∀ value ∈ document.valuesAt entry.2.path,
        ∃ target ∈ session.store.documents entry.2.collection,
          (Store.idOf target).sameValue value := by
  intro entry hentry hverify value hvalue
  have hfound := answer_verifyForeignKeys_eq_ok_iff.1 h entry hentry hverify
  have hkey : (collection.target entry.2).key = idField := hkeys entry.2.collection
  obtain ⟨other, hother, hsame⟩ := holds_iff.1 (holds_distinct hvalue)
  obtain ⟨target, htarget, hid⟩ := exists_of_hasAllKeys hkey (hids _) hfound other hother
  exact ⟨target, htarget, sameValue_trans hid hsame⟩

/-- A document that is verified refers to stored documents. -/
theorem verified_of_verify {collection : Collection} (hkeys : collection.graph.KeysAreIds)
    (hids : session.store.Identified) {document : Json}
    (h : (collection.verify document).answer session = .ok ()) :
    collection.graph.Verified session.store collection.name document := by
  intro key foreignKey hforeign hverify
  have hmem : (key, foreignKey) ∈ collection.foreignKeys.entries :=
    NameMap.mem_entries_iff.2 hforeign
  exact exists_of_verifyForeignKeys hkeys hids h _ hmem hverify

end Collection

end LinkedDocs
