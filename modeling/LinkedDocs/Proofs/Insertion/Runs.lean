import LinkedDocs.Platform.Native
import LinkedDocs.Proofs.Insertion.Writing

namespace LinkedDocs

open Json Store

/-- The calls that insert or replace documents of a collection. -/
inductive Write where
  | insert (document : Json)
  | insertMany (documents : List Json)
  | replaceOne (filter document : Json)
  | findOneAndReplace (filter document : Json)
  | findByKeyAndReplace (key document : Json)

section

variable [Platform]

namespace Write

/-- The documents that a call supplies. -/
def documents : Write → List Json
  | .insert document => [document]
  | .insertMany documents => documents
  | .replaceOne _ document => [document]
  | .findOneAndReplace _ document => [document]
  | .findByKeyAndReplace _ document => [document]

/-- Carries out a call. The result is whether documents were written, which is not so when there is
no document to replace. -/
def perform (collection : Collection) : Write → Access Bool
  | .insert document => do
    let _ ← collection.insert document
    return true
  | .insertMany documents => do
    let _ ← collection.insertMany documents
    return true
  | .replaceOne filter document => do
    return (← collection.replaceOne filter document).matched != 0
  | .findOneAndReplace filter document => do
    return (← collection.findOneAndReplace filter document).isSome
  | .findByKeyAndReplace key document => do
    return (← collection.findByKeyAndReplace key document).isSome

/-- Whether all documents of a call have scalar ids, if any, down to the nested ones. -/
def SuppliesScalarIds (collection : Collection) (write : Write) : Prop :=
  ∀ document ∈ write.documents, collection.suppliesScalarIds document

instance (collection : Collection) (write : Write) :
    Decidable (write.SuppliesScalarIds collection) :=
  inferInstanceAs (Decidable (∀ document ∈ write.documents, collection.suppliesScalarIds document))

/-- Runs calls to the collections of a graph one after the other, whether or not they succeed. -/
def runAll (graph : Graph) : List (String × Write) → Session → Session
  | [], session => session
  | (name, write) :: rest, session =>
    runAll graph rest ((write.perform (graph.collection name)).runIn session).2

end Write

section Perform

variable {collection : Collection} {session : Session}

/-- A replacement for which a filter query is normalized first. -/
theorem leads_normalize_replace {β : Type} (hkeys : collection.graph.KeysAreIds) (filter : Json)
    {document : Json} (hsupplies : collection.suppliesScalarIds document)
    (hrefused : session.refused = []) (hids : session.store.Identified)
    {next : Option Replacement → Access β} {ok : β → Session → Prop}
    (hnext : ∀ replacement after, Keeps collection.graph session after →
      (replacement = none → Restores session after) →
        Leads (next replacement) after ok (Restores session)) :
    Leads (do
      let normalized ← collection.normalize filter
      let replacement ← collection.replace normalized document
      next replacement) session ok (Restores session) := by
  apply Leads.bind
  refine (Collection.reads_normalize collection filter).leads (fun normalized calls _ => ?_)
    fun calls => ⟨rfl, fun _ => rfl⟩
  -- the calls that read the store are listed in the session, which is the same otherwise
  let before : Session := { session with calls }
  have hbefore : before.refused = [] := hrefused
  apply Leads.bind
  refine (Collection.leads_replace hkeys normalized hsupplies hbefore hids).mono ?_ ?_
  · rintro replacement after ⟨hkeeps, hrestores⟩
    refine hnext replacement after ⟨hkeeps.refused_eq, hkeeps.identified, hkeeps.honest⟩ ?_
    intro hnone
    exact ⟨(hrestores hnone).refused_eq, (hrestores hnone).sameDocuments⟩
  · exact fun after hrestores => ⟨hrestores.refused_eq, hrestores.sameDocuments⟩

/-- What one call does to a store of documents with different ids. -/
theorem Write.leads_perform (hkeys : collection.graph.KeysAreIds) (write : Write)
    (hsupplies : write.SuppliesScalarIds collection) (hrefused : session.refused = [])
    (hids : session.store.Identified) :
    Leads (write.perform collection) session
      (fun written after => Keeps collection.graph session after ∧
        (written = false → Restores session after)) (Restores session) := by
  cases write with
  | insert document =>
    apply Leads.bind
    apply Leads.bind
    refine (Collection.leads_insertMany hkeys hsupplies hrefused hids).mono ?_ fun _ h => h
    exact fun stored after hkeeps => .pure (.pure ⟨hkeeps, fun hfalse => by cases hfalse⟩)
  | insertMany documents =>
    apply Leads.bind
    refine (Collection.leads_insertMany hkeys hsupplies hrefused hids).mono ?_ fun _ h => h
    exact fun stored after hkeeps => .pure ⟨hkeeps, fun hfalse => by cases hfalse⟩
  | replaceOne filter document =>
    have hdocument := hsupplies document List.mem_cons_self
    apply Leads.bind
    refine leads_normalize_replace hkeys filter hdocument hrefused hids ?_
    intro replacement after hkeeps hrestores
    cases replacement with
    | none => exact .pure (.pure ⟨hkeeps, fun _ => hrestores rfl⟩)
    | some replacement => exact .pure (.pure ⟨hkeeps, fun hfalse => by cases hfalse⟩)
  | findOneAndReplace filter document =>
    have hdocument := hsupplies document List.mem_cons_self
    apply Leads.bind
    refine leads_normalize_replace hkeys filter hdocument hrefused hids ?_
    intro replacement after hkeeps hrestores
    cases replacement with
    | none => exact .pure (.pure ⟨hkeeps, fun _ => hrestores rfl⟩)
    | some replacement => exact .pure (.pure ⟨hkeeps, fun hfalse => by cases hfalse⟩)
  | findByKeyAndReplace key document =>
    have hdocument := hsupplies document List.mem_cons_self
    apply Leads.bind
    apply Leads.bind
    refine (Collection.leads_replace hkeys _ hdocument hrefused hids).mono ?_ fun _ h => h
    rintro replacement after ⟨hkeeps, hrestores⟩
    cases replacement with
    | none => exact .pure (.pure ⟨hkeeps, fun _ => hrestores rfl⟩)
    | some replacement => exact .pure (.pure ⟨hkeeps, fun hfalse => by cases hfalse⟩)

end Perform

/-- A call that fails, or that finds no document to replace, leaves every collection with the
documents that it had, in the same order. -/
theorem documents_eq_of_not_written {collection : Collection}
    (hkeys : collection.graph.KeysAreIds) {session : Session} (hrefused : session.refused = [])
    (hids : session.store.Identified) {write : Write}
    (hsupplies : write.SuppliesScalarIds collection)
    (hfailed : (write.perform collection).answer session ≠ .ok true) (name : String) :
    ((write.perform collection).runIn session).2.store.documents name =
      session.store.documents name := by
  have hleads := write.leads_perform hkeys hsupplies hrefused hids
  rw [Access.answer] at hfailed
  cases hrun : (write.perform collection).runIn session with
  | mk result after =>
    rw [hrun] at hfailed
    cases result with
    | error error => exact (hleads.of_error error after hrun).sameDocuments name
    | ok written =>
      cases written with
      | true => exact absurd rfl hfailed
      | false => exact ((hleads.of_ok false after hrun).2 rfl).sameDocuments name

end

/-- Books that name their authors, who name their publishers. -/
def librarySchema : Schema where
  collections := .ofList [
    ("authors", { foreignKeys := .ofList [("publisher", { collection := some "publishers" })] }),
    ("books", { foreignKeys := .ofList [("authors.$", { collection := some "authors" })] })]

def librarySession : Session where
  store := { collections := .ofList [
    ("authors", [.object [("_id", .string "a"), ("publisher", .string "p")]]),
    ("publishers", [.object [("_id", .string "p")]])] }

/-- A book with a new author, who has a new publisher. -/
def nestedBook : Json :=
  .object [("_id", .string "b"), ("authors", .array [.string "a",
    .object [("_id", .string "c"), ("publisher", .object [("_id", .string "q")])]])]

/-- A book with an author who is not stored. -/
def orphanedBook : Json :=
  .object [("_id", .string "d"), ("authors", .array [.string "e"])]

theorem keysAreIds_libraryGraph : librarySchema.graph.KeysAreIds := by
  refine Graph.keysAreIds_of_forall ?_
  decide

theorem identified_librarySession : librarySession.store.Identified := by
  refine identified_of_forall ?_
  decide

/-- The first book could be stored, with its author and their publisher; the second one takes all
of them away again. -/
theorem documents_eq_orphanedBook :
    (((Write.insertMany [nestedBook, orphanedBook]).perform
        (librarySchema.graph.collection "books")).answer librarySession).toOption = none ∧
      ∀ name, (((Write.insertMany [nestedBook, orphanedBook]).perform
        (librarySchema.graph.collection "books")).runIn librarySession).2.store.documents name =
          librarySession.store.documents name := by
  have hfails : (((Write.insertMany [nestedBook, orphanedBook]).perform
      (librarySchema.graph.collection "books")).answer librarySession).toOption = none := by
    decide +kernel
  have hsupplies : (Write.insertMany [nestedBook, orphanedBook]).SuppliesScalarIds
      (librarySchema.graph.collection "books") := by decide
  refine ⟨hfails, documents_eq_of_not_written keysAreIds_libraryGraph rfl identified_librarySession
    hsupplies ?_⟩
  intro hwritten
  rw [hwritten] at hfails
  cases hfails

section

variable [Platform]

theorem Write.keeps_perform {collection : Collection} (hkeys : collection.graph.KeysAreIds)
    {session : Session} (write : Write) (hsupplies : write.SuppliesScalarIds collection)
    (hrefused : session.refused = []) (hids : session.store.Identified) :
    Keeps collection.graph session ((write.perform collection).runIn session).2 := by
  have hleads := write.leads_perform hkeys hsupplies hrefused hids
  cases hrun : (write.perform collection).runIn session with
  | mk result after =>
    cases result with
    | error error => exact (hleads.of_error error after hrun).keeps hids
    | ok written => exact (hleads.of_ok written after hrun).1

/-- Whatever is inserted and replaced, each foreign key that is verified on insert goes on referring
to stored documents, and the ids of each collection go on being scalars that differ. -/
theorem honest_runAll {schema : Schema} {graph : Graph} (hbuilt : Graph.build schema = .ok graph)
    (hkeys : graph.KeysAreIds)
    (hspares : ∀ name key foreignKey,
      (graph.links name).foreignKeys.get? key = some foreignKey →
        foreignKey.path.head? ≠ some idField)
    {session : Session} (hrefused : session.refused = []) (hids : session.store.Identified)
    (hhonest : graph.Honest session.store) {writes : List (String × Write)}
    (hsupplies : ∀ entry ∈ writes, entry.2.SuppliesScalarIds (graph.collection entry.1)) :
    (Write.runAll graph writes session).store.Identified ∧
      graph.Honest (Write.runAll graph writes session).store := by
  induction writes generalizing session with
  | nil => exact ⟨hids, hhonest⟩
  | cons entry rest ih =>
    obtain ⟨name, write⟩ := entry
    obtain ⟨hfirst, hrest⟩ := List.forall_mem_cons.1 hsupplies
    have hcollection : (graph.collection name).graph.KeysAreIds := hkeys
    have hkeeps := write.keeps_perform hcollection hfirst hrefused hids
    have hstep := hkeeps.honest (Graph.sparesIds_of_build hbuilt hspares) hhonest
    exact ih (hkeeps.refused_eq.trans hrefused) hkeeps.identified hstep hrest

end

/-- A book is inserted with its author, one is refused, and the author moves to a new publisher. -/
def libraryWrites : List (String × Write) := [
  ("books", .insert nestedBook),
  ("books", .insertMany [.object [("title", .string "t")], orphanedBook]),
  ("authors", .replaceOne (.single "_id" (.string "c"))
    (.object [("publisher", .object [("_id", .string "r")])]))]

theorem honest_libraryWrites :
    sameItems (((Write.runAll librarySchema.graph libraryWrites librarySession).store.documents
        "publishers").map idOf) [.string "p", .string "q", .string "r"] ∧
      (Write.runAll librarySchema.graph libraryWrites librarySession).store.Identified ∧
      librarySchema.graph.Honest
        (Write.runAll librarySchema.graph libraryWrites librarySession).store := by
  have hspares : ∀ name key foreignKey,
      (librarySchema.graph.links name).foreignKeys.get? key = some foreignKey →
        foreignKey.path.head? ≠ some idField := by
    refine Graph.forall_foreignKeys ?_
    decide
  have hstored : ∀ name key foreignKey,
      (librarySchema.graph.links name).foreignKeys.get? key = some foreignKey →
        ∀ document ∈ librarySession.store.documents name,
          ∀ value ∈ document.valuesAt foreignKey.path,
            ∃ target ∈ librarySession.store.documents foreignKey.collection,
              (idOf target).sameValue value := by
    refine Graph.forall_foreignKeys ?_
    decide
  have hhonest : librarySchema.graph.Honest librarySession.store := by
    intro name document hdocument key foreignKey hforeign _
    exact hstored name key foreignKey hforeign document hdocument
  have hsupplies : ∀ entry ∈ libraryWrites,
      entry.2.SuppliesScalarIds (librarySchema.graph.collection entry.1) := by decide
  refine ⟨by decide +kernel, ?_⟩
  exact honest_runAll (librarySchema.build_graph rfl) keysAreIds_libraryGraph hspares rfl
    identified_librarySession hhonest hsupplies

end LinkedDocs
