import LinkedDocs.Platform.Native
import LinkedDocs.Proofs.Graph.Acceptance
import LinkedDocs.Proofs.Removal.Scheduling

/-!
Keys that are read are found again. A key is read from a projection of its document to the key path,
and the delete that is planned for it is a filter query on that path. The two agree on what the path
leads to, be it null, an array or an object, so in the store that the plan is made for the query
finds each document whose key was read.
-/

namespace LinkedDocs

open Json

section

variable [Platform]

namespace Collection

variable {schema : Schema} {graph : Graph} {session : Session}

/-- A plan deletes each document whose key it marks, by a filter query that lists the key. -/
theorem exists_delete_of_holds (hbuilt : Graph.build schema = .ok graph) {plan : RemovalPlan}
    {store : Store} (haccounts : plan.Accounts graph store) {target : String} {document key : Json}
    (hkey : (graph.collection target).keyOf? document = some key)
    (hholds : holds (plan.deletedKeys.get target) key) :
    ∃ query, .delete target query ∈ plan.operations ++ [plan.delete] ∧
      Filter.accepts document query = .ok true := by
  obtain ⟨marked, hmarked, hsame⟩ := holds_iff.1 hholds
  obtain ⟨operation, hoperation, hlisted⟩ := haccounts.listed target marked hmarked
  obtain ⟨keys, rfl, hmem⟩ := exists_eq_delete_of_mem_listedKeys hbuilt
    (haccounts.handles operation hoperation).isPlanned hlisted
  exact ⟨_, hoperation, accepts_keysQuery hbuilt hkey (holds_iff.2 ⟨marked, hmem, hsame⟩)⟩

/-- The last delete of a plan finds the documents whose keys the plan read first. -/
theorem exists_delete_eq_of_planNormalized (hbuilt : Graph.build schema = .ok graph) {name : String}
    {filter : Json} {options : DeleteOptions} {plan : RemovalPlan}
    (hplan : ((graph.collection name).planNormalized filter options).answer session = .ok plan) :
    ∃ found query,
      ((graph.collection name).storedKeys filter (if options.single then some 1 else none)).answer
        session = .ok found ∧
      plan.delete = .delete name query ∧
      ∀ key ∈ found,
        (∃ document ∈ session.store.documents name,
          (graph.collection name).keyOf? document = some key) ∧
        ∀ document, (graph.collection name).keyOf? document = some key →
          Filter.accepts document query = .ok true := by
  obtain ⟨found, hfound, hdelete, -⟩ := levels_of_answer hbuilt hplan
  refine ⟨found, _, hfound, hdelete, fun key hkey => ⟨?_, fun document hdocument => ?_⟩⟩
  · exact exists_of_mem_storedPairs (mem_storedPairs_of_answer hbuilt hfound key hkey)
  · have hheld := holds_marked_mark ({} : RemovalDraft) name hkey
    rw [marked_mark, if_pos rfl] at hheld
    exact accepts_keysQuery hbuilt hdocument hheld

end Collection

/-- What a projection to a key path leads to on that path, the document itself leads to as well, and
a filter query that asks there for this value, among any others, accepts the document. So a plan
deletes each document whose key it read, and each document whose key it marks on the way. -/
theorem accepts_of_key_read :
    (∀ path : String, Identifier.checkKeyPath path = .ok () → ∀ document value : Json,
      (Projection.project [path] document).getPath? path = some value →
        document.getPath? path = some value ∧
          ∀ before after : List Json, Filter.accepts document
            (.single path (.oneOf (before ++ value :: after))) = .ok true) ∧
    ∀ (schema : Schema) (graph : Graph), Graph.build schema = .ok graph →
      ∀ (name : String) (filter : Json) (options : DeleteOptions) (session : Session)
        (plan : RemovalPlan),
        ((graph.collection name).planNormalized filter options).answer session = .ok plan →
          (∃ found query,
            ((graph.collection name).storedKeys filter
              (if options.single then some 1 else none)).answer session = .ok found ∧
            plan.delete = .delete name query ∧
            ∀ key ∈ found,
              (∃ document ∈ session.store.documents name,
                (graph.collection name).keyOf? document = some key) ∧
              ∀ document, (graph.collection name).keyOf? document = some key →
                Filter.accepts document query = .ok true) ∧
          ∀ target, ∀ document ∈ session.store.documents target, ∀ key,
            (graph.collection target).keyOf? document = some key →
              holds (plan.deletedKeys.get target) key →
                ∃ query, .delete target query ∈ plan.operations ++ [plan.delete] ∧
                  Filter.accepts document query = .ok true := by
  constructor
  · intro path hpath document value hvalue
    have hnames : ∀ segment ∈ splitPath path, Identifier.isValid segment := by
      simpa only [Identifier.isValid_iff_wellSpelled, Identifier.isKeyPath_iff] using
        Identifier.checkKeyPath_eq_ok_iff.1 hpath
    have hread : document.getPath? path = some value :=
      (Projection.getPath?_project hnames document).symm.trans hvalue
    exact ⟨hread, fun before after => accepts_oneOf_of_getPath? hnames hread
      (holds_of_mem (List.mem_append_right _ List.mem_cons_self))⟩
  · intro schema graph hbuilt name filter options session plan hplan
    have haccounts := Collection.accounts_of_planNormalized hbuilt hplan
    exact ⟨Collection.exists_delete_eq_of_planNormalized hbuilt hplan,
      fun target document _ key => Collection.exists_delete_of_holds hbuilt haccounts⟩

end

/-- A document with a list at its key path, and one with null there. -/
def listKeyed : Json :=
  .object [("code", .object [("of", .array [.null, .object [("of", .string "b")]]), ("is", .null)])]

def nullKeyed : Json :=
  .object [("code", .object [("of", .null), ("is", .string "a")])]

open Collection in
theorem accepts_listKeyed_nullKeyed_ringNote :
    (listKeyed.getPath? "code.of" = some (.array [.null, .object [("of", .string "b")]]) ∧
      Filter.accepts listKeyed (.single "code.of"
        (.oneOf [.string "a", .array [.null, .object [("of", .string "b")]]])) = .ok true) ∧
      Filter.accepts nullKeyed (.single "code.of" (.oneOf [.null, .string "a"])) = .ok true ∧
      ∃ plan, ((ringSchema.graph.collection "nodes").planNormalized
          (.single "_id" (.oneOf [.string "a"])) ⟨true, false⟩).answer ringSession = .ok plan ∧
        ∃ query, .delete "notes" query ∈ plan.operations ++ [plan.delete] ∧
          Filter.accepts ringNote query = .ok true := by
  obtain ⟨hread, hplans⟩ := accepts_of_key_read
  have hpath : Identifier.checkKeyPath "code.of" = .ok () := by decide
  have hproject (document : Json) : (Projection.project ["code.of"] document).getPath? "code.of" =
      document.getPath? "code.of" := Projection.getPath?_project (by decide) document
  have hlist := hread "code.of" hpath listKeyed (.array [.null, .object [("of", .string "b")]])
    ((hproject listKeyed).trans (by cbv))
  have hnull := hread "code.of" hpath nullKeyed .null ((hproject nullKeyed).trans (by cbv))
  have hnote := (hplans ringSchema ringSchema.graph (ringSchema.build_graph rfl) "nodes"
    (.single "_id" (.oneOf [.string "a"])) ⟨true, false⟩ ringSession _ rfl).2 "notes" ringNote
    List.mem_cons_self (.string "n") rfl rfl
  exact ⟨⟨hlist.1, hlist.2 [.string "a"] []⟩, hnull.2 [] [.string "a"], _, rfl, hnote⟩

end LinkedDocs
