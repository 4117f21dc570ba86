import LinkedDocs.Proofs.Removal.Marking

namespace LinkedDocs

open Json

namespace DeletedKeys

/-- Marks the keys of some calls, one call after the other. Returns for each call the keys that were
not marked before. -/
def markAll (deleted : DeletedKeys) :
    List (String × List Json) → List (String × List Json) × DeletedKeys
  | [] => ([], deleted)
  | (collection, keys) :: rest =>
    let first := deleted.mark collection keys
    let others := first.2.markAll rest
    ((collection, first.1) :: others.1, others.2)

/-- The keys of all calls for a collection, in order. -/
def keysOf (name : String) (calls : List (String × List Json)) : List Json :=
  (calls.filter fun call => call.1 = name).flatMap Prod.snd

theorem keysOf_cons (name collection : String) (keys : List Json)
    (calls : List (String × List Json)) :
    keysOf name ((collection, keys) :: calls) =
      (if name = collection then keys else []) ++ keysOf name calls := by
  by_cases hname : name = collection
  · simp [keysOf, hname]
  · simp [keysOf, hname, Ne.symm hname]

theorem freshKeys_append (seen keys more : List Json) :
    freshKeys seen (keys ++ more) =
      freshKeys seen keys ++ freshKeys (seen ++ freshKeys seen keys) more := by
  induction keys generalizing seen with
  | nil => simp [freshKeys]
  | cons first rest ih =>
    rw [List.cons_append, freshKeys_cons, freshKeys_cons]
    split
    case isTrue => exact ih seen
    case isFalse => rw [ih, List.cons_append, List.append_assoc, List.singleton_append]

/-- Marking keys in two calls that follow each other is marking them in one. -/
theorem mark_append (deleted : DeletedKeys) (collection : String) (keys more : List Json) :
    deleted.mark collection (keys ++ more) =
      (let first := deleted.mark collection keys
       let second := first.2.mark collection more
       (first.1 ++ second.1, second.2)) := by
  have hget : (deleted.mark collection keys).2.get collection =
      deleted.get collection ++ freshKeys (deleted.get collection) keys := by
    rw [get_mark, if_pos rfl]
    rfl
  simp only [mark, NameMap.insert_insert, freshKeys_append] at hget ⊢
  rw [hget, List.append_assoc]

theorem markAll_split (deleted : DeletedKeys) (collection : String) (first : List Json)
    (batches : List (List Json)) :
    (let calls := deleted.markAll ((first :: batches).map (Prod.mk collection))
     (calls.1.flatMap Prod.snd, calls.2)) = deleted.mark collection (first :: batches).flatten := by
  induction batches generalizing deleted first with
  | nil => simp [markAll]
  | cons second rest ih =>
    rw [List.flatten_cons, mark_append]
    simp only [← ih]
    rfl

theorem get_markAll (deleted : DeletedKeys) (calls : List (String × List Json)) (name : String) :
    (deleted.markAll calls).2.get name =
      deleted.get name ++ keysOf name (deleted.markAll calls).1 := by
  induction calls generalizing deleted with
  | nil => simp [markAll, keysOf]
  | cons call rest ih =>
    obtain ⟨collection, keys⟩ := call
    rw [markAll, ih, get_mark, keysOf_cons, List.append_assoc]

/-- The calls return together what one call with all the keys of a collection returns. -/
theorem keysOf_markAll (deleted : DeletedKeys) (calls : List (String × List Json))
    (name : String) :
    keysOf name (deleted.markAll calls).1 = freshKeys (deleted.get name) (keysOf name calls) := by
  induction calls generalizing deleted with
  | nil => rfl
  | cons call rest ih =>
    obtain ⟨collection, keys⟩ := call
    rw [markAll, keysOf_cons, keysOf_cons, freshKeys_append, ih, get_mark]
    by_cases hname : name = collection
    · subst hname
      simp only [if_true]
      rfl
    · simp [hname, freshKeys]

/-- Of all keys that the calls give to a collection, those that differ from the ones before them are
marked, each once. Cutting one call into several that follow each other changes nothing. -/
theorem markAll_append_distinct :
    (∀ (calls : List (String × List Json)) (name : String),
      let marked := ({} : DeletedKeys).markAll calls
      marked.2.get name = keysOf name marked.1 ∧ (marked.2.get name).Pairwise Differ ∧
        (∀ key ∈ keysOf name calls,
          (marked.2.get name).countP (fun other => other.sameValue key) = 1) ∧
        keysOf name marked.1 = freshKeys [] (keysOf name calls)) ∧
      ∀ (deleted : DeletedKeys) (collection : String) (first : List Json)
        (batches : List (List Json)),
        let split := deleted.markAll ((first :: batches).map (Prod.mk collection))
        (split.1.flatMap Prod.snd, split.2) =
          deleted.mark collection (first :: batches).flatten := by
  refine ⟨fun calls name => ?_, markAll_split⟩
  have hfresh := keysOf_markAll {} calls name
  have hget := get_markAll {} calls name
  have hdiffer : (({} : DeletedKeys).get name ++
      freshKeys (({} : DeletedKeys).get name) (keysOf name calls)).Pairwise Differ :=
    pairwise_append_freshKeys List.Pairwise.nil _
  rw [← hfresh, ← hget] at hdiffer
  refine ⟨hget, hdiffer, fun key hkey => countP_eq_one hdiffer ?_, hfresh⟩
  rw [hget, hfresh]
  exact holds_append_freshKeys hkey

/-- The number two as a double. -/
def doubleTwo : Json :=
  .number (.double (.ofInt 2))

/-- Calls for two collections in turn, the third with a key in another spelling. -/
def interleavedCalls : List (String × List Json) :=
  [("authors", [.int 1, .int 2, .int 1]), ("books", [.int 2]), ("authors", [doubleTwo, .int 3])]

theorem countP_interleavedCalls :
    doubleTwo ∈ keysOf "authors" interleavedCalls ∧
      ((({} : DeletedKeys).markAll interleavedCalls).2.get "authors").length = 3 ∧
      ((({} : DeletedKeys).markAll interleavedCalls).2.get "authors").countP
        (fun other => other.sameValue doubleTwo) = 1 := by
  have hkey : doubleTwo ∈ keysOf "authors" interleavedCalls := by
    simp [keysOf, interleavedCalls]
  obtain ⟨-, -, hcount, -⟩ := markAll_append_distinct.1 interleavedCalls "authors"
  exact ⟨hkey, by decide +kernel, hcount doubleTwo hkey⟩

end DeletedKeys

end LinkedDocs
