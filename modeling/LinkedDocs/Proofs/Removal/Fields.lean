import LinkedDocs.Platform.Native
import LinkedDocs.Proofs.Removal.Positions
import LinkedDocs.Proofs.Update.Clearing

namespace LinkedDocs

open Json Update

namespace ForeignKey

variable {schema : Schema} {graph : Graph} {referencing name : String} {foreignKey : ForeignKey}
  {keys : List Json} {document : Json}

section

variable [Platform]

theorem Compiled.valuesAt_of_clears (h : foreignKey.Compiled name)
    (hkeys : ∀ key ∈ keys, key.isScalar) {operator : UpdateOperator} {argument : Json}
    (hclears : Clears operator argument) (hlast : foreignKey.path.getLast? ≠ some wildcard)
    (hnames : document.namesOnce) (hmatches : Filter.anyAmong (Filter.lookup document name) keys)
    {result : Json × Bool}
    (hupdate : updateAt ((Updater.forSet foreignKey.path).conditions keys) operator argument
      (splitPath (Updater.forSet foreignKey.path).target) document = .ok result) :
    result.1.valuesAt foreignKey.path =
      (document.endsAt foreignKey.path).flatMap (valuesLeft keys) := by
  rcases h.forSet_cases hlast keys with
    ⟨hwildcard, htarget⟩ | ⟨outer, inner, hsplit, hinner, htarget, hconditions⟩
  · rw [htarget] at hupdate
    rw [Filter.lookup, h.splitPath_name, filter_ne_wildcard hwildcard] at hmatches
    exact hclears.valuesAt_names hkeys hwildcard h.path_ne_nil hnames hmatches hupdate
  · rw [htarget, hconditions] at hupdate
    rw [(Updater.eq_of_splitAtLastWildcard? hsplit).1]
    exact valuesAt_openWildcards (List.cons_ne_nil _ _) (List.cons_ne_nil _ _)
      (fun hvalue hupdated => hclears.valuesAt_selected hkeys (h.areNames_inner hsplit) hinner
        hvalue hupdated) hnames hupdate

/-- Where unsetting a foreign key or setting it to null succeeds, it takes the values of the fields
that hold a deleted key, and keeps those of the others. So it takes the deleted keys alone exactly
if no field holds another value beside one of them. -/
theorem valuesAt_of_apply (hbuilt : Graph.build schema = .ok graph)
    (hforeign : (graph.links referencing).foreignKeys.get? name = some foreignKey)
    (hpolicy : foreignKey.onDelete = .unset ∨ foreignKey.onDelete = .nullify)
    (hkeys : ∀ key ∈ keys, key.isScalar) (hnames : document.namesOnce)
    (hmatches : Filter.accepts document (.single name (.oneOf keys)) = .ok true) {changes : Json}
    {arrayFilters : List Json}
    (hdetach : foreignKey.detach referencing name (.single name (.oneOf keys)) keys =
      .ok (.update referencing (.single name (.oneOf keys)) changes arrayFilters)) {after : Json}
    {changed : Bool} (happly : Update.apply changes arrayFilters document = .ok (after, changed)) :
    after.valuesAt foreignKey.path =
        ((document.endsAt foreignKey.path).flatMap fun field =>
          if (field.valuesAt []).any (holds keys) then [] else field.valuesAt []) ∧
      (after.valuesAt foreignKey.path =
          (document.valuesAt foreignKey.path).filter (fun value => !holds keys value) ↔
        ∀ field ∈ document.endsAt foreignKey.path,
          (field.valuesAt []).any (holds keys) → (field.valuesAt []).all (holds keys)) := by
  have hcompiled := Graph.compiled hbuilt hforeign
  have hupdates : foreignKey.onDelete ≠ .bypass ∧ foreignKey.onDelete ≠ .reject ∧
      foreignKey.onDelete ≠ .delete := by
    rcases hpolicy with hpolicy | hpolicy <;> simp [hpolicy]
  obtain ⟨operator, argument, target, _, heq, hby⟩ := hcompiled.exists_detachesBy hupdates hdetach
  cases heq
  rw [apply_single] at happly
  have hafter : after.valuesAt foreignKey.path =
      (document.endsAt foreignKey.path).flatMap (valuesLeft keys) := by
    cases hby with
    | clear hclears _ hlast =>
      exact hcompiled.valuesAt_of_clears hkeys hclears hlast hnames
        (hcompiled.anyAmong_of_accepts hmatches) happly
    | pull hpull => rcases hpolicy with hpolicy | hpolicy <;> rw [hpolicy] at hpull <;> cases hpull
  refine ⟨hafter, ?_⟩
  rw [hafter]
  exact flatMap_valuesLeft_eq_filter_iff keys document foreignKey.path

end

/-- Shelves with lists of authors. -/
def jointSchema : Schema where
  collections := .ofList [("shelves", { foreignKeys := .ofList [
    ("authors", { collection := some "people", onDelete := some .unset }),
    ("rows.$.authors", { collection := some "people", onDelete := some .nullify })] })]

def jointAuthors : ForeignKey :=
  .ofDeclaration "shelves" "authors" { collection := some "people", onDelete := some .unset }

def jointRowAuthors : ForeignKey :=
  .ofDeclaration "shelves" "rows.$.authors"
    { collection := some "people", onDelete := some .nullify }

/-- A shelf by two persons, who share a row of it and have written others alone. -/
def jointShelf : Json :=
  .object [("_id", .string "s"), ("authors", .array [.string "p", .string "q"]),
    ("rows", .array [
      .object [("authors", .array [.string "p", .string "q"])],
      .object [("authors", .array [.string "q"])],
      .object [("authors", .string "p")]])]

/-- The row that both share loses both of them. -/
theorem valuesAt_rows_jointShelf : ∃ changes arrayFilters after changed,
    jointRowAuthors.detach "shelves" "rows.authors"
        (.single "rows.authors" (.oneOf [.string "p"])) [.string "p"] =
      .ok (.update "shelves" (.single "rows.authors" (.oneOf [.string "p"])) changes
        arrayFilters) ∧
    Update.apply changes arrayFilters jointShelf = .ok (after, changed) ∧
    after.valuesAt jointRowAuthors.path = [.string "q"] := by
  have hforeign : (jointSchema.graph.links "shelves").foreignKeys.get? "rows.authors" =
      some jointRowAuthors := by decide
  obtain ⟨after, hafter⟩ := Option.isSome_iff_exists.1 (show (jointRowAuthors.detached? "shelves"
    "rows.authors" [.string "p"] jointShelf).isSome by decide +kernel)
  obtain ⟨changes, arrayFilters, changed, hdetach, happly⟩ :=
    ((Graph.compiled (jointSchema.build_graph rfl) hforeign).detached?_eq_some_iff
      (by decide)).1 hafter
  have hleft := (valuesAt_of_apply (jointSchema.build_graph rfl) hforeign (.inr rfl) (by decide)
    (by decide) ((Filter.accepts_oneOf (by decide) _ _).trans (congrArg _ (by decide))) hdetach
    happly).1
  have hpath : jointRowAuthors.path = ["rows", "$", "authors"] := by decide
  refine ⟨changes, arrayFilters, after, changed, hdetach, happly, hleft.trans ?_⟩
  rw [hpath]
  rfl

/-- The shelf loses its other author together with the deleted one. -/
theorem valuesAt_ne_jointShelf :
    (jointSchema.graph.links "shelves").foreignKeys.get? "authors" = some jointAuthors ∧
    jointAuthors.onDelete = .unset ∧
    Filter.accepts jointShelf (.single "authors" (.oneOf [.string "p"])) = .ok true ∧
    ∃ changes arrayFilters after changed,
      jointAuthors.detach "shelves" "authors" (.single "authors" (.oneOf [.string "p"]))
          [.string "p"] =
        .ok (.update "shelves" (.single "authors" (.oneOf [.string "p"])) changes arrayFilters) ∧
      Update.apply changes arrayFilters jointShelf = .ok (after, changed) ∧
      after.valuesAt jointAuthors.path ≠
        (jointShelf.valuesAt jointAuthors.path).filter fun value =>
          !holds [.string "p"] value := by
  have hforeign : (jointSchema.graph.links "shelves").foreignKeys.get? "authors" =
      some jointAuthors := by
    decide
  have hsome : (jointAuthors.detached? "shelves" "authors" [.string "p"] jointShelf).any
      fun after => (after.valuesAt jointAuthors.path).length !=
        ((jointShelf.valuesAt jointAuthors.path).filter fun value =>
          !holds [.string "p"] value).length := by decide
  obtain ⟨after, hafter, hloses⟩ := (Option.any_eq_true _ _).1 hsome
  obtain ⟨changes, arrayFilters, changed, hdetach, happly⟩ :=
    ((Graph.compiled (jointSchema.build_graph rfl) hforeign).detached?_eq_some_iff
      (by decide)).1 hafter
  exact ⟨hforeign, rfl,
    (Filter.accepts_oneOf (by decide) _ _).trans (congrArg _ (by decide)),
    changes, arrayFilters, after, changed, hdetach, happly,
    fun hsame => bne_iff_ne.1 hloses (congrArg List.length hsame)⟩

end ForeignKey

end LinkedDocs
