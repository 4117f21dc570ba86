import LinkedDocs.Platform.Native
import LinkedDocs.Proofs.Json.Mapping
import LinkedDocs.Proofs.Removal.Cutting

namespace LinkedDocs

open Json Update

theorem getLast?_ne_of_cons {segment last : String} {rest : List String}
    (h : (segment :: rest).getLast? ≠ some last) : rest.getLast? ≠ some last := by
  intro hrest
  exact h (by rw [List.getLast?_cons, hrest, Option.getD_some])

/-- A document in which a query finds a scalar at the names of its path has no array behind a
wildcard of the path, if it has the shape of the path. -/
theorem Filter.Finds.fitsWhere {names path : List String} {value found : Json}
    (h : Finds names path value found) (hlast : path.getLast? ≠ some wildcard)
    {mayMiss : List String → Bool} {other : Json} (hshaped : other.shapedWhere mayMiss path) :
    other.fitsWhere mayMiss path := by
  induction h generalizing other with
  | here => exact hshaped
  | last => exact absurd rfl hlast
  | @field name names path fields child found hname hlookup h ih =>
    have hrest := getLast?_ne_of_cons hlast
    obtain ⟨others, rfl, hchild, hmissing⟩ := (shapedWhere_name_iff hname).1 hshaped
    exact (fitsWhere_name_iff hname).2
      ⟨others, rfl, fun child hfound => ih hrest (hchild child hfound), hmissing⟩
  | @element name names path items fields found hmem h ih =>
    have hrest := getLast?_ne_of_cons hlast
    obtain ⟨others, rfl, hitems⟩ := shapedWhere_wildcard_iff.1 hshaped
    refine fitsWhere_wildcard_iff.2
      ⟨others, rfl, fun item hitem => ⟨?_, ih hrest (hitems item hitem)⟩⟩
    cases h with
    | field hname =>
      obtain ⟨_, rfl, -⟩ := (shapedWhere_name_iff hname).1 (hitems item hitem)
      rfl

section

variable [Platform]

/-- The document that is left of a document by the update of a delete policy. -/
def ForeignKey.detached? (foreignKey : ForeignKey) (referencing name : String) (keys : List Json)
    (document : Json) : Option Json :=
  match foreignKey.detach referencing name (.single name (.oneOf keys)) keys with
  | .ok (.update _ _ changes arrayFilters) =>
    (Update.apply changes arrayFilters document).toOption.map Prod.fst
  | _ => none

theorem Update.followsClearing_mapAt {keys : List Json} (hkeys : ∀ key ∈ keys, key.isScalar) :
    FollowsClearing .set .null keys fun path old new => new = old.mapAt (nullAmong keys) path where
  field hsegment hlookup hchild := by rw [mapAt_name_object hsegment hlookup, hchild]
  missing hsegment hlookup := (mapAt_missing hsegment hlookup).symm
  items hitems := by
    rw [mapAt_wildcard_array]
    refine congrArg Json.array ?_
    induction hitems with
    | nil => rfl
    | cons hitem _ ih => rw [List.map_cons, hitem, ih]
  last {name} hname fields _ child hlookup hholds change hchange := by
    obtain ⟨key, hkey, hsame⟩ := (holdsAt_content_nil_iff hkeys).1 hholds
    have hnull : nullAmong keys child = .null :=
      if_pos (holds_iff.2 ⟨key, hkey, sameValue_symm hsame⟩)
    cases hchange
    rw [mapAt_name_object hname hlookup, mapAt_nil, hnull]
    rcases setTo_null_cases child with ⟨hkeep, rfl⟩ | hput
    · rw [hkeep, putField_eq_self hlookup]
      rfl
    · rw [hput]
      rfl
  kept {path value} hnone := by
    refine (mapAt_eq_self fun found hfound => if_neg fun hholds => ?_).symm
    obtain ⟨key, hkey, hsame⟩ := holds_iff.1 hholds
    have hreached := (holdsAt_content_iff hkeys).2 ⟨found, hfound, key, hkey, sameValue_symm hsame⟩
    rw [hnone] at hreached
    cases hreached

namespace ForeignKey.Compiled

variable {name : String} {foreignKey : ForeignKey} {keys : List Json} {document : Json}

omit [Platform] in
/-- The update by which a delete policy detaches the documents that match a filter query. -/
theorem exists_update (h : foreignKey.Compiled name)
    (hpolicy : foreignKey.onDelete ≠ .bypass ∧ foreignKey.onDelete ≠ .reject ∧
      foreignKey.onDelete ≠ .delete) (referencing : String) (filter : Json) (keys : List Json) :
    ∃ operator argument target arrayFilters,
      foreignKey.detach referencing name filter keys = .ok (.update referencing filter
        (.single operator.name (.single target argument)) arrayFilters) ∧
      foreignKey.DetachesBy keys operator argument target arrayFilters := by
  obtain ⟨operation, hdetach, -⟩ :=
    Collection.exists_detach h hpolicy.1 hpolicy.2.1 hpolicy.2.2 referencing filter keys
  obtain ⟨operator, argument, target, arrayFilters, rfl, hby⟩ := h.exists_detachesBy hpolicy hdetach
  exact ⟨operator, argument, target, arrayFilters, hdetach, hby⟩

theorem detached?_eq_some_iff (h : foreignKey.Compiled name)
    (hpolicy : foreignKey.onDelete ≠ .bypass ∧ foreignKey.onDelete ≠ .reject ∧
      foreignKey.onDelete ≠ .delete) {referencing : String} {after : Json} :
    foreignKey.detached? referencing name keys document = some after ↔
      ∃ changes arrayFilters changed,
        foreignKey.detach referencing name (.single name (.oneOf keys)) keys =
          .ok (.update referencing (.single name (.oneOf keys)) changes arrayFilters) ∧
        Update.apply changes arrayFilters document = .ok (after, changed) := by
  obtain ⟨operator, argument, target, arrayFilters, hdetach, -⟩ :=
    h.exists_update hpolicy referencing (.single name (.oneOf keys)) keys
  unfold detached?
  rw [hdetach]
  dsimp only
  constructor
  · intro hafter
    cases happly : Update.apply (.single operator.name (.single target argument)) arrayFilters
        document with
    | error =>
      rw [happly] at hafter
      cases hafter
    | ok result =>
      rw [happly] at hafter
      cases hafter
      exact ⟨_, _, result.2, rfl, happly⟩
  · rintro ⟨changes, filters, changed, hsame, happly⟩
    cases hsame
    rw [happly]
    rfl

theorem anyAmong_of_accepts (h : foreignKey.Compiled name)
    (hmatches : Filter.accepts document (.single name (.oneOf keys)) = .ok true) :
    Filter.anyAmong (Filter.lookup document name) keys := by
  rwa [Filter.accepts_oneOf h.isMarked_eq_false, Except.ok.injEq] at hmatches

omit [Platform] in
theorem fitsWhere_of_shapedWhere (h : foreignKey.Compiled name)
    (hlast : foreignKey.path.getLast? ≠ some wildcard) (hkeys : ∀ key ∈ keys, key.isScalar)
    {mayMiss : List String → Bool} (hshaped : document.shapedWhere mayMiss foreignKey.path)
    (hmatches : Filter.anyAmong (Filter.lookup document name) keys) :
    document.fitsWhere mayMiss foreignKey.path := by
  rw [Filter.lookup, h.splitPath_name] at hmatches
  obtain ⟨other, found, hfinds, -⟩ :=
    Filter.exists_finds (Filter.isValid_of_mem_names fun _ => h.isValid_of_mem) hkeys hmatches
  have hpath := Filter.eq_of_reaches_of_shapedWhere hshaped hfinds.reaches hfinds.isScalar
    hfinds.names_eq
  subst hpath
  exact hfinds.fitsWhere hlast hshaped

/-- The update of a delete policy succeeds on a document that fits and refers to a key. -/
theorem exists_updateAt (h : foreignKey.Compiled name)
    (hpolicy : foreignKey.onDelete ≠ .bypass ∧ foreignKey.onDelete ≠ .reject ∧
      foreignKey.onDelete ≠ .delete) (hkeys : ∀ key ∈ keys, key.isScalar)
    (hnames : document.namesOnce) (hfits : document.fitsWhere foreignKey.mayMiss foreignKey.path)
    (hmatches : Filter.anyAmong (Filter.lookup document name) keys) (referencing : String) :
    ∃ operator argument target arrayFilters after changed,
      foreignKey.detach referencing name (.single name (.oneOf keys)) keys =
        .ok (.update referencing (.single name (.oneOf keys))
          (.single operator.name (.single target argument)) arrayFilters) ∧
      foreignKey.DetachesBy keys operator argument target arrayFilters ∧
      updateAt arrayFilters operator argument (splitPath target) document =
        .ok (after, changed) := by
  have hnonnull : ∀ key ∈ keys, key.isNull = false :=
    fun key hkey => isNull_eq_false_of_isScalar (hkeys key hkey)
  obtain ⟨operator, argument, target, arrayFilters, hdetach, hby⟩ :=
    h.exists_update hpolicy referencing (.single name (.oneOf keys)) keys
  obtain ⟨⟨after, changed⟩, hupdate, -⟩ := h.completes hnonnull hby hnames hfits hmatches
  exact ⟨operator, argument, target, arrayFilters, after, changed, hdetach, hby, hupdate⟩

end ForeignKey.Compiled

end

namespace ForeignKey

variable {schema : Schema} {graph : Graph} {referencing name : String} {foreignKey : ForeignKey}
  {keys : List Json} {document : Json}

section

variable [Platform]

/-- Where setting a foreign key to null misses no field between its wildcards, it replaces the
values that are deleted keys by null and changes nothing else. -/
theorem exists_apply_nullify (hbuilt : Graph.build schema = .ok graph)
    (hforeign : (graph.links referencing).foreignKeys.get? name = some foreignKey)
    (hpolicy : foreignKey.onDelete = .nullify) (hkeys : ∀ key ∈ keys, key.isScalar)
    (hnames : document.namesOnce)
    (hshaped : document.shapedWhere foreignKey.mayMiss foreignKey.path)
    (hmatches : Filter.accepts document (.single name (.oneOf keys)) = .ok true) :
    ∃ changes arrayFilters changed,
      foreignKey.detach referencing name (.single name (.oneOf keys)) keys =
        .ok (.update referencing (.single name (.oneOf keys)) changes arrayFilters) ∧
      Update.apply changes arrayFilters document =
        .ok (document.mapAt (nullAmong keys) foreignKey.path, changed) := by
  have hcompiled := Graph.compiled hbuilt hforeign
  have hfinds := hcompiled.anyAmong_of_accepts hmatches
  have hfits := hcompiled.fitsWhere_of_shapedWhere (hcompiled.getLast?_ne (.inr hpolicy)) hkeys
    hshaped hfinds
  obtain ⟨operator, argument, target, arrayFilters, after, changed, hdetach, hby, hupdate⟩ :=
    hcompiled.exists_updateAt (by simp [hpolicy]) hkeys hnames hfits hfinds referencing
  refine ⟨_, _, changed, hdetach, ?_⟩
  rw [apply_single, hupdate]
  cases hby with
  | pull hpull =>
    rw [hpolicy] at hpull
    cases hpull
  | clear hclears hclearsBy hlast =>
    cases hclears with
    | unset =>
      rw [hpolicy] at hclearsBy
      cases hclearsBy
    | set =>
      have hafter := hcompiled.relates_of_clears hkeys (followsClearing_mapAt hkeys) hpolicy hlast
        hnames hfits hfinds hupdate
      rw [← hafter]

end

def catalogAuthor : ForeignKey :=
  .ofDeclaration "shelves" "rows.$.books.$.author"
    { collection := some "people", onDelete := some .nullify }

/-- A shelf of two rows; the first one holds three books, the last of them without an author. -/
def catalogShelf (author lastRow : Json) : Json :=
  .object [("_id", .string "s"), ("rows", .array [
    .object [("books", .array [.object [("author", author)], .object [("author", .string "q")],
      .object []])],
    lastRow])]

theorem get?_catalogAuthor :
    (Collection.catalogSchema.graph.links "shelves").foreignKeys.get? "rows.books.author" =
      some catalogAuthor := by decide

/-- With an empty row of books the author becomes null. -/
theorem exists_apply_nullify_catalogShelf : ∃ changes arrayFilters changed,
    catalogAuthor.detach "shelves" "rows.books.author"
        (.single "rows.books.author" (.oneOf [.string "p"])) [.string "p"] =
      .ok (.update "shelves" (.single "rows.books.author" (.oneOf [.string "p"])) changes
        arrayFilters) ∧
    Update.apply changes arrayFilters
        (catalogShelf (.string "p") (.object [("books", .array [])])) =
      .ok (catalogShelf .null (.object [("books", .array [])]), changed) := by
  have hpath : catalogAuthor.path = ["rows", "$", "books", "$", "author"] := by decide
  have hafter : (catalogShelf (.string "p") (.object [("books", .array [])])).mapAt
      (nullAmong [.string "p"]) catalogAuthor.path =
        catalogShelf .null (.object [("books", .array [])]) := by
    rw [hpath]
    rfl
  rw [← hafter]
  exact exists_apply_nullify (Collection.catalogSchema.build_graph rfl) get?_catalogAuthor rfl
    (by decide) (by decide) (by decide)
    ((Filter.accepts_oneOf (by decide) _ _).trans (congrArg _ (by decide)))

/-- A row without books gets some, in which there is an author that is null. -/
theorem not_exists_apply_nullify_catalogShelf :
    (Collection.catalogSchema.graph.links "shelves").foreignKeys.get? "rows.books.author" =
      some catalogAuthor ∧
    catalogAuthor.onDelete = .nullify ∧
    (catalogShelf (.string "p") (.object [])).shapedWhere (fun _ => true) catalogAuthor.path ∧
    Filter.accepts (catalogShelf (.string "p") (.object []))
      (.single "rows.books.author" (.oneOf [.string "p"])) = .ok true ∧
    ¬∃ changes arrayFilters changed,
      catalogAuthor.detach "shelves" "rows.books.author"
          (.single "rows.books.author" (.oneOf [.string "p"])) [.string "p"] =
        .ok (.update "shelves" (.single "rows.books.author" (.oneOf [.string "p"])) changes
          arrayFilters) ∧
      Update.apply changes arrayFilters (catalogShelf (.string "p") (.object [])) =
        .ok ((catalogShelf (.string "p") (.object [])).mapAt (nullAmong [.string "p"])
          catalogAuthor.path, changed) := by
  refine ⟨get?_catalogAuthor, rfl, by decide,
    (Filter.accepts_oneOf (by decide) _ _).trans (congrArg _ (by decide)),
    fun happlied => ?_⟩
  have hafter := ((Graph.compiled (Collection.catalogSchema.build_graph rfl)
    get?_catalogAuthor).detached?_eq_some_iff (by decide)).2 happlied
  have hdiffers : (catalogAuthor.detached? "shelves" "rows.books.author" [.string "p"]
      (catalogShelf (.string "p") (.object []))).any fun after =>
        !after.sameValue ((catalogShelf (.string "p") (.object [])).mapAt (nullAmong [.string "p"])
          catalogAuthor.path) := by decide +kernel
  rw [hafter] at hdiffers
  simp [sameValue_refl] at hdiffers

section

variable [Platform]

/-- Unsetting a foreign key removes the fields at its end that hold deleted keys, and pulling
removes the elements of its last arrays that are or hold one. Nothing else changes but the order of
fields. -/
theorem exists_apply_remove (hbuilt : Graph.build schema = .ok graph)
    (hforeign : (graph.links referencing).foreignKeys.get? name = some foreignKey)
    (hpolicy : foreignKey.onDelete = .unset ∨ foreignKey.onDelete = .pull)
    (hkeys : ∀ key ∈ keys, key.isScalar) (hnames : document.namesOnce)
    (hfits : document.fits foreignKey.path)
    (hmatches : Filter.accepts document (.single name (.oneOf keys)) = .ok true) :
    ∃ changes arrayFilters after changed,
      foreignKey.detach referencing name (.single name (.oneOf keys)) keys =
        .ok (.update referencing (.single name (.oneOf keys)) changes arrayFilters) ∧
      Update.apply changes arrayFilters document = .ok (after, changed) ∧ after.namesOnce ∧
      (foreignKey.onDelete = .unset →
        ({ keys, outer := foreignKey.path, inner := [] } : Cut).apply document.content =
          some after.content) ∧
      (foreignKey.onDelete = .pull → ∃ outer inner,
        foreignKey.path = outer ++ wildcard :: inner ∧ wildcard ∉ inner ∧
          ({ keys, outer := outer ++ [wildcard], inner } : Cut).apply document.content =
            some after.content) := by
  have hcompiled := Graph.compiled hbuilt hforeign
  have hfinds := hcompiled.anyAmong_of_accepts hmatches
  have hmay : ∀ rest, foreignKey.mayMiss rest := by
    intro rest
    rcases hpolicy with hpolicy | hpolicy <;> simp [mayMiss, hpolicy]
  have hfitsWhere := fitsWhere_of_fits hmay hfits
  have hupdates : foreignKey.onDelete ≠ .bypass ∧ foreignKey.onDelete ≠ .reject ∧
      foreignKey.onDelete ≠ .delete := by
    rcases hpolicy with hpolicy | hpolicy <;> simp [hpolicy]
  obtain ⟨operator, argument, target, arrayFilters, after, changed, hdetach, hby, hupdate⟩ :=
    hcompiled.exists_updateAt hupdates hkeys hnames hfitsWhere hfinds referencing
  have hcut := hcompiled.apply_cut hkeys hby hnames hfitsWhere hfinds hupdate
  have hshrinks := shrinks_updateAt (hcompiled.detaches hby).erases hnames hupdate
  refine ⟨_, _, after, changed, hdetach, by rw [apply_single, hupdate], hshrinks.namesOnce,
    fun hunset => ?_, fun hpull => ?_⟩
  · rw [cut, hunset] at hcut
    exact hcut
  · cases hby with
    | clear hclears hclearsBy =>
      rw [hpull] at hclearsBy
      split at hclearsBy <;> cases hclearsBy
    | @pull outer inner _ hsplit =>
      obtain ⟨hpath, hinner⟩ := Updater.eq_of_splitAtLastWildcard? hsplit
      rw [cut_of_pull hpull hsplit] at hcut
      exact ⟨outer, inner, hpath, hinner, hcut⟩

end

/-- Rows of books that lose their author, and rows that lose the books of their editor. -/
def archiveSchema : Schema where
  collections := .ofList [("shelves", { foreignKeys := .ofList [
    ("rows.$.books.$.author", { collection := some "people", onDelete := some .unset }),
    ("rows.$.books.$.editor", { collection := some "people", onDelete := some .pull })] })]

def archiveAuthor : ForeignKey :=
  .ofDeclaration "shelves" "rows.$.books.$.author"
    { collection := some "people", onDelete := some .unset }

def archiveEditor : ForeignKey :=
  .ofDeclaration "shelves" "rows.$.books.$.editor"
    { collection := some "people", onDelete := some .pull }

/-- A shelf of two rows; in the first one a person is the author of a book and edits another. -/
def archiveShelf : Json :=
  .object [("_id", .string "s"), ("rows", .array [
    .object [("books", .array [
      .object [("author", .string "p"), ("editor", .string "q")],
      .object [("author", .string "q"), ("editor", .string "p")],
      .object []])],
    .object []])]

theorem exists_apply_remove_archiveShelf :
    (∃ changes arrayFilters after changed,
      archiveAuthor.detach "shelves" "rows.books.author"
          (.single "rows.books.author" (.oneOf [.string "p"])) [.string "p"] =
        .ok (.update "shelves" (.single "rows.books.author" (.oneOf [.string "p"])) changes
          arrayFilters) ∧
      Update.apply changes arrayFilters archiveShelf = .ok (after, changed) ∧
      ({ keys := [.string "p"], outer := archiveAuthor.path, inner := [] } : Cut).apply
        archiveShelf.content = some after.content) ∧
    ∃ changes arrayFilters after changed,
      archiveEditor.detach "shelves" "rows.books.editor"
          (.single "rows.books.editor" (.oneOf [.string "p"])) [.string "p"] =
        .ok (.update "shelves" (.single "rows.books.editor" (.oneOf [.string "p"])) changes
          arrayFilters) ∧
      Update.apply changes arrayFilters archiveShelf = .ok (after, changed) ∧
      ∃ outer inner, archiveEditor.path = outer ++ wildcard :: inner ∧ wildcard ∉ inner ∧
        ({ keys := [.string "p"], outer := outer ++ [wildcard], inner } : Cut).apply
          archiveShelf.content = some after.content := by
  constructor
  · obtain ⟨changes, arrayFilters, after, changed, hdetach, happly, -, hunset, -⟩ :=
      exists_apply_remove (archiveSchema.build_graph rfl)
        (show (archiveSchema.graph.links "shelves").foreignKeys.get? "rows.books.author" =
          some archiveAuthor by decide) (.inl rfl) (by decide) (by decide)
        (show archiveShelf.fits archiveAuthor.path by decide)
        ((Filter.accepts_oneOf (by decide) _ [.string "p"]).trans (congrArg _ (by decide)))
    exact ⟨changes, arrayFilters, after, changed, hdetach, happly, hunset rfl⟩
  · obtain ⟨changes, arrayFilters, after, changed, hdetach, happly, -, -, hpull⟩ :=
      exists_apply_remove (archiveSchema.build_graph rfl)
        (show (archiveSchema.graph.links "shelves").foreignKeys.get? "rows.books.editor" =
          some archiveEditor by decide) (.inr rfl) (by decide) (by decide)
        (show archiveShelf.fits archiveEditor.path by decide)
        ((Filter.accepts_oneOf (by decide) _ [.string "p"]).trans (congrArg _ (by decide)))
    exact ⟨changes, arrayFilters, after, changed, hdetach, happly, hpull rfl⟩

end ForeignKey

end LinkedDocs
