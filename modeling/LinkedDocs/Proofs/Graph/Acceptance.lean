import LinkedDocs.Graph
import LinkedDocs.Proofs.NameMap
import LinkedDocs.Proofs.Outcome
import LinkedDocs.Proofs.Path

namespace LinkedDocs

namespace Identifier

/-- A letter, an underscore or a hyphen, and then any of these and digits. -/
def WellSpelled (name : String) : Prop :=
  ∃ first rest, name.toList = first :: rest ∧
    (first.isAlpha ∨ first = '_' ∨ first = '-') ∧
    ∀ character ∈ rest, character.isAlphanum ∨ character = '_' ∨ character = '-'

theorem isValid_iff_wellSpelled {name : String} : isValid name ↔ WellSpelled name := by
  rw [isValid_iff, WellSpelled]
  simp only [isStart, isPart, Bool.or_eq_true, beq_iff_eq, List.all_eq_true, or_assoc]

theorem check_eq_ok_iff {name : String} : check name = .ok () ↔ WellSpelled name := by
  rw [← isValid_iff_wellSpelled, isValid]
  cases check name <;> simp

theorem WellSpelled.dot_notMem {name : String} (h : WellSpelled name) : '.' ∉ name.toList :=
  Identifier.dot_notMem (isValid_iff_wellSpelled.2 h)

/-- Identifiers joined by dots. -/
def IsKeyPath (path : String) : Prop :=
  ∃ segments, segments ≠ [] ∧ (∀ segment ∈ segments, WellSpelled segment) ∧
    path = joinPath segments

/-- An identifier, and then identifiers and wildcards, joined by dots. -/
def IsForeignKeyPath (path : String) : Prop :=
  ∃ first rest, WellSpelled first ∧ (∀ segment ∈ rest, segment = wildcard ∨ WellSpelled segment) ∧
    path = joinPath (first :: rest)

theorem isKeyPath_iff {path : String} :
    IsKeyPath path ↔ ∀ segment ∈ splitPath path, WellSpelled segment := by
  constructor
  · rintro ⟨segments, hne, hsegments, rfl⟩
    rwa [splitPath_joinPath hne fun segment hsegment => (hsegments segment hsegment).dot_notMem]
  · intro h
    exact ⟨splitPath path, splitPath_ne_nil path, h, (joinPath_splitPath path).symm⟩

theorem checkKeyPath_eq_ok_iff {path : String} : checkKeyPath path = .ok () ↔ IsKeyPath path := by
  rw [isKeyPath_iff, checkKeyPath]
  simp [isValid_iff_wellSpelled]

theorem isForeignKeyPath_iff {path : String} :
    IsForeignKeyPath path ↔ ∃ first rest, splitPath path = first :: rest ∧ WellSpelled first ∧
      ∀ segment ∈ rest, segment = wildcard ∨ WellSpelled segment := by
  constructor
  · rintro ⟨first, rest, hfirst, hrest, rfl⟩
    refine ⟨first, rest, splitPath_joinPath (List.cons_ne_nil _ _) ?_, hfirst, hrest⟩
    refine List.forall_mem_cons.2 ⟨hfirst.dot_notMem, fun segment hsegment => ?_⟩
    rcases hrest segment hsegment with rfl | hspelled
    · decide
    · exact hspelled.dot_notMem
  · rintro ⟨first, rest, hsplit, hfirst, hrest⟩
    exact ⟨first, rest, hfirst, hrest, by rw [← hsplit, joinPath_splitPath]⟩

theorem checkForeignKeyPath_eq_ok_iff {path : String} :
    checkForeignKeyPath path = .ok () ↔ IsForeignKeyPath path := by
  rw [isForeignKeyPath_iff, checkForeignKeyPath]
  cases splitPath path with
  | nil => simp
  | cons first rest =>
    by_cases hfirst : isValid first <;>
      simp [hfirst, ← isValid_iff_wellSpelled, or_iff_not_imp_left]

end Identifier

/-- The declaration of a foreign key at a path that suits its delete policy. -/
structure ForeignKeyDeclaration.Acceptable (declared : ForeignKeyDeclaration) (path : String) :
    Prop where
  isForeignKeyPath : Identifier.IsForeignKeyPath path
  target : ∀ target, declared.collection = some target → Identifier.WellSpelled target
  wildcard_mem : declared.onDelete = some .pull → wildcard ∈ splitPath path
  getLast?_ne : declared.onDelete = some .unset ∨ declared.onDelete = some .nullify →
    (splitPath path).getLast? ≠ some wildcard

/-- The declaration of a collection whose foreign keys have different canonical keys. -/
structure CollectionDeclaration.Acceptable (declaration : CollectionDeclaration) (name : String) :
    Prop where
  wellSpelled : Identifier.WellSpelled name
  key : ∀ key, declaration.key = some key → Identifier.IsKeyPath key
  foreignKeys : ∀ path declared, declaration.foreignKeys.get? path = some declared →
    declared.Acceptable path
  distinct : ∀ path ∈ declaration.foreignKeys.keys, ∀ other ∈ declaration.foreignKeys.keys,
    pathKey (splitPath path) = pathKey (splitPath other) → path = other

/-- The canonical keys tell the paths of a collection apart when none of them is repeated. -/
theorem CollectionDeclaration.nodup_names_iff {declaration : CollectionDeclaration} :
    (declaration.foreignKeys.entries.map fun entry => pathKey (splitPath entry.1)).Nodup ↔
      ∀ path ∈ declaration.foreignKeys.keys, ∀ other ∈ declaration.foreignKeys.keys,
        pathKey (splitPath path) = pathKey (splitPath other) → path = other := by
  rw [← List.nodup_map_iff_inj_on declaration.foreignKeys.nodup_keys, NameMap.keys, List.map_map]
  rfl

namespace Schema

def Acceptable (schema : Schema) : Prop :=
  ∀ name declaration, schema.get? name = some declaration → declaration.Acceptable name

theorem check_bind_eq_ok_iff {ε α : Type} {check : Except ε Unit} {next : Unit → Except ε α}
    {result : α} : (check >>= next) = .ok result ↔ check = .ok () ∧ next () = .ok result := by
  cases check <;> simp

theorem forM_eq_ok_iff {ε α : Type} {items : List α} {check : α → Except ε Unit} :
    items.forM check = .ok () ↔ ∀ item ∈ items, check item = .ok () := by
  induction items with
  | nil => exact iff_of_true rfl fun _ hmem => absurd hmem List.not_mem_nil
  | cons first rest ih =>
    change (check first >>= fun _ => rest.forM check) = .ok () ↔ _
    rw [check_bind_eq_ok_iff, ih, List.forall_mem_cons]

theorem checkPolicy_eq_ok_iff {collection foreignKey : String} {path : List String}
    {policy : DeletePolicy} :
    checkPolicy collection foreignKey path policy = .ok () ↔
      (policy = .pull → wildcard ∈ path) ∧
      (policy = .unset ∨ policy = .nullify → path.getLast? ≠ some wildcard) := by
  unfold checkPolicy
  cases policy <;> simp

/-- A declaration is acceptable at a path when it passes the checks but for the one on its
canonical key. -/
theorem acceptable_iff_checks (collection foreignKey : String) {path : String}
    {declared : ForeignKeyDeclaration} :
    declared.Acceptable path ↔ Identifier.checkForeignKeyPath path = .ok () ∧
      (∀ target, declared.collection = some target → Identifier.check target = .ok ()) ∧
      checkPolicy collection foreignKey (splitPath path) (declared.onDelete.getD .bypass) =
        .ok () := by
  have hpolicy : checkPolicy collection foreignKey (splitPath path)
      (declared.onDelete.getD .bypass) = .ok () ↔
      (declared.onDelete = some .pull → wildcard ∈ splitPath path) ∧
      (declared.onDelete = some .unset ∨ declared.onDelete = some .nullify →
        (splitPath path).getLast? ≠ some wildcard) := by
    rw [checkPolicy_eq_ok_iff]
    cases declared.onDelete <;> simp
  simp only [Identifier.checkForeignKeyPath_eq_ok_iff, Identifier.check_eq_ok_iff, hpolicy]
  exact ⟨fun h => ⟨h.1, h.2, h.3, h.4⟩, fun ⟨hpath, htarget, hpull, hset⟩ =>
    ⟨hpath, htarget, hpull, hset⟩⟩

theorem checkForeignKeys_cons_eq_ok_iff {collection path : String}
    {earlier : List (String × String)} {declared : ForeignKeyDeclaration}
    {rest : List (String × ForeignKeyDeclaration)} :
    checkForeignKeys collection earlier ((path, declared) :: rest) = .ok () ↔
      declared.Acceptable path ∧ pathKey (splitPath path) ∉ earlier.map Prod.fst ∧
        checkForeignKeys collection ((pathKey (splitPath path), path) :: earlier) rest =
          .ok () := by
  rw [acceptable_iff_checks collection (pathKey (splitPath path)),
    ← NameMap.lookupName_eq_none_iff, checkForeignKeys]
  dsimp only
  cases declared.collection <;> cases lookupName (pathKey (splitPath path)) earlier <;>
    simp [check_bind_eq_ok_iff, checkName, mapError_eq_ok_iff, and_assoc, throw, throwThe,
      MonadExceptOf.throw]

/-- The entries after some earlier ones, whose canonical keys are taken, pass the checks when each
of them is acceptable and all canonical keys differ. -/
theorem checkForeignKeys_eq_ok_iff {collection : String} {earlier : List (String × String)}
    {entries : List (String × ForeignKeyDeclaration)} :
    checkForeignKeys collection earlier entries = .ok () ↔
      (∀ entry ∈ entries, entry.2.Acceptable entry.1) ∧
      (entries.map fun entry => pathKey (splitPath entry.1)).Nodup ∧
      ∀ entry ∈ entries, pathKey (splitPath entry.1) ∉ earlier.map Prod.fst := by
  induction entries generalizing earlier with
  | nil => simp [checkForeignKeys]
  | cons entry rest ih =>
    obtain ⟨path, declared⟩ := entry
    have hfresh : (∀ entry ∈ rest, pathKey (splitPath entry.1) ∉
          ((pathKey (splitPath path), path) :: earlier).map Prod.fst) ↔
        pathKey (splitPath path) ∉ (rest.map fun entry => pathKey (splitPath entry.1)) ∧
        ∀ entry ∈ rest, pathKey (splitPath entry.1) ∉ earlier.map Prod.fst := by
      simp only [List.map_cons, List.mem_cons, not_or, List.mem_map, not_exists, not_and]
      exact forall₂_and
    rw [checkForeignKeys_cons_eq_ok_iff, ih, hfresh, List.forall_mem_cons, List.forall_mem_cons,
      List.map_cons, List.nodup_cons]
    tauto

theorem checkCollection_eq_ok_iff {name : String} {declaration : CollectionDeclaration} :
    checkCollection name declaration = .ok () ↔ declaration.Acceptable name := by
  have hchecks : checkCollection name declaration = .ok () ↔ Identifier.WellSpelled name ∧
      (∀ key, declaration.key = some key → Identifier.IsKeyPath key) ∧
      checkForeignKeys name [] declaration.foreignKeys.entries = .ok () := by
    rw [checkCollection]
    cases declaration.key <;>
      simp [check_bind_eq_ok_iff, checkName, mapError_eq_ok_iff, Identifier.check_eq_ok_iff,
        Identifier.checkKeyPath_eq_ok_iff]
  rw [hchecks, checkForeignKeys_eq_ok_iff, CollectionDeclaration.nodup_names_iff]
  constructor
  · rintro ⟨hname, hkey, hforeign, hdistinct, -⟩
    exact ⟨hname, hkey, fun path declared hget =>
      hforeign (path, declared) (NameMap.mem_entries_iff.2 hget), hdistinct⟩
  · intro h
    exact ⟨h.wellSpelled, h.key,
      fun entry hentry => h.foreignKeys _ _ (NameMap.mem_entries_iff.1 hentry),
      h.distinct, fun _ _ => List.not_mem_nil⟩

theorem check_eq_ok_iff {schema : Schema} : schema.check = .ok () ↔ schema.Acceptable := by
  rw [check, forM_eq_ok_iff]
  constructor
  · exact fun h name declaration hget =>
      checkCollection_eq_ok_iff.1 (h (name, declaration) (NameMap.mem_entries_iff.2 hget))
  · exact fun h entry hentry =>
      checkCollection_eq_ok_iff.2 (h _ _ (NameMap.mem_entries_iff.1 hentry))

end Schema

namespace Graph

theorem build_eq_ok_iff {schema : Schema} {graph : Graph} :
    build schema = .ok graph ↔ schema.check = .ok () ∧ graph = schema.graph := by
  rw [build, Schema.check_bind_eq_ok_iff]
  refine and_congr_right fun _ => ⟨fun h => ?_, fun h => ?_⟩
  · cases h
    rfl
  · rw [h]
    rfl

theorem exists_build_iff {schema : Schema} :
    (∃ graph, build schema = .ok graph) ↔ schema.Acceptable := by
  simp only [build_eq_ok_iff, Schema.check_eq_ok_iff]
  exact ⟨fun ⟨_, h, _⟩ => h, fun h => ⟨_, h, rfl⟩⟩

end Graph

theorem Schema.build_graph (schema : Schema) (h : schema.check = .ok ()) :
    Graph.build schema = .ok schema.graph :=
  Graph.build_eq_ok_iff.2 ⟨h, rfl⟩

end LinkedDocs
