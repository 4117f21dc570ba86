import LinkedDocs.Platform.Native
import LinkedDocs.Proofs.Filter.Reaching

/-!
The values of a foreign key and the filter query for one of them. A foreign key path goes on into
arrays that are elements of arrays, a filter query does not; so the query finds every document that
has the value, unless it stands in such an array.
-/

namespace LinkedDocs

namespace Json

/-- Whether no array at a wildcard of a path has arrays for elements. -/
def nestsNoArrays (value : Json) : List String → Bool
  | [] => true
  | segment :: rest =>
    if segment = wildcard then
      match value with
      | .array items => items.all fun item => !item.isArray && item.nestsNoArrays rest
      | _ => true
    else
      match value with
      | .object fields =>
        match lookupName segment fields with
        | some child => child.nestsNoArrays rest
        | none => true
      | _ => true

theorem nestsNoArrays_of_mem {items : List Json} {rest : List String}
    (h : (Json.array items).nestsNoArrays (wildcard :: rest)) {item : Json} (hmem : item ∈ items) :
    item.isArray = false ∧ item.nestsNoArrays rest := by
  have hitems : items.all fun item => !item.isArray && item.nestsNoArrays rest := h
  have hitem := List.all_eq_true.1 hitems item hmem
  simpa using hitem

theorem nestsNoArrays_of_lookupName {fields : List (String × Json)} {segment : String}
    {rest : List String} (h : (Json.object fields).nestsNoArrays (segment :: rest))
    (hsegment : segment ≠ wildcard) {child : Json}
    (hlookup : lookupName segment fields = some child) : child.nestsNoArrays rest := by
  rw [nestsNoArrays, if_neg hsegment] at h
  simpa only [hlookup] using h

theorem isNull_eq_false_of_mem_valuesAt {path : List String} {value key : Json}
    (h : key ∈ value.valuesAt path) : key.isNull = false := by
  induction path generalizing value with
  | nil =>
    cases value with
    | null => cases h
    | array items =>
      have hkey := (List.mem_filter.1 h).2
      simpa using hkey
    | _ =>
      rw [List.mem_singleton.1 h]
      rfl
  | cons segment rest ih =>
    unfold valuesAt at h
    split at h
    · split at h
      · obtain ⟨item, -, hitem⟩ := List.mem_flatMap.1 h
        exact ih hitem
      · cases h
    · split at h
      · split at h
        · exact ih h
        · cases h
      · cases h

end Json

namespace Filter

open Json

/-- A value at a path is among the candidates at its names. -/
theorem anyAmong_of_mem_valuesAt {path : List String} {value key : Json}
    (h : key ∈ value.valuesAt path) (hnests : value.nestsNoArrays path) :
    anyAmong (candidates (path.filter fun segment => segment ≠ wildcard) value) [key] := by
  have hnull := isNull_eq_false_of_mem_valuesAt h
  induction path generalizing value with
  | nil =>
    have hself := sameValue_refl key
    cases value with
    | null => cases h
    | array items =>
      have hmem : key ∈ items := (List.mem_filter.1 h).1
      have hany : items.any fun item => item.sameValue key :=
        List.any_eq_true.2 ⟨key, hmem, hself⟩
      simp [candidates, anyAmong, equalsTarget, hany]
    | _ =>
      rw [List.mem_singleton.1 h] at hself ⊢
      simp [candidates, anyAmong, equalsTarget, hself]
  | cons segment rest ih =>
    unfold valuesAt at h
    split at h
    case isTrue hsegment =>
      subst hsegment
      rw [List.filter_cons_of_neg (by simp)]
      split at h
      case h_2 => cases h
      case h_1 items =>
        obtain ⟨item, hmem, hitem⟩ := List.mem_flatMap.1 h
        obtain ⟨harray, hrest⟩ := nestsNoArrays_of_mem hnests hmem
        have hfound := ih hitem hrest
        -- a name that follows is read from an object, so only objects and last values count
        cases hnames : rest.filter fun segment => segment ≠ wildcard with
        | nil =>
          rw [hnames] at hfound
          have hsame : item.sameValue key := by
            simpa [candidates, anyAmong, equalsTarget_some harray] using hfound
          have hany : items.any fun item => item.sameValue key :=
            List.any_eq_true.2 ⟨item, hmem, hsame⟩
          simp [candidates, anyAmong, equalsTarget, hany]
        | cons name names =>
          rw [hnames] at hfound
          cases item with
          | object fields => exact anyAmong_candidates_array hmem hfound
          | array => cases harray
          | _ => simp [candidates, anyAmong, equalsTarget, hnull] at hfound
    case isFalse hsegment =>
      rw [List.filter_cons_of_pos (by simpa using hsegment)]
      split at h
      case h_2 => cases h
      case h_1 fields =>
        split at h
        case h_2 => cases h
        case h_1 child hlookup =>
          simp only [candidates, hlookup]
          exact ih h (nestsNoArrays_of_lookupName hnests hsegment hlookup)

section

variable [Platform]

/-- The filter query for a value of a foreign key finds each document that has the value there,
unless an array at a wildcard of the path has arrays for elements. -/
theorem accepts_of_mem_valuesAt {path : String}
    (hpath : Identifier.checkForeignKeyPath path = .ok ()) {document key : Json}
    (hkey : key ∈ document.valuesAt (splitPath path))
    (hnests : document.nestsNoArrays (splitPath path)) :
    accepts document (.single (pathKey (splitPath path)) (.oneOf [key])) = .ok true := by
  have hpolicy : Schema.checkPolicy "" (pathKey (splitPath path)) (splitPath path) .bypass = .ok () :=
    rfl
  have hcompiled : (ForeignKey.ofDeclaration "" path {}).Compiled (pathKey (splitPath path)) :=
    .ofDeclaration hpath hpolicy
  have hnames : splitPath (pathKey (splitPath path)) =
      (splitPath path).filter fun segment => segment ≠ wildcard := hcompiled.splitPath_name
  have hany := anyAmong_of_mem_valuesAt hkey hnests
  rw [accepts_oneOf hcompiled.isMarked_eq_false, lookup, hnames, hany]

end

/-- A row in which a book stands in an array of its own. -/
def stackedShelf : Json :=
  .object [("books", .array [.array [.string "b"]])]

/-- A value in an array of an array belongs to the foreign key, but its query does not find it. -/
theorem not_accepts_stackedShelf :
    Identifier.checkForeignKeyPath "books.$" = .ok () ∧
    Json.string "b" ∈ stackedShelf.valuesAt (splitPath "books.$") ∧
    accepts stackedShelf (.single (pathKey (splitPath "books.$")) (.oneOf [.string "b"])) =
      .ok false := by
  refine ⟨by decide, List.mem_singleton_self _, rfl⟩

def rowedShelf : Json :=
  .object [("rows", .array [.object [("books", .array [.string "a", .string "b"])], .null])]

/-- A book in a row of a shelf is found. -/
theorem accepts_rowedShelf :
    Json.string "b" ∈ rowedShelf.valuesAt (splitPath "rows.$.books.$") ∧
    rowedShelf.nestsNoArrays (splitPath "rows.$.books.$") ∧
    accepts rowedShelf (.single (pathKey (splitPath "rows.$.books.$")) (.oneOf [.string "b"])) =
      .ok true := by
  have hkey : Json.string "b" ∈ rowedShelf.valuesAt (splitPath "rows.$.books.$") :=
    List.mem_cons_of_mem _ (List.mem_singleton_self _)
  have hnests : rowedShelf.nestsNoArrays (splitPath "rows.$.books.$") := by decide
  exact ⟨hkey, hnests, accepts_of_mem_valuesAt rfl hkey hnests⟩

end Filter

end LinkedDocs
