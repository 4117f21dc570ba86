import LinkedDocs.Platform.Native
import LinkedDocs.Proofs.Filter.Reaching
import LinkedDocs.Proofs.Number.Rounding

/-!
Filter queries for integer keys. Integers are compared as doubles, so a query for one finds every
document whose integer has the same nearest double: the same integer, and beyond `2 ^ 53` in
magnitude also integers that are no doubles themselves.
-/

namespace LinkedDocs.Filter

open Json Double

section

variable [Platform]

/-- The query for an integer compares the doubles of two integers. -/
theorem accepts_oneOf_int_eq {path : String}
    (hnames : ∀ segment ∈ splitPath path, Identifier.isValid segment) {document : Json}
    {held : Int} (hheld : document.getPath? path = some (.int held)) (sought : Int) :
    accepts document (.single path (.oneOf [.int sought])) =
      .ok ((ofInt sought).sameValue (ofInt held)) := by
  rw [getPath?_eq_follow? hnames] at hheld
  rw [accepts_oneOf (Identifier.isMarked_of_splitPath hnames), lookup,
    candidates_of_follow? hnames hheld, anyAmong_of_isScalar rfl]
  simp only [holds, List.any_cons, List.any_nil, Bool.or_false]
  rfl

/-- The query for an integer at a path of names can be evaluated on every document that has an
integer there. It holds if one double is the nearest to both; so it tells integers that are doubles
apart, and an integer below `2 ^ 53` in magnitude from every other. -/
theorem accepts_oneOf_int {path : String}
    (hnames : ∀ segment ∈ splitPath path, Identifier.isValid segment) {document : Json}
    {held : Int} (hheld : document.getPath? path = some (.int held)) (sought : Int) :
    ∃ verdict, accepts document (.single path (.oneOf [.int sought])) = .ok verdict ∧
      (verdict ↔ ∃ kept, IsNearest held kept ∧ IsNearest sought kept) ∧
      (IsExact held → IsExact sought → (verdict ↔ held = sought)) ∧
      (held.natAbs < 2 ^ 53 ∨ sought.natAbs < 2 ^ 53 → (verdict ↔ held = sought)) := by
  have hverdict : (ofInt sought).sameValue (ofInt held) ↔
      ∃ kept, IsNearest held kept ∧ IsNearest sought kept := by
    rw [sameValue_ofInt_iff]
    exact exists_congr fun kept => and_comm
  have hsame (h : held = sought) : ∃ kept, IsNearest held kept ∧ IsNearest sought kept :=
    ⟨nearestInt held, isNearest_nearestInt held, h ▸ isNearest_nearestInt held⟩
  refine ⟨_, accepts_oneOf_int_eq hnames hheld sought, hverdict, fun hexact hsoughtExact => ?_,
    fun hsmall => ?_⟩
  · rw [hverdict]
    refine ⟨?_, hsame⟩
    rintro ⟨kept, hkept, hsought⟩
    exact eq_of_isNearest hexact hsoughtExact hkept hsought
  · rw [hverdict]
    refine ⟨?_, hsame⟩
    rintro ⟨kept, hkept, hsought⟩
    rcases hsmall with hsmall | hsmall
    · have heq := (isExact_of_natAbs_le hsmall.le).isNearest.unique hkept
      subst heq
      exact (eq_of_isNearest_of_natAbs_lt hsmall hsought).symm
    · have heq := (isExact_of_natAbs_le hsmall.le).isNearest.unique hsought
      subst heq
      exact eq_of_isNearest_of_natAbs_lt hsmall hkept

end

def numberedItem (number : Int) : Json :=
  .object [("item", .object [("name", .string "lamp"), ("number", .int number)])]

/-- A query for the first integer that is no double does not find the last one below `2 ^ 53`. -/
theorem accepts_oneOf_int_numberedItem :
    (∀ segment ∈ splitPath "item.number", Identifier.isValid segment) ∧
    (numberedItem 9007199254740991).getPath? "item.number" = some (.int 9007199254740991) ∧
    accepts (numberedItem 9007199254740991)
      (.single "item.number" (.oneOf [.int 9007199254740993])) = .ok false := by
  have hnames : ∀ segment ∈ splitPath "item.number", Identifier.isValid segment := by decide
  have hheld : (numberedItem 9007199254740991).getPath? "item.number" =
      some (.int 9007199254740991) := rfl
  obtain ⟨verdict, haccepts, -, -, hsmall⟩ := accepts_oneOf_int hnames hheld 9007199254740993
  have hverdict : verdict = false :=
    Bool.eq_false_iff.2 fun h => absurd ((hsmall (.inl (by decide))).1 h) (by decide)
  exact ⟨hnames, hheld, hverdict ▸ haccepts⟩

/-- It finds the item with the integer before it, which is the double nearest to both. -/
theorem accepts_oneOf_int_neighbour :
    (∀ segment ∈ splitPath "item.number", Identifier.isValid segment) ∧
    (numberedItem 9007199254740992).getPath? "item.number" = some (.int 9007199254740992) ∧
    accepts (numberedItem 9007199254740992)
      (.single "item.number" (.oneOf [.int 9007199254740993])) = .ok true ∧
    (9007199254740992 : Int) ≠ 9007199254740993 :=
  ⟨by decide, rfl, (accepts_oneOf_int_eq (by decide) rfl _).trans (congrArg _ (by decide +kernel)),
    by decide⟩

end LinkedDocs.Filter
