import LinkedDocs.Filter

namespace LinkedDocs

/-- One spelling for all numbers with the same value. -/
def Number.plain (number : Number) : Number :=
  .double ⟨number.toDouble.multiple < 0, number.toDouble.multiple.natAbs⟩

theorem Number.sameValue_iff {left right : Number} :
    left.sameValue right ↔ left.plain = right.plain := by
  simp only [sameValue, Double.sameValue, beq_iff_eq, plain, Number.double.injEq, Double.mk.injEq,
    decide_eq_decide]
  omega

namespace Json

mutual

/-- The value with one spelling for its numbers. -/
def plain (value : Json) : Json :=
  match value with
  | .null => .null
  | .bool flag => .bool flag
  | .number value => .number value.plain
  | .string text => .string text
  | .array items => .array (plainItems items)
  | .object fields => .object (plainFields fields)
termination_by structural value

def plainItems (items : List Json) : List Json :=
  match items with
  | [] => []
  | item :: rest => plain item :: plainItems rest
termination_by structural items

def plainFields (fields : List (String × Json)) : List (String × Json) :=
  match fields with
  | [] => []
  | (name, value) :: rest => (name, plain value) :: plainFields rest
termination_by structural fields

end

mutual

theorem sameValue_iff {left right : Json} : left.sameValue right ↔ left.plain = right.plain := by
  cases left with
  | null => cases right <;> simp [sameValue, plain]
  | bool flag => cases right <;> simp [sameValue, plain]
  | string text => cases right <;> simp [sameValue, plain]
  | number value => cases right <;> simp [sameValue, plain, Number.sameValue_iff]
  | array items =>
    cases right with
    | array others => rw [sameValue, plain, plain, sameItems_iff, Json.array.injEq]
    | _ => simp [sameValue, plain]
  | object fields =>
    cases right with
    | object others => rw [sameValue, plain, plain, sameFields_iff, Json.object.injEq]
    | _ => simp [sameValue, plain]
termination_by structural left

theorem sameItems_iff {left right : List Json} :
    sameItems left right ↔ plainItems left = plainItems right := by
  cases left with
  | nil => cases right <;> simp [sameItems, plainItems]
  | cons first left =>
    cases right with
    | nil => simp [sameItems, plainItems]
    | cons second right =>
      rw [sameItems, Bool.and_eq_true, sameValue_iff, sameItems_iff]
      simp [plainItems]
termination_by structural left

theorem sameFields_iff {left right : List (String × Json)} :
    sameFields left right ↔ plainFields left = plainFields right := by
  cases left with
  | nil => cases right <;> simp [sameFields, plainFields]
  | cons first left =>
    obtain ⟨name, value⟩ := first
    cases right with
    | nil => simp [sameFields, plainFields]
    | cons second right =>
      obtain ⟨other, otherValue⟩ := second
      rw [sameFields, Bool.and_eq_true, Bool.and_eq_true, sameValue_iff, sameFields_iff, beq_iff_eq]
      simp [plainFields]
termination_by structural left

end

theorem sameValue_refl (value : Json) : value.sameValue value :=
  sameValue_iff.2 rfl

theorem sameValue_symm {left right : Json} (h : left.sameValue right) : right.sameValue left :=
  sameValue_iff.2 (sameValue_iff.1 h).symm

theorem sameValue_comm (left right : Json) : left.sameValue right = right.sameValue left :=
  Bool.eq_iff_iff.2 ⟨sameValue_symm, sameValue_symm⟩

theorem sameValue_trans {left middle right : Json} (hleft : left.sameValue middle)
    (hright : middle.sameValue right) : left.sameValue right :=
  sameValue_iff.2 ((sameValue_iff.1 hleft).trans (sameValue_iff.1 hright))

theorem sameValue_congr_right {left right : Json} (h : left.sameValue right) (value : Json) :
    value.sameValue left = value.sameValue right :=
  Bool.eq_iff_iff.2 ⟨fun hleft => sameValue_trans hleft h,
    fun hright => sameValue_trans hright (sameValue_symm h)⟩

theorem isNull_congr {left right : Json} (h : left.sameValue right) : left.isNull = right.isNull := by
  cases left <;> cases right <;> first | rfl | simp [sameValue] at h

theorem holds_iff {values : List Json} {value : Json} :
    holds values value ↔ ∃ other ∈ values, other.sameValue value := by
  simp [holds]

theorem holds_of_mem {values : List Json} {value : Json} (h : value ∈ values) :
    holds values value :=
  holds_iff.2 ⟨value, h, sameValue_refl value⟩

theorem holds_congr {left right : Json} (h : left.sameValue right) (values : List Json) :
    holds values left = holds values right := by
  simp only [holds, sameValue_congr_right h]

theorem holds_mono {values others : List Json} (hsubset : values ⊆ others) {value : Json}
    (h : holds values value) : holds others value := by
  obtain ⟨other, hother, hsame⟩ := holds_iff.1 h
  exact holds_iff.2 ⟨other, hsubset hother, hsame⟩

end Json

end LinkedDocs
