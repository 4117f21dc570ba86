import LinkedDocs.Json.Reader
import LinkedDocs.Json.Text

namespace LinkedDocs.Json

theorem hexValue?_hexDigit : ∀ value < 16, hexValue? (hexDigit value) = some value := by
  decide

theorem readUnit?_of_lt {value : Nat} (h : value < 0x20) (rest : List Char) :
    readUnit? ('0' :: '0' :: hexDigit (value / 16) :: hexDigit (value % 16) :: rest) =
      some (Char.ofNat value, rest) := by
  have hzero : hexValue? '0' = some 0 := by decide
  have hhex : readHex? ('0' :: '0' :: hexDigit (value / 16) :: hexDigit (value % 16) :: rest) =
      some (value, rest) := by
    simp only [readHex?, hzero, hexValue?_hexDigit (value / 16) (by omega),
      hexValue?_hexDigit (value % 16) (by omega), Option.bind_eq_bind, Option.bind_some,
      Option.pure_def, Option.some.injEq, Prod.mk.injEq, and_true]
    omega
  simp only [readUnit?, hhex, Option.bind_eq_bind, Option.bind_some]
  rw [if_neg (by omega), if_neg (by omega)]

section

variable {character escaped : Char} {rest after : List Char}

theorem readString?_unit (h : readUnit? rest = some (character, after)) (fuel : Nat) :
    readString? (fuel + 1) ('\\' :: 'u' :: rest) =
      (readString? fuel after).map fun read => (character :: read.1, read.2) := by
  calc readString? (fuel + 1) ('\\' :: 'u' :: rest)
      = (readUnit? rest).bind fun unit => (readString? fuel unit.2).bind fun read =>
          some (unit.1 :: read.1, read.2) := rfl
    _ = (readString? fuel after).bind fun read => some (character :: read.1, read.2) := by
          rw [h, Option.bind_some]
    _ = _ := by cases readString? fuel after <;> rfl

theorem readString?_simpleEscape (hescaped : escaped ≠ 'u')
    (h : simpleEscape? escaped = some character) (fuel : Nat) (rest : List Char) :
    readString? (fuel + 1) ('\\' :: escaped :: rest) =
      (readString? fuel rest).map fun read => (character :: read.1, read.2) := by
  rw [readString?, if_neg (by decide), if_pos rfl]
  · simp only [h, Option.bind_eq_bind, Option.bind_some]
    cases readString? fuel rest <;> rfl
  · exact hescaped

theorem readString?_plain (hquote : character ≠ '"') (hescape : character ≠ '\\')
    (hcontrol : ¬character.toNat < 0x20) (fuel : Nat) (rest : List Char) :
    readString? (fuel + 1) (character :: rest) =
      (readString? fuel rest).map fun read => (character :: read.1, read.2) := by
  have hread : (readString? fuel rest).bind (fun read => some (character :: read.1, read.2)) =
      (readString? fuel rest).map fun read => (character :: read.1, read.2) := by
    cases readString? fuel rest <;> rfl
  exact ((if_neg hquote).trans ((if_neg hescape).trans (if_neg hcontrol))).trans hread

end

/-- A character of a string is read back from what is written for it. -/
theorem readString?_escape (character : Char) (fuel : Nat) (rest : List Char) :
    readString? (fuel + 1) (escape character ++ rest) =
      (readString? fuel rest).map fun read => (character :: read.1, read.2) := by
  unfold escape
  split
  case h_8 hquote hescape _ _ _ _ _ =>
    split
    case isTrue hcontrol =>
      have hunit := readUnit?_of_lt hcontrol rest
      rw [Char.ofNat_toNat] at hunit
      exact readString?_unit hunit fuel
    case isFalse hcontrol => exact readString?_plain hquote hescape hcontrol fuel rest
  all_goals exact readString?_simpleEscape (by decide) rfl fuel rest

theorem readString?_flatMap_escape (text rest : List Char) {fuel : Nat} (hfuel : text.length < fuel) :
    readString? fuel (text.flatMap escape ++ '"' :: rest) = some (text, rest) := by
  induction text generalizing fuel with
  | nil =>
    cases fuel with
    | zero => cases hfuel
    | succ fuel => rfl
  | cons character text ih =>
    cases fuel with
    | zero => cases hfuel
    | succ fuel =>
      rw [List.flatMap_cons, List.append_assoc, readString?_escape, ih (Nat.lt_of_succ_lt_succ hfuel)]
      rfl

theorem length_le_length_flatMap_escape (text : List Char) :
    text.length ≤ (text.flatMap escape).length := by
  induction text with
  | nil => exact Nat.le_refl _
  | cons character text ih =>
    have hescape : 0 < (escape character).length := by
      unfold escape
      split
      case h_8 => split <;> exact Nat.succ_pos _
      all_goals exact Nat.succ_pos _
    rw [List.flatMap_cons, List.length_append, List.length_cons]
    omega

theorem quote_append (text : String) (rest : List Char) :
    quote text ++ rest = '"' :: (text.toList.flatMap escape ++ '"' :: rest) := by
  simp [quote]

/-- A string is read back from what stands behind its first quote. -/
theorem readString?_quote (text : String) (rest : List Char) {fuel : Nat}
    (hfuel : (quote text).length ≤ fuel + 1) :
    readString? fuel (text.toList.flatMap escape ++ '"' :: rest) = some (text.toList, rest) := by
  refine readString?_flatMap_escape _ _ ?_
  have hlength := length_le_length_flatMap_escape text.toList
  simp only [quote, List.length_append, List.length_cons, List.length_nil] at hfuel
  omega

/-- The values without numbers and repeated fields whose arrays and objects are nested no deeper
than a limit. -/
inductive Nests : Nat → Json → Prop
  | null (limit : Nat) : Nests limit .null
  | bool (limit : Nat) (flag : Bool) : Nests limit (.bool flag)
  | string (limit : Nat) (text : String) : Nests limit (.string text)
  | array {limit : Nat} {items : List Json} (h : ∀ item ∈ items, Nests limit item) :
    Nests (limit + 1) (.array items)
  | object {limit : Nat} {fields : List (String × Json)} (hnames : (fields.map Prod.fst).Nodup)
      (h : ∀ field ∈ fields, Nests limit field.2) : Nests (limit + 1) (.object fields)

theorem skipSpace_cons (character : Char) (h : isSpace character = false) (rest : List Char) :
    skipSpace (character :: rest) = character :: rest := by
  rw [skipSpace, List.dropWhile_cons_of_neg (by rw [h]; exact Bool.false_ne_true)]

/-- The text of a value begins neither with a space nor with a closing bracket. -/
theorem Nests.exists_toChars {limit : Nat} {value : Json} (h : Nests limit value) :
    ∃ first rest, value.toChars = first :: rest ∧ isSpace first = false ∧ first ≠ ']' := by
  cases h with
  | null => exact ⟨_, _, rfl, by decide, by decide⟩
  | bool _ flag => cases flag <;> exact ⟨_, _, rfl, by decide, by decide⟩
  | string => exact ⟨_, _, rfl, by decide, by decide⟩
  | array => exact ⟨_, _, rfl, by decide, by decide⟩
  | object => exact ⟨_, _, rfl, by decide, by decide⟩

theorem exists_itemChars {limit : Nat} {items : List Json} (hne : items ≠ [])
    (h : ∀ item ∈ items, Nests limit item) :
    ∃ first rest, itemChars true items = first :: rest ∧ isSpace first = false ∧ first ≠ ']' := by
  cases items with
  | nil => exact absurd rfl hne
  | cons item others =>
    obtain ⟨first, rest, hchars, hfirst⟩ := (h item List.mem_cons_self).exists_toChars
    exact ⟨first, rest ++ itemChars false others, by simp [itemChars, hchars], hfirst⟩

theorem exists_fieldChars {fields : List (String × Json)} (hne : fields ≠ []) :
    ∃ rest, fieldChars true fields = '"' :: rest := by
  cases fields with
  | nil => exact absurd rfl hne
  | cons field others => exact ⟨_, rfl⟩

/-- What it takes to read a value back: fuel for each character of its text. -/
def ReadsBack (depth : Nat) (value : Json) : Prop :=
  ∀ fuel rest, value.toChars.length ≤ fuel →
    readValue? fuel depth (value.toChars ++ rest) = some (value, rest)

theorem itemChars_false {items : List Json} (h : items ≠ []) :
    itemChars false items = ',' :: itemChars true items := by
  cases items with
  | nil => exact absurd rfl h
  | cons item rest => rfl

theorem fieldChars_false {fields : List (String × Json)} (h : fields ≠ []) :
    fieldChars false fields = ',' :: fieldChars true fields := by
  cases fields with
  | nil => exact absurd rfl h
  | cons field rest => rfl

theorem toChars_array (items : List Json) :
    (array items).toChars = '[' :: (itemChars true items ++ [']']) := rfl

theorem toChars_object (fields : List (String × Json)) :
    (object fields).toChars = '{' :: (fieldChars true fields ++ ['}']) := rfl

theorem itemChars_cons (item : Json) (items : List Json) :
    itemChars true (item :: items) = item.toChars ++ itemChars false items := rfl

theorem fieldChars_cons (name : String) (value : Json) (fields : List (String × Json)) :
    fieldChars true ((name, value) :: fields) =
      quote name ++ ':' :: (value.toChars ++ fieldChars false fields) := by
  simp [fieldChars]

theorem readValue?_bracket (fuel depth : Nat) (text : List Char) :
    readValue? (fuel + 1) depth ('[' :: text) =
      if depth ≤ 1 then none
      else
        match skipSpace text with
        | ']' :: rest => some (.array [], rest)
        | rest => (readItems? fuel (depth - 1) rest).map fun (items, rest) => (.array items, rest) :=
  rfl

theorem readValue?_brace (fuel depth : Nat) (text : List Char) :
    readValue? (fuel + 1) depth ('{' :: text) =
      if depth ≤ 1 then none
      else
        match skipSpace text with
        | '}' :: rest => some (.object [], rest)
        | rest =>
          (readFields? fuel (depth - 1) rest).map fun (fields, rest) => (.object fields, rest) :=
  rfl

theorem readValue?_quoted (fuel depth : Nat) (text : List Char) :
    readValue? (fuel + 1) depth ('"' :: text) =
      (readString? fuel text).map fun (characters, rest) =>
        (.string (String.ofList characters), rest) :=
  rfl

theorem readItems?_itemChars {depth : Nat} {items : List Json} (hne : items ≠ [])
    (hitems : ∀ item ∈ items, ReadsBack depth item) {fuel : Nat} (rest : List Char)
    (hfuel : (itemChars true items).length < fuel) :
    readItems? fuel depth (itemChars true items ++ ']' :: rest) = some (items, rest) := by
  induction items generalizing fuel with
  | nil => exact absurd rfl hne
  | cons item others ih =>
    obtain ⟨hitem, hothers⟩ := List.forall_mem_cons.1 hitems
    cases fuel with
    | zero => cases hfuel
    | succ fuel =>
      rw [itemChars_cons, List.length_append] at hfuel
      rw [itemChars_cons, List.append_assoc, readItems?, hitem fuel _ (by omega)]
      by_cases hnil : others = []
      · subst hnil
        rfl
      · rw [itemChars_false hnil] at hfuel ⊢
        rw [List.length_cons] at hfuel
        have hrest : readItems? fuel depth (itemChars true others ++ ']' :: rest) =
            some (others, rest) := ih hnil hothers (by omega)
        simp only [Option.bind_eq_bind, Option.bind_some, List.cons_append,
          skipSpace_cons ',' (by decide), hrest]
        rfl

theorem readFields?_fieldChars {depth : Nat} {fields : List (String × Json)} (hne : fields ≠ [])
    (hfields : ∀ field ∈ fields, ReadsBack depth field.2) {fuel : Nat} (rest : List Char)
    (hfuel : (fieldChars true fields).length < fuel) :
    readFields? fuel depth (fieldChars true fields ++ '}' :: rest) = some (fields, rest) := by
  induction fields generalizing fuel with
  | nil => exact absurd rfl hne
  | cons field others ih =>
    obtain ⟨name, value⟩ := field
    obtain ⟨hvalue, hothers⟩ := List.forall_mem_cons.1 hfields
    cases fuel with
    | zero => cases hfuel
    | succ fuel =>
      rw [fieldChars_cons] at hfuel ⊢
      simp only [List.length_append, List.length_cons] at hfuel
      have hname : ∀ after, readString? fuel (name.toList.flatMap escape ++ '"' :: after) =
          some (name.toList, after) := fun after => readString?_quote name after (by omega)
      have hread : ∀ after, readValue? fuel depth (value.toChars ++ after) = some (value, after) :=
        fun after => hvalue fuel after (by change value.toChars.length ≤ fuel; omega)
      rw [List.append_assoc, quote_append, readFields?, skipSpace_cons '"' (by decide)]
      simp only [hname, hread, Option.bind_eq_bind, Option.bind_some, List.cons_append,
        List.append_assoc, skipSpace_cons ':' (by decide), String.ofList_toList]
      by_cases hnil : others = []
      · subst hnil
        rfl
      · rw [fieldChars_false hnil] at hfuel ⊢
        rw [List.length_cons] at hfuel
        have hrest : readFields? fuel depth (fieldChars true others ++ '}' :: rest) =
            some (others, rest) := ih hnil hothers (by omega)
        simp only [List.cons_append, skipSpace_cons ',' (by decide), hrest]
        rfl

theorem readsBack_array {depth limit : Nat} (hdepth : 1 < depth) {items : List Json}
    (hnests : ∀ item ∈ items, Nests limit item)
    (hitems : ∀ item ∈ items, ReadsBack (depth - 1) item) : ReadsBack depth (.array items) := by
  intro fuel rest hfuel
  cases fuel with
  | zero => cases hfuel
  | succ fuel =>
    have hnot : ¬depth ≤ 1 := Nat.not_le.2 hdepth
    by_cases hnil : items = []
    · subst hnil
      exact if_neg hnot
    · have hlength : (itemChars true items).length < fuel := by
        simp only [toChars_array, List.length_append, List.length_cons, List.length_nil] at hfuel
        omega
      have hread := readItems?_itemChars hnil hitems rest hlength
      obtain ⟨first, after, hchars, hspace, hbracket⟩ := exists_itemChars hnil hnests
      rw [hchars, List.cons_append] at hread
      rw [toChars_array, hchars, List.cons_append, List.append_assoc, List.cons_append,
        readValue?_bracket]
      simp only [if_neg hnot, skipSpace_cons first hspace, List.singleton_append]
      split
      case h_1 heq =>
        cases heq
        exact absurd rfl hbracket
      case h_2 =>
        rw [hread]
        rfl

theorem readsBack_object {depth : Nat} (hdepth : 1 < depth) {fields : List (String × Json)}
    (hfields : ∀ field ∈ fields, ReadsBack (depth - 1) field.2) :
    ReadsBack depth (.object fields) := by
  intro fuel rest hfuel
  cases fuel with
  | zero => cases hfuel
  | succ fuel =>
    have hnot : ¬depth ≤ 1 := Nat.not_le.2 hdepth
    by_cases hnil : fields = []
    · subst hnil
      exact if_neg hnot
    · have hlength : (fieldChars true fields).length < fuel := by
        simp only [toChars_object, List.length_append, List.length_cons, List.length_nil] at hfuel
        omega
      have hread := readFields?_fieldChars hnil hfields rest hlength
      obtain ⟨after, hchars⟩ := exists_fieldChars hnil
      rw [hchars, List.cons_append] at hread
      rw [toChars_object, hchars, List.cons_append, List.append_assoc, List.cons_append,
        readValue?_brace]
      simp only [if_neg hnot, skipSpace_cons '"' (by decide), List.singleton_append]
      split
      case h_1 heq => cases heq
      case h_2 =>
        rw [hread]
        rfl

theorem Nests.readsBack {limit : Nat} {value : Json} (h : Nests limit value) {depth : Nat}
    (hdepth : limit < depth) : ReadsBack depth value := by
  induction h generalizing depth with
  | null limit =>
    intro fuel rest hfuel
    cases fuel with
    | zero => cases hfuel
    | succ fuel => rfl
  | bool limit flag =>
    intro fuel rest hfuel
    cases fuel with
    | zero => cases flag <;> cases hfuel
    | succ fuel => cases flag <;> rfl
  | string limit text =>
    intro fuel rest hfuel
    cases fuel with
    | zero => cases hfuel
    | succ fuel =>
      have hchars : (Json.string text).toChars = quote text := rfl
      have htext := readString?_quote text rest hfuel
      rw [hchars, quote_append, readValue?_quoted, htext]
      simp only [Option.map_some, String.ofList_toList]
  | array hitems ih =>
    exact readsBack_array (by omega) hitems fun item hitem => ih item hitem (by omega)
  | object _ _ ih =>
    exact readsBack_object (by omega) fun field hfield => ih field hfield (by omega)

/-- The compact text of a value reads back as the value. -/
theorem readRaw?_toText {limit : Nat} {value : Json} (h : Nests limit value)
    (hlimit : limit < nestingLimit) : readRaw? value.toText = some value := by
  have hread := h.readsBack hlimit (2 * value.toChars.length + 1) [] (by omega)
  rw [List.append_nil] at hread
  simp only [readRaw?, toText, String.toList_ofList, hread, Option.bind_eq_bind, Option.bind_some]
  rfl

/-- A way to write JSON values as texts and to read them again. -/
structure TextFormat where
  read? : String → Option Json
  write : Json → String

namespace TextFormat

/-- Reading the text that was written of a value returns the value, unless it has numbers or
repeated fields or is nested too deep. -/
def RoundTrips (format : TextFormat) : Prop :=
  ∀ limit value, Nests limit value → limit < nestingLimit →
    format.read? (format.write value) = some value

def compact : TextFormat where
  read? := readRaw?
  write := toText

theorem roundTrips_compact : compact.RoundTrips := by
  intro limit value hnests hlimit
  exact readRaw?_toText hnests hlimit

end TextFormat

end LinkedDocs.Json
