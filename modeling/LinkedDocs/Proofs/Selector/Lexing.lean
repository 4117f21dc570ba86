import LinkedDocs.Selector.Lexeme
import Mathlib.Data.List.TakeWhile
import Mathlib.Tactic.Common

/-!
The cut of a selector text into tokens. It is described without the lexer: between separators, each
token is the longest one that the text goes on with. The lexer finds the cut of every text that has
one, and no text has two.
-/

namespace LinkedDocs.Selector

/-- The tokens with a spelling: names, decimal digits, an at sign with digits, and punctuation. -/
def Token.IsLexical : Token → Prop
  | .field name => ∃ first rest, name.toList = first :: rest ∧ isNameStart first ∧
      rest.all isNameChar
  | .index digits => ∃ first rest, digits.toList = first :: rest ∧ first.isDigit ∧
      rest.all Char.isDigit
  | .symbol token => ∃ first rest, token.toList = '@' :: first :: rest ∧ first.isDigit ∧
      rest.all Char.isDigit
  | .other _ => False
  | _ => True

/-- A token that a text goes on with, when no other such token is longer. -/
structure Token.IsLongest (token : Token) (text : List Char) : Prop where
  isLexical : token.IsLexical
  isPrefix : token.toChars <+: text
  longest : ∀ other : Token, other.IsLexical → other.toChars <+: text →
    other.toChars.length ≤ token.toChars.length

/-- The tokens of a text, cut by longest match, with the separators between them dropped. -/
inductive Cut : List Char → List Token → Prop
  | nil : Cut [] []
  | separator {character : Char} {rest : List Char} {tokens : List Token}
      (hseparator : isSeparator character) (hrest : Cut rest tokens) :
      Cut (character :: rest) tokens
  | token {token : Token} {rest : List Char} {tokens : List Token}
      (hlongest : token.IsLongest (token.toChars ++ rest)) (hrest : Cut rest tokens) :
      Cut (token.toChars ++ rest) (token :: tokens)

theorem Cut.isLexical {text : List Char} {tokens : List Token} (h : Cut text tokens) :
    ∀ token ∈ tokens, token.IsLexical := by
  induction h with
  | nil => exact fun _ hmem => absurd hmem List.not_mem_nil
  | separator _ _ ih => exact ih
  | token hlongest _ ih => exact List.forall_mem_cons.2 ⟨hlongest.isLexical, ih⟩

theorem toNat_of_isDigit {character : Char} (h : character.isDigit) :
    48 ≤ character.toNat ∧ character.toNat ≤ 57 := by
  simpa [Char.isDigit, UInt32.le_iff_toNat_le] using h

theorem toNat_of_isNameStart {character : Char} (h : isNameStart character) :
    65 ≤ character.toNat ∧ character.toNat ≤ 122 ∨ character.toNat = 45 := by
  have halpha : character.isAlpha =
      (decide (character.val ≥ 'A'.val ∧ character.val ≤ 'Z'.val) ||
        (character.val ≥ 'a'.val && character.val ≤ 'z'.val)) := rfl
  simp only [isNameStart, halpha, Bool.or_eq_true, Bool.and_eq_true, decide_eq_true_eq, beq_iff_eq,
    UInt32.le_iff_toNat_le, ge_iff_le] at h
  change (((65 ≤ character.toNat ∧ character.toNat ≤ 90) ∨
    (97 ≤ character.toNat ∧ character.toNat ≤ 122)) ∨ character = '_') ∨ character = '-' at h
  rcases h with ((h | h) | rfl) | rfl
  · omega
  · omega
  · decide
  · decide

theorem toNat_of_isSeparator {character : Char} (h : isSeparator character) :
    character.toNat ≤ 32 ∨ character.toNat = 46 ∨ 128 ≤ character.toNat := by
  simp only [isSeparator, isBlank, Bool.or_eq_true, beq_iff_eq] at h
  rcases h with h | rfl
  · simp [inRanges, CodeRange.contains] at h
    omega
  · decide

theorem not_isNameStart_of_isDigit {character : Char} (h : character.isDigit) :
    ¬isNameStart character := by
  intro hstart
  have hdigit := toNat_of_isDigit h
  have hname := toNat_of_isNameStart hstart
  omega

theorem not_isSeparator_of_isDigit {character : Char} (h : character.isDigit) :
    ¬isSeparator character := by
  intro hseparator
  have hdigit := toNat_of_isDigit h
  have hcode := toNat_of_isSeparator hseparator
  omega

theorem not_isSeparator_of_isNameStart {character : Char} (h : isNameStart character) :
    ¬isSeparator character := by
  intro hseparator
  have hname := toNat_of_isNameStart h
  have hcode := toNat_of_isSeparator hseparator
  omega

theorem lexAt_of_isNameStart {first : Char} (h : isNameStart first) (rest : List Char) :
    lexAt first rest =
      (.field (String.ofList (first :: rest.takeWhile isNameChar)), rest.dropWhile isNameChar) := by
  unfold lexAt
  rw [if_pos h]

theorem lexAt_of_isDigit {first : Char} (h : first.isDigit) (rest : List Char) :
    lexAt first rest =
      (.index (String.ofList (first :: rest.takeWhile Char.isDigit)),
        rest.dropWhile Char.isDigit) := by
  unfold lexAt
  rw [if_neg (not_isNameStart_of_isDigit h), if_pos h]

theorem lexAt_at {first : Char} (h : first.isDigit) (rest : List Char) :
    lexAt '@' (first :: rest) =
      (.symbol (String.ofList ('@' :: first :: rest.takeWhile Char.isDigit)),
        rest.dropWhile Char.isDigit) := by
  have hname : ¬isNameStart '@' := by decide
  have hdigit : ¬ Char.isDigit '@' := by decide
  unfold lexAt
  simp [hname, hdigit, h]

theorem toChars_lexAt_append (character : Char) (rest : List Char) :
    (lexAt character rest).1.toChars ++ (lexAt character rest).2 = character :: rest := by
  unfold lexAt
  split
  · simp [Token.toChars]
  · split
    · simp [Token.toChars]
    · split <;> try rfl
      split <;> simp [Token.toChars]

theorem isLexical_lexAt (character : Char) (rest : List Char) :
    (lexAt character rest).1.IsLexical ∨ ∃ strange, (lexAt character rest).1 = .other strange := by
  unfold lexAt
  split
  case isTrue hname =>
    exact .inl ⟨character, _, String.toList_ofList, hname, List.all_takeWhile⟩
  split
  case isTrue hdigit =>
    exact .inl ⟨character, _, String.toList_ofList, hdigit, List.all_takeWhile⟩
  split
  case h_12 =>
    cases rest with
    | nil => exact .inr ⟨'@', rfl⟩
    | cons first others =>
      by_cases hfirst : first.isDigit
      · refine .inl ?_
        simp only [List.head?_cons, Option.any_some, hfirst, if_true]
        exact ⟨first, others.takeWhile Char.isDigit, by simp [hfirst], hfirst, List.all_takeWhile⟩
      · exact .inr ⟨'@', by simp [hfirst]⟩
  case h_13 => exact .inr ⟨_, rfl⟩
  all_goals exact .inl trivial

/-- A text of characters of one kind, behind its beginning, is what a longer one begins with. -/
theorem isPrefix_run {holds : Char → Bool} {text : String} {front part rest : List Char}
    (hchars : text.toList = front ++ part) (hall : part.all holds) (hbegins : part <+: rest) :
    text.toList <+: (String.ofList (front ++ rest.takeWhile holds)).toList ∧
      (text.toList = (String.ofList (front ++ rest.takeWhile holds)).toList →
        text = String.ofList (front ++ rest.takeWhile holds)) := by
  obtain ⟨others, rfl⟩ := hbegins
  refine ⟨?_, String.toList_inj.1⟩
  rw [hchars, String.toList_ofList, List.takeWhile_append_of_pos (List.all_eq_true.1 hall),
    ← List.append_assoc]
  exact List.prefix_append _ _

/-- What the lexer finds begins with each token that the text goes on with. -/
theorem lexAt_of_isPrefix {token : Token} {character : Char} {rest : List Char}
    (htoken : token.IsLexical) (hbegins : token.toChars <+: character :: rest) :
    (lexAt character rest).1.IsLexical ∧ token.toChars <+: (lexAt character rest).1.toChars ∧
      (token.toChars = (lexAt character rest).1.toChars → token = (lexAt character rest).1) := by
  cases token with
  | field name =>
    obtain ⟨first, part, hchars, hfirst, hpart⟩ := htoken
    rw [Token.toChars, hchars] at hbegins
    obtain ⟨rfl, hrest⟩ := List.cons_prefix_cons.1 hbegins
    have hsplit : name.toList = [first] ++ part := hchars
    obtain ⟨hbegin, heq⟩ := isPrefix_run hsplit hpart hrest
    rw [lexAt_of_isNameStart hfirst]
    exact ⟨⟨first, _, String.toList_ofList, hfirst, List.all_takeWhile⟩, hbegin,
      fun h => congrArg Token.field (heq h)⟩
  | index digits =>
    obtain ⟨first, part, hchars, hfirst, hpart⟩ := htoken
    rw [Token.toChars, hchars] at hbegins
    obtain ⟨rfl, hrest⟩ := List.cons_prefix_cons.1 hbegins
    have hsplit : digits.toList = [first] ++ part := hchars
    obtain ⟨hbegin, heq⟩ := isPrefix_run hsplit hpart hrest
    rw [lexAt_of_isDigit hfirst]
    exact ⟨⟨first, _, String.toList_ofList, hfirst, List.all_takeWhile⟩, hbegin,
      fun h => congrArg Token.index (heq h)⟩
  | symbol spelling =>
    obtain ⟨first, part, hchars, hfirst, hpart⟩ := htoken
    rw [Token.toChars, hchars] at hbegins
    obtain ⟨rfl, others, rfl⟩ := List.cons_prefix_cons.1 hbegins
    have hsplit : spelling.toList = ['@', first] ++ part := hchars
    obtain ⟨hbegin, heq⟩ := isPrefix_run hsplit hpart (List.prefix_append part others)
    rw [List.cons_append, lexAt_at hfirst]
    exact ⟨⟨first, _, String.toList_ofList, hfirst, List.all_takeWhile⟩, hbegin,
      fun h => congrArg Token.symbol (heq h)⟩
  | map =>
    obtain ⟨rfl, -⟩ := List.cons_prefix_cons.1 hbegins
    by_cases hdouble : rest.head? = some '$'
    · obtain ⟨others, rfl⟩ := List.head?_eq_some_iff.1 hdouble
      have hlex : lexAt '$' ('$' :: others) = (.hardMap, others) := rfl
      rw [hlex]
      refine ⟨trivial, List.prefix_append ['$'] ['$'], fun heq => ?_⟩
      simp [Token.toChars] at heq
    · have hlex : lexAt '$' rest = (.map, rest) := by
        cases rest with
        | nil => rfl
        | cons first others =>
          have hfirst : first ≠ '$' := by simpa using hdouble
          simp [lexAt, isNameStart, hfirst]
      rw [hlex]
      exact ⟨trivial, List.prefix_rfl, fun _ => rfl⟩
  | hardMap =>
    obtain ⟨rfl, hrest⟩ := List.cons_prefix_cons.1 hbegins
    obtain ⟨others, rfl⟩ := hrest
    exact ⟨trivial, List.prefix_rfl, fun _ => rfl⟩
  | other strange => exact htoken.elim
  | _ =>
    obtain ⟨rfl, -⟩ := List.cons_prefix_cons.1 hbegins
    exact ⟨trivial, List.prefix_rfl, fun _ => rfl⟩

theorem isLongest_lexAt {character : Char} {rest : List Char}
    (h : ∀ strange, (lexAt character rest).1 ≠ .other strange) :
    (lexAt character rest).1.IsLongest (character :: rest) where
  isLexical := (isLexical_lexAt character rest).resolve_right fun ⟨strange, heq⟩ => h strange heq
  isPrefix := ⟨(lexAt character rest).2, toChars_lexAt_append character rest⟩
  longest := fun _ hother hbegins => (lexAt_of_isPrefix hother hbegins).2.1.length_le

theorem Token.IsLongest.eq_lexAt {token : Token} {character : Char} {rest : List Char}
    (h : token.IsLongest (character :: rest)) : token = (lexAt character rest).1 := by
  obtain ⟨hlexical, hbegins, heq⟩ := lexAt_of_isPrefix h.isLexical h.isPrefix
  have hfound := h.longest _ hlexical ⟨_, toChars_lexAt_append character rest⟩
  exact heq (hbegins.eq_of_length_le hfound)

theorem Token.IsLexical.exists_cons {token : Token} (h : token.IsLexical) :
    ∃ first rest, token.toChars = first :: rest ∧ ¬isSeparator first := by
  cases token with
  | field name =>
    obtain ⟨first, rest, hchars, hfirst, -⟩ := h
    exact ⟨first, rest, hchars, not_isSeparator_of_isNameStart hfirst⟩
  | index digits =>
    obtain ⟨first, rest, hchars, hfirst, -⟩ := h
    exact ⟨first, rest, hchars, not_isSeparator_of_isDigit hfirst⟩
  | symbol spelling =>
    obtain ⟨first, rest, hchars, -, -⟩ := h
    exact ⟨'@', first :: rest, hchars, by decide⟩
  | other => exact h.elim
  | _ => exact ⟨_, _, rfl, by decide⟩

/-- The lexer cuts a text in which it finds no strange character. -/
theorem cut_lexFrom {offset : Nat} {text : List Char}
    (h : ∀ lexeme ∈ lexFrom offset text, ∀ strange, lexeme.token ≠ .other strange) :
    Cut text ((lexFrom offset text).map Lexeme.token) := by
  fun_induction lexFrom offset text with
  | case1 => exact .nil
  | case2 offset character rest hseparator ih => exact .separator hseparator (ih h)
  | case3 offset character rest hseparator ih =>
    obtain ⟨hfirst, hrest⟩ := List.forall_mem_cons.1 h
    have hlongest := isLongest_lexAt hfirst
    rw [← toChars_lexAt_append character rest] at hlongest ⊢
    exact .token hlongest (ih hrest)

/-- A text has no other cut than the one the lexer finds. -/
theorem Cut.map_token_lexFrom {text : List Char} {tokens : List Token} (h : Cut text tokens)
    (offset : Nat) : (lexFrom offset text).map Lexeme.token = tokens := by
  induction h generalizing offset with
  | nil =>
    rw [lexFrom]
    rfl
  | separator hseparator _ ih =>
    rw [lexFrom, if_pos hseparator]
    exact ih _
  | @token token rest tokens hlongest _ ih =>
    obtain ⟨character, others, hchars, hseparator⟩ := hlongest.isLexical.exists_cons
    have htext : token.toChars ++ rest = character :: (others ++ rest) := by
      rw [hchars, List.cons_append]
    rw [htext] at hlongest
    have htoken := hlongest.eq_lexAt
    have hrest : (lexAt character (others ++ rest)).2 = rest := by
      have happend := toChars_lexAt_append character (others ++ rest)
      rw [← htoken, ← htext] at happend
      exact List.append_cancel_left happend
    rw [htext, lexFrom, if_neg hseparator, List.map_cons, hrest, ih, ← htoken]

end LinkedDocs.Selector
