import LinkedDocs.Proofs.Selector.Completeness

namespace LinkedDocs.Selector

theorem not_isSeparator_of_isNameChar {character : Char} (h : isNameChar character) :
    ¬isSeparator character := by
  by_cases hdigit : character.isDigit
  · exact not_isSeparator_of_isDigit hdigit
  · refine not_isSeparator_of_isNameStart ?_
    simpa [isNameChar, isNameStart, Char.isAlphanum, hdigit] using h

theorem Token.IsLexical.not_isSeparator {token : Token} (h : token.IsLexical) :
    ∀ character ∈ token.toChars, ¬isSeparator character := by
  cases token with
  | field name =>
    obtain ⟨first, rest, hchars, hfirst, hrest⟩ := h
    rw [Token.toChars, hchars]
    refine List.forall_mem_cons.2 ⟨not_isSeparator_of_isNameStart hfirst, fun character hmem => ?_⟩
    exact not_isSeparator_of_isNameChar (List.all_eq_true.1 hrest character hmem)
  | index digits =>
    obtain ⟨first, rest, hchars, hfirst, hrest⟩ := h
    rw [Token.toChars, hchars]
    refine List.forall_mem_cons.2 ⟨not_isSeparator_of_isDigit hfirst, fun character hmem => ?_⟩
    exact not_isSeparator_of_isDigit (List.all_eq_true.1 hrest character hmem)
  | symbol spelling =>
    obtain ⟨first, rest, hchars, hfirst, hrest⟩ := h
    rw [Token.toChars, hchars]
    refine List.forall_mem_cons.2 ⟨by decide, ?_⟩
    refine List.forall_mem_cons.2 ⟨not_isSeparator_of_isDigit hfirst, fun character hmem => ?_⟩
    exact not_isSeparator_of_isDigit (List.all_eq_true.1 hrest character hmem)
  | other strange => exact h.elim
  | hardMap => exact List.forall_mem_cons.2 ⟨by decide, List.forall_mem_singleton.2 (by decide)⟩
  | _ => exact List.forall_mem_singleton.2 (by decide)

section

variable {token : Token} {separator : Char} {first second : List Char}

/-- A token in front of a text ends before each separator of the text. -/
theorem Token.IsLexical.exists_append (h : token.IsLexical) (hseparator : isSeparator separator)
    {rest : List Char} (htext : token.toChars ++ rest = first ++ separator :: second) :
    ∃ between, first = token.toChars ++ between ∧ rest = between ++ separator :: second := by
  rcases List.append_eq_append_iff.1 htext with ⟨between, hfirst, hrest⟩ | ⟨others, hchars, hrest⟩
  · exact ⟨between, hfirst, hrest⟩
  · cases others with
    | nil => exact ⟨[], by rw [hchars, List.append_nil, List.append_nil], hrest.symm⟩
    | cons character others =>
      obtain ⟨rfl, -⟩ := List.cons.inj hrest
      have hmem : separator ∈ token.toChars := by
        rw [hchars]
        exact List.mem_append_right _ List.mem_cons_self
      exact absurd hseparator (h.not_isSeparator separator hmem)

theorem Token.IsLexical.isPrefix_append_iff (h : token.IsLexical)
    (hseparator : isSeparator separator) :
    token.toChars <+: first ++ separator :: second ↔ token.toChars <+: first := by
  constructor
  · rintro ⟨rest, htext⟩
    obtain ⟨between, hfirst, -⟩ := h.exists_append hseparator htext
    exact ⟨between, hfirst.symm⟩
  · intro hbegins
    exact hbegins.trans (List.prefix_append _ _)

theorem Token.isLongest_append_iff (hseparator : isSeparator separator) :
    token.IsLongest (first ++ separator :: second) ↔ token.IsLongest first := by
  constructor
  · rintro ⟨hlexical, hbegins, hlongest⟩
    refine ⟨hlexical, (hlexical.isPrefix_append_iff hseparator).1 hbegins, fun other hother h => ?_⟩
    exact hlongest other hother ((hother.isPrefix_append_iff hseparator).2 h)
  · rintro ⟨hlexical, hbegins, hlongest⟩
    refine ⟨hlexical, (hlexical.isPrefix_append_iff hseparator).2 hbegins, fun other hother h => ?_⟩
    exact hlongest other hother ((hother.isPrefix_append_iff hseparator).1 h)

theorem Cut.append {tokens others : List Token} (hfirst : Cut first tokens)
    (hseparator : isSeparator separator) (hsecond : Cut second others) :
    Cut (first ++ separator :: second) (tokens ++ others) := by
  induction hfirst with
  | nil => exact .separator hseparator hsecond
  | separator hfront _ ih => exact .separator hfront ih
  | token hlongest _ ih =>
    rw [List.append_assoc, List.cons_append]
    refine .token ?_ ih
    rw [← List.append_assoc]
    exact (Token.isLongest_append_iff hseparator).2 hlongest

theorem Cut.exists_append {text : List Char} {tokens : List Token} (h : Cut text tokens)
    (hseparator : isSeparator separator) (htext : text = first ++ separator :: second) :
    ∃ left right, tokens = left ++ right ∧ Cut first left ∧ Cut second right := by
  induction h generalizing first with
  | nil => simp at htext
  | @separator character rest tokens hfront hrest ih =>
    cases first with
    | nil =>
      obtain ⟨rfl, rfl⟩ := List.cons.inj htext
      exact ⟨[], tokens, rfl, .nil, hrest⟩
    | cons head first =>
      obtain ⟨rfl, hafter⟩ := List.cons.inj htext
      obtain ⟨left, right, rfl, hleft, hright⟩ := ih hafter
      exact ⟨left, right, rfl, .separator hfront hleft, hright⟩
  | @token token rest tokens hlongest _ ih =>
    obtain ⟨between, rfl, hrest⟩ := hlongest.isLexical.exists_append hseparator htext
    obtain ⟨left, right, rfl, hleft, hright⟩ := ih hrest
    refine ⟨token :: left, right, rfl, .token ?_ hleft, hright⟩
    rw [htext] at hlongest
    exact (Token.isLongest_append_iff hseparator).1 hlongest

end

theorem cut_append_iff {first second : List Char} {separator : Char}
    (hseparator : isSeparator separator) {tokens : List Token} :
    Cut (first ++ separator :: second) tokens ↔
      ∃ left right, tokens = left ++ right ∧ Cut first left ∧ Cut second right := by
  constructor
  · intro h
    exact h.exists_append hseparator rfl
  · rintro ⟨left, right, rfl, hleft, hright⟩
    exact hleft.append hseparator hright

/-- The tokens of two texts with a blank between them are those of the one and those of the other. -/
theorem cut_blank_iff {first second : String} {tokens : List Token} :
    Cut (first ++ " " ++ second).toList tokens ↔
      ∃ left right, tokens = left ++ right ∧ Cut first.toList left ∧ Cut second.toList right := by
  have htext : (first ++ " " ++ second).toList = first.toList ++ ' ' :: second.toList := by
    simp
  rw [htext]
  exact cut_append_iff (by decide)

theorem Cut.unique {text : List Char} {tokens others : List Token} (h : Cut text tokens)
    (hother : Cut text others) : tokens = others :=
  (h.map_token_lexFrom 0).symm.trans (hother.map_token_lexFrom 0)

end LinkedDocs.Selector
