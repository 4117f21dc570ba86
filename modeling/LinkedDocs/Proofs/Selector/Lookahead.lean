import LinkedDocs.Proofs.Selector.Separation

namespace LinkedDocs.Selector

theorem byteCount_append (first second : List Char) :
    byteCount (first ++ second) = byteCount first + byteCount second := by
  induction first with
  | nil => exact (Nat.zero_add _).symm
  | cons character rest ih => rw [List.cons_append, byteCount, byteCount, ih, Nat.add_assoc]

theorem byteCount_toList (text : String) : byteCount text.toList = text.utf8ByteSize := by
  have hchars (characters : List Char) :
      byteCount characters = (String.ofList characters).utf8ByteSize := by
    induction characters with
    | nil => rfl
    | cons character rest ih =>
      rw [byteCount, ih, String.ofList_cons, String.utf8ByteSize_append,
        String.utf8ByteSize_singleton]
  rw [hchars, String.ofList_toList]

/-- A token and the next character of a longer one are spelled by a token themselves. -/
theorem Token.IsLexical.exists_concat {token other : Token} (htoken : token.IsLexical)
    (hother : other.IsLexical) {character : Char}
    (hbegins : token.toChars ++ [character] <+: other.toChars) :
    ∃ between : Token, between.IsLexical ∧ between.toChars = token.toChars ++ [character] := by
  obtain ⟨first, part, hchars, -⟩ := htoken.exists_cons
  rw [hchars, List.cons_append] at hbegins ⊢
  cases other with
  | field name =>
    obtain ⟨start, rest, hname, hstart, hrest⟩ := hother
    rw [Token.toChars, hname, List.cons_prefix_cons] at hbegins
    obtain ⟨rfl, hpart⟩ := hbegins
    refine ⟨.field (String.ofList (first :: (part ++ [character]))),
      ⟨first, _, String.toList_ofList, hstart, ?_⟩, String.toList_ofList⟩
    exact List.all_eq_true.2 fun other hmem => List.all_eq_true.1 hrest other (hpart.subset hmem)
  | index digits =>
    obtain ⟨start, rest, hdigits, hstart, hrest⟩ := hother
    rw [Token.toChars, hdigits, List.cons_prefix_cons] at hbegins
    obtain ⟨rfl, hpart⟩ := hbegins
    refine ⟨.index (String.ofList (first :: (part ++ [character]))),
      ⟨first, _, String.toList_ofList, hstart, ?_⟩, String.toList_ofList⟩
    exact List.all_eq_true.2 fun other hmem => List.all_eq_true.1 hrest other (hpart.subset hmem)
  | symbol spelling =>
    obtain ⟨start, rest, hspelling, hstart, hrest⟩ := hother
    obtain ⟨next, others, hnext⟩ : ∃ next others, part ++ [character] = next :: others :=
      List.exists_cons_of_ne_nil (by simp)
    rw [Token.toChars, hspelling, List.cons_prefix_cons, hnext, List.cons_prefix_cons] at hbegins
    obtain ⟨rfl, rfl, hothers⟩ := hbegins
    rw [hnext]
    refine ⟨.symbol (String.ofList ('@' :: next :: others)), ⟨next, others, String.toList_ofList,
      hstart, ?_⟩, String.toList_ofList⟩
    exact List.all_eq_true.2 fun other hmem => List.all_eq_true.1 hrest other (hothers.subset hmem)
  | hardMap =>
    rw [Token.toChars, List.cons_prefix_cons] at hbegins
    obtain ⟨rfl, hpart⟩ := hbegins
    exact ⟨.hardMap, trivial, congrArg _ (hpart.eq_of_length_le (by simp)).symm⟩
  | other strange => exact hother.elim
  | _ =>
    rw [Token.toChars, List.cons_prefix_cons, List.prefix_nil] at hbegins
    exact absurd hbegins.2 (by simp)

/-- Where a token ends depends on nothing but the character behind it. -/
theorem Token.IsLongest.congr_head {token : Token} {rest others : List Char}
    (h : token.IsLongest (token.toChars ++ rest)) (hhead : others.head? = rest.head?) :
    token.IsLongest (token.toChars ++ others) := by
  refine ⟨h.isLexical, List.prefix_append _ _, fun other hother hbegins => ?_⟩
  by_contra hlonger
  have hfront := List.prefix_of_prefix_length_le (List.prefix_append token.toChars others) hbegins
    (Nat.le_of_not_le hlonger)
  obtain ⟨behind, hbehind⟩ := hfront
  cases behind with
  | nil =>
    rw [List.append_nil] at hbehind
    exact hlonger (by rw [hbehind])
  | cons character behind =>
    rw [← hbehind, List.prefix_append_right_inj] at hbegins
    obtain ⟨back, rfl⟩ := hbegins
    have hlonger : token.toChars ++ [character] <+: other.toChars :=
      ⟨behind, by rw [← hbehind, List.append_assoc]; rfl⟩
    obtain ⟨between, hlexical, hchars⟩ := h.isLexical.exists_concat hother hlonger
    obtain ⟨following, rfl⟩ : ∃ following, rest = character :: following :=
      List.head?_eq_some_iff.1 hhead.symm
    have hlength := h.longest between hlexical
      ⟨following, by rw [hchars, List.append_assoc]; rfl⟩
    rw [hchars, List.length_append, List.length_singleton] at hlength
    omega

theorem Token.IsLongest.of_prefix {token : Token} {text longer : List Char}
    (h : token.IsLongest longer) (htext : text <+: longer) (hbegins : token.toChars <+: text) :
    token.IsLongest text :=
  ⟨h.isLexical, hbegins, fun other hother hfront => h.longest other hother (hfront.trans htext)⟩

/-- Which kind of token begins at a place depends on nothing but the character there, if a sign for
maps counts as one kind with its double, and an at sign with the symbols. -/
theorem apply_lexAt {β : Type} {kind : Token → β}
    (hfield : ∀ name other, kind (.field name) = kind (.field other))
    (hindex : ∀ digits other, kind (.index digits) = kind (.index other))
    (hmap : kind .map = kind .hardMap) (hsymbol : ∀ token, kind (.symbol token) = kind (.other '@'))
    (character : Char) (rest others : List Char) :
    kind (lexAt character rest).1 = kind (lexAt character others).1 := by
  have halone (rest : List Char) : kind (lexAt character rest).1 = kind (lexAt character []).1 := by
    unfold lexAt
    split
    · exact hfield _ _
    · split
      · exact hindex _ _
      · split
        case h_2 => exact hmap.symm
        case h_12 =>
          split
          · exact hsymbol _
          · rfl
        case h_13 => split <;> first | rfl | contradiction
        all_goals rfl
  rw [halone, halone others]

/-- The tokens of a text, each the longest one that the text goes on with together with what follows
it. -/
inductive CutBefore (following : List Char) : List Char → List Token → Prop
  | nil : CutBefore following [] []
  | separator {character : Char} {rest : List Char} {tokens : List Token}
      (hseparator : isSeparator character) (hrest : CutBefore following rest tokens) :
      CutBefore following (character :: rest) tokens
  | token {token : Token} {rest : List Char} {tokens : List Token}
      (hlongest : token.IsLongest (token.toChars ++ (rest ++ following)))
      (hrest : CutBefore following rest tokens) :
      CutBefore following (token.toChars ++ rest) (token :: tokens)

section CutBefore

variable {following text : List Char} {tokens : List Token}

/-- The beginning of a text has the same tokens when it stands alone. -/
theorem CutBefore.cut (h : CutBefore following text tokens) : Cut text tokens := by
  induction h with
  | nil => exact .nil
  | separator hseparator _ ih => exact .separator hseparator ih
  | token hlongest _ ih =>
    rw [← List.append_assoc] at hlongest
    exact .token (hlongest.of_prefix (List.prefix_append _ _) (List.prefix_append _ _)) ih

/-- It has the same tokens when another text goes on with the same character. -/
theorem CutBefore.congr_head (h : CutBefore following text tokens) {others : List Char}
    (hhead : others.head? = following.head?) : CutBefore others text tokens := by
  induction h with
  | nil => exact .nil
  | separator hseparator _ ih => exact .separator hseparator ih
  | token hlongest _ ih =>
    refine .token (hlongest.congr_head ?_) ih
    rw [List.head?_append, List.head?_append, hhead]

theorem CutBefore.map_token_lexFrom (h : CutBefore following text tokens) (offset : Nat) :
    (lexFrom offset (text ++ following)).map Lexeme.token =
      tokens ++ (lexFrom (offset + byteCount text) following).map Lexeme.token := by
  induction h generalizing offset with
  | nil => rfl
  | separator hseparator _ ih =>
    rw [List.cons_append, lexFrom, if_pos hseparator, ih, byteCount, Nat.add_assoc]
  | @token token rest tokens hlongest _ ih =>
    obtain ⟨character, others, hchars, hseparator⟩ := hlongest.isLexical.exists_cons
    have htext : token.toChars ++ (rest ++ following) =
        character :: (others ++ (rest ++ following)) := by
      rw [hchars, List.cons_append]
    rw [htext] at hlongest
    have htoken := hlongest.eq_lexAt
    have hrest : (lexAt character (others ++ (rest ++ following))).2 = rest ++ following := by
      have happend := toChars_lexAt_append character (others ++ (rest ++ following))
      rw [← htoken, ← htext] at happend
      exact List.append_cancel_left happend
    rw [List.append_assoc, htext, lexFrom, if_neg hseparator, List.map_cons, hrest, ih, ← htoken,
      byteCount_append, ← Nat.add_assoc]
    rfl

/-- The lexemes before a place are those of the text up to there, if none of them is strange. The
separators before the place belong to that text. -/
theorem exists_cutBefore {offset : Nat} {before after : List Lexeme}
    (h : lexFrom offset text = before ++ after)
    (hstrange : ∀ lexeme ∈ before, ∀ strange, lexeme.token ≠ .other strange) :
    ∃ front following, text = front ++ following ∧
      CutBefore following front (before.map Lexeme.token) ∧
      lexFrom (offset + byteCount front) following = after ∧
      ∀ character ∈ following.head?, ¬isSeparator character := by
  fun_induction lexFrom offset text generalizing before with
  | case1 offset =>
    obtain ⟨rfl, rfl⟩ := List.append_eq_nil_iff.1 h.symm
    exact ⟨[], [], rfl, .nil, by rw [lexFrom], fun _ hnone => by cases hnone⟩
  | case2 offset character rest hseparator ih =>
    obtain ⟨front, following, rfl, hcut, hafter, hfollowing⟩ := ih h hstrange
    refine ⟨character :: front, following, rfl, .separator hseparator hcut, ?_, hfollowing⟩
    rwa [byteCount, ← Nat.add_assoc]
  | case3 offset character rest hseparator ih =>
    cases before with
    | nil =>
      refine ⟨[], character :: rest, rfl, .nil, ?_, by simpa using hseparator⟩
      rw [List.nil_append] at h
      rw [← h, byteCount, Nat.add_zero, lexFrom, if_neg hseparator]
    | cons lexeme before =>
      obtain ⟨rfl, hrest⟩ := List.cons.inj h
      obtain ⟨hfirst, hothers⟩ := List.forall_mem_cons.1 hstrange
      obtain ⟨front, following, hfront, hcut, hafter, hfollowing⟩ := ih hrest hothers
      have htext := toChars_lexAt_append character rest
      have hlongest := isLongest_lexAt hfirst
      rw [hfront] at htext
      rw [← htext] at hlongest ⊢
      refine ⟨(lexAt character rest).1.toChars ++ front, following, (List.append_assoc _ _ _).symm,
        .token hlongest hcut, ?_, hfollowing⟩
      rwa [byteCount_append, ← Nat.add_assoc]

end CutBefore

end LinkedDocs.Selector
