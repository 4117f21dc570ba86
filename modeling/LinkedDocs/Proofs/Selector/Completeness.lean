import LinkedDocs.Proofs.Outcome
import LinkedDocs.Proofs.Selector.Soundness

namespace LinkedDocs.Selector

/-- Lexemes that do not continue what stands before them. -/
inductive Stops (isOpen : Bool) : List Lexeme → Prop
  | nil : Stops isOpen []
  | comma {offset : Nat} {rest : List Lexeme} : Stops isOpen (⟨.comma, offset⟩ :: rest)
  | closeBracket {offset : Nat} {rest : List Lexeme} : Stops isOpen (⟨.closeBracket, offset⟩ :: rest)
  | closeBrace {offset : Nat} {rest : List Lexeme} : Stops isOpen (⟨.closeBrace, offset⟩ :: rest)
  | colon {offset : Nat} {rest : List Lexeme} (hclosed : isOpen = false) :
      Stops isOpen (⟨.colon, offset⟩ :: rest)

theorem Stops.closed {isOpen : Bool} {rest : List Lexeme} (h : Stops true rest) :
    Stops isOpen rest := by
  cases h with
  | nil => exact .nil
  | comma => exact .comma
  | closeBracket => exact .closeBracket
  | closeBrace => exact .closeBrace
  | colon hclosed => cases hclosed

/-- An outcome is a value and a rest. -/
def Delivers {α : Type} {lexemes : List Lexeme} (outcome : Except ParseError (α × Rest lexemes))
    (value : α) (rest : List Lexeme) : Prop :=
  ∃ left : Rest lexemes, outcome = .ok (value, left) ∧ left.1 = rest

section Delivers

variable {α β : Type} {lexemes following rest : List Lexeme}

theorem Delivers.bind {outcome : Except ParseError (α × Rest following)} {value : α}
    (h : Delivers outcome value rest)
    {next : α × Rest following → Except ParseError (β × Rest lexemes)} {result : β}
    {last : List Lexeme}
    (hnext : ∀ left : Rest following, left.1 = rest → Delivers (next (value, left)) result last) :
    Delivers (outcome >>= next) result last := by
  obtain ⟨left, rfl, hleft⟩ := h
  exact hnext left hleft

theorem Delivers.widen {outcome : Except ParseError (α × Rest lexemes)} {value : α}
    (h : Delivers outcome value rest) (lexeme : Lexeme) (f : α → β) :
    Delivers (do
      let (value, rest) ← outcome
      return (f value, rest.widen lexeme)) (f value) rest :=
  h.bind fun left hleft => ⟨left.widen lexeme, rfl, hleft⟩

end Delivers

section Complete

variable {source : Source} {rest : List Lexeme}

theorem delivers_of_stops {isOpen : Bool} (h : Stops isOpen rest) :
    Delivers (readSelector source rest) .identity rest := by
  cases h <;> unfold readSelector <;> exact ⟨.all _, rfl, rfl⟩

/-- Reading goes on after a token in front of a selector, unless it is a predicate's question. -/
theorem Prefixes.delivers {token : Token} {next selector : Selector} {lexemes : List Lexeme}
    (hfront : Prefixes source.symbols token next selector)
    (hnext : Delivers (readSelector source lexemes) next rest)
    (hquestion : ∀ lexeme ∈ lexemes.head?, lexeme.token ≠ .question) (offset : Nat) :
    Delivers (readSelector source (⟨token, offset⟩ :: lexemes)) selector rest := by
  unfold readSelector
  cases hfront with
  | field => exact hnext.widen _ _
  | shortcut => exact hnext.widen _ _
  | map => exact hnext.widen _ _
  | hardMap => exact hnext.widen _ _
  | index hvalue hfits =>
    simp only [decimalValue?_eq_some_iff.2 ⟨hvalue, hfits⟩]
    exact hnext.widen _ _
  | spliced hsymbol hchain =>
    simp only [hsymbol]
    refine hnext.bind fun left hleft => ?_
    simp only [hchain]
    exact ⟨_, rfl, hleft⟩
  | query hsymbol hobject =>
    simp only [hsymbol, hobject, if_true]
    exact hnext.widen _ _
  | filter hsymbol =>
    simp only [hsymbol]
    refine Delivers.widen (f := id) ?_ _
    unfold readPredicate
    split
    case h_1 mark branches => exact absurd rfl (hquestion _ rfl)
    case h_2 => exact hnext.bind fun left hleft => ⟨left, rfl, hleft⟩

theorem delivers_switch {token : String} {name : PredicateName} {accepted : Selector}
    {lexemes : List Lexeme} (hsymbol : source.symbols.get? token = some (.predicate name))
    (haccepted : Delivers (readSelector source lexemes) accepted rest) (hrest : Stops true rest)
    (offset mark : Nat) :
    Delivers (readSelector source (⟨.symbol token, offset⟩ :: ⟨.question, mark⟩ :: lexemes))
      (.switch name accepted .identity) rest := by
  unfold readSelector
  simp only [hsymbol]
  refine Delivers.widen (f := id) ?_ _
  unfold readPredicate
  refine haccepted.bind fun left hleft => ?_
  dsimp only
  split
  case h_1 colon following hcolon =>
    rw [hleft.symm.trans hcolon] at hrest
    cases hrest with
    | colon hclosed => cases hclosed
  case h_2 => exact ⟨_, rfl, hleft⟩

theorem delivers_switchElse {token : String} {name : PredicateName}
    {accepted otherwise : Selector} {lexemes following : List Lexeme} (offset mark colon : Nat)
    (hsymbol : source.symbols.get? token = some (.predicate name))
    (haccepted : Delivers (readSelector source lexemes) accepted (⟨.colon, colon⟩ :: following))
    (hotherwise : Delivers (readSelector source following) otherwise rest) :
    Delivers (readSelector source (⟨.symbol token, offset⟩ :: ⟨.question, mark⟩ :: lexemes))
      (.switch name accepted otherwise) rest := by
  unfold readSelector
  simp only [hsymbol]
  refine Delivers.widen (f := id) ?_ _
  unfold readPredicate
  refine haccepted.bind fun left hleft => ?_
  dsimp only
  split
  case h_1 offset' following' hcolon =>
    cases hleft.symm.trans hcolon
    exact hotherwise.bind fun last hlast => ⟨_, rfl, hlast⟩
  case h_2 hother => exact absurd hleft (hother colon following)

theorem delivers_tuple {items : List Selector} {lexemes : List Lexeme}
    (hitems : Delivers (readItems source lexemes) items rest) (offset : Nat) :
    Delivers (readSelector source (⟨.openBracket, offset⟩ :: lexemes)) (.tuple items) rest := by
  unfold readSelector
  exact hitems.widen _ _

theorem delivers_object {entries : List (ObjectKey × Selector)} {lexemes : List Lexeme}
    (hentries : Delivers (readEntries source lexemes) entries rest) (offset : Nat) :
    Delivers (readSelector source (⟨.openBrace, offset⟩ :: lexemes)) (.ofEntries entries) rest := by
  unfold readSelector
  exact hentries.widen _ _

/-- A tuple is read up to its closing bracket, whatever follows it. -/
theorem delivers_bracketed {tokens : List Token} {items : List Selector}
    (hitems : ∀ {lexemes : List Lexeme} {close : Nat}, lexemes.map Lexeme.token = tokens →
      Delivers (readItems source (lexemes ++ ⟨.closeBracket, close⟩ :: rest)) items rest)
    {consumed : List Lexeme}
    (hconsumed : consumed.map Lexeme.token = .openBracket :: (tokens ++ [.closeBracket])) :
    Delivers (readSelector source (consumed ++ rest)) (.tuple items) rest := by
  obtain ⟨⟨_, offset⟩, others, rfl, rfl, hothers⟩ := List.map_eq_cons_iff.1 hconsumed
  obtain ⟨lexemes, last, rfl, htokens, hlast⟩ := List.map_eq_append_iff.1 hothers
  obtain ⟨⟨_, close⟩, rfl, rfl⟩ := List.map_eq_singleton_iff.1 hlast
  rw [List.cons_append, List.append_assoc]
  exact delivers_tuple (hitems htokens) offset

/-- An object is read up to its closing brace, whatever follows it. -/
theorem delivers_braced {tokens : List Token} {entries : List (ObjectKey × Selector)}
    (hentries : ∀ {lexemes : List Lexeme} {close : Nat}, lexemes.map Lexeme.token = tokens →
      Delivers (readEntries source (lexemes ++ ⟨.closeBrace, close⟩ :: rest)) entries rest)
    {consumed : List Lexeme}
    (hconsumed : consumed.map Lexeme.token = .openBrace :: (tokens ++ [.closeBrace])) :
    Delivers (readSelector source (consumed ++ rest)) (.ofEntries entries) rest := by
  obtain ⟨⟨_, offset⟩, others, rfl, rfl, hothers⟩ := List.map_eq_cons_iff.1 hconsumed
  obtain ⟨lexemes, last, rfl, htokens, hlast⟩ := List.map_eq_append_iff.1 hothers
  obtain ⟨⟨_, close⟩, rfl, rfl⟩ := List.map_eq_singleton_iff.1 hlast
  rw [List.cons_append, List.append_assoc]
  exact delivers_object (hentries htokens) offset

theorem delivers_lastItem {item : Selector} {lexemes : List Lexeme} {close : Nat}
    (hitem : Delivers (readSelector source lexemes) item (⟨.closeBracket, close⟩ :: rest)) :
    Delivers (readItems source lexemes) [item] rest := by
  unfold readItems
  refine hitem.bind fun left hleft => ?_
  dsimp only
  split
  case h_1 offset following hcomma => cases hleft.symm.trans hcomma
  case h_2 offset following hclose =>
    cases hleft.symm.trans hclose
    exact ⟨_, rfl, rfl⟩
  case h_3 _ hclose => exact absurd hleft (hclose close rest)

theorem delivers_consItem {item : Selector} {items : List Selector}
    {lexemes following : List Lexeme} {comma : Nat}
    (hitem : Delivers (readSelector source lexemes) item (⟨.comma, comma⟩ :: following))
    (hitems : Delivers (readItems source following) items rest) :
    Delivers (readItems source lexemes) (item :: items) rest := by
  unfold readItems
  refine hitem.bind fun left hleft => ?_
  dsimp only
  split
  case h_1 offset following' hcomma =>
    cases hleft.symm.trans hcomma
    exact hitems.bind fun last hlast => ⟨_, rfl, hlast⟩
  case h_2 offset following' hclose => cases hleft.symm.trans hclose
  case h_3 hcomma _ => exact absurd hleft (hcomma comma following)

theorem delivers_entries (key : ObjectKey) (lexemes : List Lexeme) (offset : Nat)
    {entries : List (ObjectKey × Selector)}
    (hentry : Delivers (readEntry source key lexemes) entries rest) :
    Delivers (readEntries source (⟨keyToken key, offset⟩ :: lexemes)) entries rest := by
  cases key with
  | field name =>
    unfold readEntries keyToken
    exact hentry.widen _ id
  | wildcard =>
    unfold readEntries keyToken
    exact hentry.widen _ id

theorem delivers_lastEntry (key : ObjectKey) {selector : Selector} {lexemes : List Lexeme}
    {close : Nat}
    (hselector : Delivers (readSelector source lexemes) selector (⟨.closeBrace, close⟩ :: rest)) :
    Delivers (readEntry source key lexemes) [(key, selector)] rest := by
  unfold readEntry
  refine hselector.bind fun left hleft => ?_
  dsimp only
  split
  case h_1 offset following hcomma => cases hleft.symm.trans hcomma
  case h_2 offset following hclose =>
    cases hleft.symm.trans hclose
    exact ⟨_, rfl, rfl⟩
  case h_3 _ hclose => exact absurd hleft (hclose close rest)

theorem delivers_consEntry (key : ObjectKey) (comma : Nat) {selector : Selector}
    {entries : List (ObjectKey × Selector)} {lexemes following : List Lexeme}
    (hselector : Delivers (readSelector source lexemes) selector (⟨.comma, comma⟩ :: following))
    (hentries : Delivers (readEntries source following) entries rest) :
    Delivers (readEntry source key lexemes) ((key, selector) :: entries) rest := by
  unfold readEntry
  refine hselector.bind fun left hleft => ?_
  dsimp only
  split
  case h_1 offset following' hcomma =>
    cases hleft.symm.trans hcomma
    exact hentries.bind fun last hlast => ⟨_, rfl, hlast⟩
  case h_2 offset following' hclose => cases hleft.symm.trans hclose
  case h_3 hcomma _ => exact absurd hleft (hcomma comma following)

end Complete

section Derivations

variable {source : Source}

theorem Prefixes.token_ne_question {symbols : SymbolTable} {token : Token}
    {next selector : Selector} (h : Prefixes symbols token next selector) : token ≠ .question := by
  cases h <;> simp

theorem Derives.head_ne_question {symbols : SymbolTable} {isOpen : Bool} {tokens : List Token}
    {selector : Selector} (h : Derives symbols isOpen tokens selector) {lexemes rest : List Lexeme}
    (hlexemes : lexemes.map Lexeme.token = tokens) (hrest : Stops isOpen rest) :
    ∀ lexeme ∈ (lexemes ++ rest).head?, lexeme.token ≠ .question := by
  cases lexemes with
  | nil => cases hrest <;> simp
  | cons first others =>
    intro lexeme hlexeme
    obtain rfl : first = lexeme := by simpa using hlexeme
    cases h with
    | identity => cases hlexemes
    | prefixed hfront =>
      rw [(List.cons.inj hlexemes).1]
      exact hfront.token_ne_question
    | _ =>
      rw [(List.cons.inj hlexemes).1]
      simp

mutual

theorem Derives.delivers {isOpen : Bool} {tokens : List Token} {selector : Selector} :
    Derives source.symbols isOpen tokens selector → ∀ {consumed rest : List Lexeme},
      consumed.map Lexeme.token = tokens → Stops isOpen rest →
        Delivers (readSelector source (consumed ++ rest)) selector rest
  | .identity, _, _, hconsumed, hrest => by
    rw [List.map_eq_nil_iff.1 hconsumed]
    exact delivers_of_stops hrest
  | .prefixed hfront hnext, _, _, hconsumed, hrest => by
    obtain ⟨⟨token, offset⟩, lexemes, rfl, rfl, htokens⟩ := List.map_eq_cons_iff.1 hconsumed
    have hquestion := hnext.head_ne_question htokens hrest
    exact hfront.delivers (hnext.delivers htokens hrest) hquestion offset
  | .switch hsymbol haccepted, _, _, hconsumed, hrest => by
    obtain ⟨⟨_, offset⟩, others, rfl, rfl, hothers⟩ := List.map_eq_cons_iff.1 hconsumed
    obtain ⟨⟨_, mark⟩, lexemes, rfl, rfl, htokens⟩ := List.map_eq_cons_iff.1 hothers
    exact delivers_switch hsymbol (haccepted.delivers htokens hrest.closed) hrest offset mark
  | .switchElse hsymbol haccepted hotherwise, _, _, hconsumed, hrest => by
    obtain ⟨⟨_, offset⟩, others, rfl, rfl, hothers⟩ := List.map_eq_cons_iff.1 hconsumed
    obtain ⟨⟨_, mark⟩, branches, rfl, rfl, hbranches⟩ := List.map_eq_cons_iff.1 hothers
    obtain ⟨lexemes, last, rfl, htokens, hlast⟩ := List.map_eq_append_iff.1 hbranches
    obtain ⟨⟨_, colon⟩, following, rfl, rfl, hfollowing⟩ := List.map_eq_cons_iff.1 hlast
    have hsecond := hotherwise.delivers hfollowing hrest
    rw [List.cons_append, List.cons_append, List.append_assoc, List.cons_append]
    refine delivers_switchElse offset mark colon hsymbol ?_ hsecond
    exact haccepted.delivers htokens (.colon rfl)
  | .tuple hitems, _, _, hconsumed, _ =>
    delivers_bracketed (fun htokens => hitems.delivers htokens) hconsumed
  | .object hwritten hmerges, _, _, hconsumed, _ => by
    rw [← merges_iff.1 hmerges]
    exact delivers_braced (fun htokens => hwritten.delivers htokens) hconsumed

theorem DerivesItems.delivers {tokens : List Token} {items : List Selector} :
    DerivesItems source.symbols tokens items → ∀ {consumed rest : List Lexeme} {close : Nat},
      consumed.map Lexeme.token = tokens →
        Delivers (readItems source (consumed ++ ⟨.closeBracket, close⟩ :: rest)) items rest
  | .last hitem, _, _, _, hconsumed => delivers_lastItem (hitem.delivers hconsumed .closeBracket)
  | .more hitem hitems, _, _, _, hconsumed => by
    obtain ⟨lexemes, others, rfl, htokens, hothers⟩ := List.map_eq_append_iff.1 hconsumed
    obtain ⟨⟨_, comma⟩, following, rfl, rfl, hfollowing⟩ := List.map_eq_cons_iff.1 hothers
    rw [List.append_assoc]
    exact delivers_consItem (hitem.delivers htokens .comma) (hitems.delivers hfollowing)

theorem DerivesEntries.delivers {tokens : List Token} {entries : List (ObjectKey × Selector)} :
    DerivesEntries source.symbols tokens entries → ∀ {consumed rest : List Lexeme} {close : Nat},
      consumed.map Lexeme.token = tokens →
        Delivers (readEntries source (consumed ++ ⟨.closeBrace, close⟩ :: rest)) entries rest
  | .last hselector, _, _, _, hconsumed => by
    obtain ⟨⟨_, offset⟩, lexemes, rfl, rfl, htokens⟩ := List.map_eq_cons_iff.1 hconsumed
    apply delivers_entries
    apply delivers_lastEntry
    exact hselector.delivers htokens .closeBrace
  | .more hselector hentries, _, _, _, hconsumed => by
    obtain ⟨⟨_, offset⟩, others, rfl, rfl, hothers⟩ := List.map_eq_cons_iff.1 hconsumed
    obtain ⟨lexemes, last, rfl, htokens, hlast⟩ := List.map_eq_append_iff.1 hothers
    obtain ⟨⟨_, comma⟩, following, rfl, rfl, hfollowing⟩ := List.map_eq_cons_iff.1 hlast
    rw [List.cons_append, List.append_assoc]
    apply delivers_entries
    exact delivers_consEntry _ comma (hselector.delivers htokens .comma)
      (hentries.delivers hfollowing)

end

end Derivations

/-- A text that is parsed is cut into tokens that derive its selector. -/
theorem exists_derives_of_parseWith {symbols : SymbolTable} {text : String} {selector : Selector}
    (hparse : parseWith symbols text = .ok selector) :
    ∃ tokens isOpen, Cut text.toList tokens ∧ Derives symbols isOpen tokens selector := by
  obtain ⟨⟨selected, rest⟩, hread, hrest⟩ := bind_eq_ok_iff.1 hparse
  obtain ⟨consumed, isOpen, hlexemes, hderives, -⟩ := yields_readSelector _ _ _ hread
  dsimp only at hrest
  split at hrest
  case h_1 hnil =>
    cases hrest
    rw [hnil, List.append_nil] at hlexemes
    refine ⟨_, isOpen, ?_, hderives⟩
    rw [← hlexemes]
    refine cut_lexFrom fun lexeme hlexeme strange => ?_
    exact hderives.token_ne_other _ (List.mem_map_of_mem (hlexemes ▸ hlexeme)) strange
  case h_2 => cases hrest

/-- A text is parsed when its lexemes are read to the last one. -/
theorem parseWith_of_readSelector {symbols : SymbolTable} {text : String} {lexemes : List Lexeme}
    {selector : Selector} (hlex : lex text = lexemes)
    (hread : readSelector ⟨symbols, byteCount text.toList⟩ lexemes =
      .ok (selector, ⟨[], Nat.zero_le _⟩)) :
    parseWith symbols text = .ok selector := by
  subst hlex
  unfold parseWith
  dsimp only
  rw [hread]
  rfl

/-- A text is parsed when it is cut into tokens that derive a selector. -/
theorem Derives.parseWith {symbols : SymbolTable} {text : String} {tokens : List Token}
    {isOpen : Bool} {selector : Selector} (h : Derives symbols isOpen tokens selector)
    (hcut : Cut text.toList tokens) : parseWith symbols text = .ok selector := by
  let source : Source := ⟨symbols, byteCount text.toList⟩
  have hdelivers : Delivers (readSelector source (lex text ++ [])) selector [] :=
    h.delivers (hcut.map_token_lexFrom 0) .nil
  rw [List.append_nil] at hdelivers
  obtain ⟨⟨_, _⟩, hread, rfl⟩ := hdelivers
  exact parseWith_of_readSelector rfl hread

/-- The texts that are selectors: cut into tokens by longest match, they derive one. -/
theorem parseWith_eq_ok_iff {symbols : SymbolTable} {text : String} {selector : Selector} :
    parseWith symbols text = .ok selector ↔
      ∃ tokens isOpen, Cut text.toList tokens ∧ Derives symbols isOpen tokens selector := by
  constructor
  · exact exists_derives_of_parseWith
  · rintro ⟨tokens, isOpen, hcut, hderives⟩
    exact hderives.parseWith hcut

end LinkedDocs.Selector
