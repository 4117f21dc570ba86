import LinkedDocs.Proofs.Selector.Chaining
import LinkedDocs.Proofs.Selector.Separation

/-!
Continuing a selector against writing another one after its text. The two agree, unless the text
ends in an explicit but empty branch, which the selector does not remember, or symbols that stand
for nothing are written after a closing bracket.
-/

namespace LinkedDocs.Selector

def tokensOf (text : String) : List Token :=
  (lex text).map Lexeme.token

theorem Cut.tokensOf_eq {text : String} {found : List Token} (h : Cut text.toList found) :
    tokensOf text = found :=
  h.map_token_lexFrom 0

/-- A symbol that stands for the identity. -/
def Token.isSilent (symbols : SymbolTable) : Token → Bool
  | .symbol token =>
    match symbols.get? token with
    | some (.selector nested) => nested.isIdentity
    | _ => false
  | _ => false

/-- The tokens end in a colon, apart from symbols that stand for the identity. -/
def endsInEmptyBranch (symbols : SymbolTable) (tokens : List Token) : Bool :=
  (tokens.reverse.dropWhile (Token.isSilent symbols)).head? == some .colon

/-- The tokens end in a closing bracket or brace. -/
def endsClosed (tokens : List Token) : Bool :=
  tokens.getLast? == some .closeBracket || tokens.getLast? == some .closeBrace

theorem endsInEmptyBranch_append {symbols : SymbolTable} {last : List Token}
    (h : endsInEmptyBranch symbols last) (front : List Token) :
    endsInEmptyBranch symbols (front ++ last) := by
  have hhead := eq_of_beq h
  have hne : last.reverse.dropWhile (Token.isSilent symbols) ≠ [] := by
    intro hnil
    rw [hnil] at hhead
    cases hhead
  rw [endsInEmptyBranch, List.reverse_append, List.dropWhile_append]
  simp [hhead, hne]

theorem endsInEmptyBranch_colon {symbols : SymbolTable} {last : List Token}
    (h : ∀ token ∈ last, token.isSilent symbols) (front : List Token) :
    endsInEmptyBranch symbols (front ++ .colon :: last) := by
  refine endsInEmptyBranch_append ?_ front
  have hlast : last.reverse.dropWhile (Token.isSilent symbols) = [] := by
    rw [List.dropWhile_eq_nil_iff]
    simpa using h
  rw [endsInEmptyBranch, List.reverse_cons, List.dropWhile_append, hlast]
  rfl

theorem endsClosed_append {last : List Token} (h : endsClosed last) (front : List Token) :
    endsClosed (front ++ last) := by
  have hlast : (front ++ last).getLast? = last.getLast? := by
    cases last with
    | nil => cases h
    | cons token last => exact List.getLast?_append_cons front token last
  rwa [endsClosed, hlast]

section

variable {symbols : SymbolTable}

theorem Prefixes.eq_identity {token : Token} {next : Selector}
    (h : Prefixes symbols token next .identity) : token.isSilent symbols ∧ next = .identity := by
  cases h with
  | @spliced token nested _ _ hsymbol hchain =>
    by_cases hnested : nested = .identity
    · subst hnested
      rw [identity_chain] at hchain
      refine ⟨?_, Option.some.inj hchain⟩
      simp [Token.isSilent, hsymbol, isIdentity]
    · rw [chain] at hchain
      split at hchain
      · exact absurd (Option.some.inj hchain) hnested
      · exact absurd rfl (extend_ne_identity hnested hchain)

/-- Only symbols that stand for the identity are written for the identity. -/
theorem Derives.isSilent {isOpen : Bool} {tokens : List Token} {selector : Selector} :
    Derives symbols isOpen tokens selector → selector = .identity →
      ∀ token ∈ tokens, token.isSilent symbols
  | .identity, _ => by simp
  | .prefixed hfront hnext, heq => by
    subst heq
    obtain ⟨htoken, hidentity⟩ := hfront.eq_identity
    have hrest := hnext.isSilent hidentity
    exact List.forall_mem_cons.2 ⟨htoken, hrest⟩

theorem Derives.emptyBranch {isOpen : Bool} {tokens : List Token}
    (h : Derives symbols isOpen tokens .identity) (front : List Token) :
    endsInEmptyBranch symbols (front ++ .colon :: tokens) :=
  endsInEmptyBranch_colon (h.isSilent rfl) front

theorem Derives.eq_false_of_nil {isOpen : Bool} {selector : Selector}
    (h : Derives symbols isOpen [] selector) : isOpen = false := by
  cases h
  rfl

/-- Where a selector can be continued, its continuation is written by writing both. -/
theorem Derives.append {isOpen isOpen' : Bool} {tokens others : List Token}
    {first second selector : Selector} (hsecond : Derives symbols isOpen' others second) :
    Derives symbols isOpen tokens first →
      (endsInEmptyBranch symbols tokens → second = .identity) →
      (endsClosed tokens → second = .identity → others = []) →
      first.chain second = some selector →
      Derives symbols (isOpen || isOpen') (tokens ++ others) selector
  | .identity, _, _, hchain => by
    rw [identity_chain] at hchain
    cases hchain
    exact hsecond
  | .prefixed hfront hnext, hbranch, hclosed, hchain => by
    obtain ⟨after, hafter, hfront'⟩ := hfront.chain_iff.1 hchain
    refine .prefixed hfront' (hsecond.append hnext (fun h => hbranch ?_) (fun h => hclosed ?_) hafter)
    · exact endsInEmptyBranch_append h [_]
    · exact endsClosed_append h [_]
  | .switch hsymbol haccepted, hbranch, hclosed, hchain => by
    obtain ⟨after, hafter, rfl⟩ := chain_switch_iff.1 hchain
    refine .switch hsymbol
      (hsecond.append haccepted (fun h => hbranch ?_) (fun h => hclosed ?_) hafter)
    · exact endsInEmptyBranch_append h [_, _]
    · exact endsClosed_append h [_, _]
  | @Derives.switchElse _ _ token _ tokens others _ otherwise hsymbol haccepted hotherwise,
      hbranch, hclosed, hchain => by
    have hempty : otherwise = .identity → second = .identity := by
      rintro rfl
      exact hbranch (hotherwise.emptyBranch (.symbol token :: .question :: tokens))
    obtain ⟨after, hafter, rfl⟩ := (chain_switchElse_iff hempty).1 hchain
    have hfront : Token.symbol token :: .question :: (tokens ++ .colon :: others) =
        (.symbol token :: .question :: tokens ++ [.colon]) ++ others := by simp
    rw [hfront] at hbranch hclosed
    have hbranches := hsecond.append hotherwise (fun h => hbranch (endsInEmptyBranch_append h _))
      (fun h => hclosed (endsClosed_append h _)) hafter
    simpa using Derives.switchElse hsymbol haccepted hbranches
  | .tuple hitems, _, hclosed, hchain => by
    obtain ⟨rfl, rfl⟩ := (chain_terminal_iff fun _ => rfl).1 hchain
    obtain rfl := hclosed (endsClosed_append rfl (_ :: _)) rfl
    rw [hsecond.eq_false_of_nil, List.append_nil]
    exact .tuple hitems
  | .object hwritten hmerges, _, hclosed, hchain => by
    obtain ⟨rfl, rfl⟩ := (chain_terminal_iff fun _ => rfl).1 hchain
    obtain rfl := hclosed (endsClosed_append rfl (_ :: _)) rfl
    rw [hsecond.eq_false_of_nil, List.append_nil]
    exact .object hwritten hmerges

end

theorem Delivers.yields {α : Type} {lexemes rest : List Lexeme} {P : α → List Lexeme → Prop}
    {outcome : Except ParseError (α × Rest lexemes)} {value : α} (h : Delivers outcome value rest)
    (hvalue : P value rest) : Yields P outcome := by
  obtain ⟨left, rfl, rfl⟩ := h
  exact yields_pure hvalue

theorem Derives.head_ne {symbols : SymbolTable} {isOpen : Bool} {tokens : List Token}
    {selector : Selector} (h : Derives symbols isOpen tokens selector) :
    ∀ token ∈ tokens.head?, token ≠ .question ∧ token ≠ .colon := by
  intro token htoken
  cases h with
  | identity => cases htoken
  | prefixed hfront =>
    cases htoken
    cases hfront <;> simp
  | _ =>
    cases htoken
    simp

section

variable {source : Source} {P : Selector → List Lexeme → Prop} {lexemes : List Lexeme}

theorem Prefixes.yields {token : Token} {next selector : Selector}
    (hfront : Prefixes source.symbols token next selector)
    (hnext : Yields P (readSelector source lexemes))
    (hquestion : ∀ lexeme ∈ lexemes.head?, lexeme.token ≠ .question) (offset : Nat) :
    Yields (fun selector rest => ∃ after, Prefixes source.symbols token after selector ∧ P after rest)
      (readSelector source (⟨token, offset⟩ :: lexemes)) := by
  unfold readSelector
  cases hfront with
  | field => exact hnext.widen _ fun after _ h => ⟨after, .field, h⟩
  | shortcut => exact hnext.widen _ fun after _ h => ⟨after, .shortcut, h⟩
  | map => exact hnext.widen _ fun after _ h => ⟨after, .map, h⟩
  | hardMap => exact hnext.widen _ fun after _ h => ⟨after, .hardMap, h⟩
  | index hvalue hfits =>
    simp only [decimalValue?_eq_some_iff.2 ⟨hvalue, hfits⟩]
    exact hnext.widen _ fun after _ h => ⟨after, .index hvalue hfits, h⟩
  | spliced hsymbol =>
    simp only [hsymbol]
    refine hnext.bind fun after left hafter => ?_
    dsimp only
    split
    case h_1 selector hchain => exact yields_pure ⟨after, .spliced hsymbol hchain, hafter⟩
    case h_2 => exact yields_error _
  | query hsymbol hobject =>
    simp only [hsymbol, hobject, if_true]
    exact hnext.widen _ fun after _ h => ⟨after, .query hsymbol hobject, h⟩
  | filter hsymbol =>
    simp only [hsymbol]
    refine Yields.widen (f := id) ?_ _ fun _ _ h => h
    unfold readPredicate
    split
    case h_1 mark branches => exact absurd rfl (hquestion _ rfl)
    case h_2 => exact hnext.bind fun after left hafter => yields_pure ⟨after, .filter hsymbol, hafter⟩

theorem yields_switch {token : String} {name : PredicateName}
    (hsymbol : source.symbols.get? token = some (.predicate name))
    (haccepted : Yields P (readSelector source lexemes))
    (hcolon : ∀ accepted rest, P accepted rest → ∀ lexeme ∈ rest.head?, lexeme.token ≠ .colon)
    (offset mark : Nat) :
    Yields (fun selector rest => ∃ accepted, switch name accepted .identity = selector ∧
        P accepted rest)
      (readSelector source (⟨.symbol token, offset⟩ :: ⟨.question, mark⟩ :: lexemes)) := by
  unfold readSelector
  simp only [hsymbol]
  refine Yields.widen (f := id) ?_ _ fun _ _ h => h
  unfold readPredicate
  refine haccepted.bind fun accepted left haccepted => ?_
  dsimp only
  split
  case h_1 colon following hleft =>
    refine absurd rfl (hcolon accepted left.1 haccepted ⟨.colon, colon⟩ ?_)
    rw [hleft]
    rfl
  case h_2 => exact yields_pure ⟨accepted, rfl, haccepted⟩

theorem yields_switchElse {token : String} {name : PredicateName} {accepted : Selector}
    {following : List Lexeme} {colon : Nat}
    (hsymbol : source.symbols.get? token = some (.predicate name))
    (haccepted : Delivers (readSelector source lexemes) accepted (⟨.colon, colon⟩ :: following))
    (hotherwise : Yields P (readSelector source following)) (offset mark : Nat) :
    Yields (fun selector rest => ∃ otherwise, switch name accepted otherwise = selector ∧
        P otherwise rest)
      (readSelector source (⟨.symbol token, offset⟩ :: ⟨.question, mark⟩ :: lexemes)) := by
  unfold readSelector
  simp only [hsymbol]
  refine Yields.widen (f := id) ?_ _ fun _ _ h => h
  unfold readPredicate
  obtain ⟨left, hread, hleft⟩ := haccepted
  rw [hread, ok_bind]
  dsimp only
  split
  case h_1 colon' following' hcolon =>
    cases hleft.symm.trans hcolon
    exact hotherwise.bind fun otherwise last hotherwise => yields_pure ⟨otherwise, rfl, hotherwise⟩
  case h_2 hother => exact absurd hleft (hother colon following)

end

/-- What is read of a text and another one behind it: the first one's selector continued by the
second one's, or less than everything. -/
structure Continues (following : List Lexeme) (first second selector : Selector)
    (rest : List Lexeme) : Prop where
  stops : rest = [] ∨ rest = following
  chain : rest = [] → first.chain second = some selector

section

variable {source : Source} {following : List Lexeme} {second : Selector}

theorem Continues.terminal {first : Selector}
    (hsecond : Delivers (readSelector source following) second []) :
    Continues following first second first following where
  stops := .inr rfl
  chain := by
    rintro rfl
    obtain ⟨left, hread, -⟩ := hsecond
    unfold readSelector at hread
    cases hread
    exact chain_identity first

theorem Yields.continues {first next : Selector} {step : Selector → Selector → Prop}
    {lexemes : List Lexeme} {outcome : Except ParseError (Selector × Rest lexemes)}
    (h : Yields (fun selector rest => ∃ after, step after selector ∧
      Continues following next second after rest) outcome)
    (hchain : ∀ {selector}, first.chain second = some selector ↔
      ∃ after, next.chain second = some after ∧ step after selector) :
    Yields (Continues following first second) outcome := by
  intro selector rest hselector
  obtain ⟨after, hafter, hcontinues⟩ := h selector rest hselector
  exact ⟨hcontinues.stops, fun hrest => hchain.2 ⟨after, hcontinues.chain hrest, hafter⟩⟩

/-- Reading goes through the first text up to its end and then on as the second one is read. -/
theorem Derives.yields_continues {isOpen : Bool} {tokens : List Token} {first : Selector}
    (hsecond : Delivers (readSelector source following) second [])
    (hhead : ∀ lexeme ∈ following.head?, lexeme.token ≠ .question ∧ lexeme.token ≠ .colon) :
    Derives source.symbols isOpen tokens first →
      (endsInEmptyBranch source.symbols tokens → second = .identity) →
      ∀ {consumed : List Lexeme}, consumed.map Lexeme.token = tokens →
        Yields (Continues following first second) (readSelector source (consumed ++ following))
  | .identity, _, _, hconsumed => by
    rw [List.map_eq_nil_iff.1 hconsumed]
    exact hsecond.yields ⟨.inl rfl, fun _ => identity_chain second⟩
  | .prefixed hfront hnext, hbranch, _, hconsumed => by
    obtain ⟨⟨token, offset⟩, lexemes, rfl, rfl, htokens⟩ := List.map_eq_cons_iff.1 hconsumed
    have hquestion : ∀ lexeme ∈ (lexemes ++ following).head?, lexeme.token ≠ .question := by
      cases lexemes with
      | nil => exact fun lexeme hlexeme => (hhead lexeme hlexeme).1
      | cons lexeme others =>
        subst htokens
        simpa using (hnext.head_ne lexeme.token rfl).1
    have hread := hnext.yields_continues hsecond hhead
      (fun h => hbranch (endsInEmptyBranch_append h [_])) htokens
    exact Yields.continues (hfront.yields hread hquestion offset) hfront.chain_iff
  | .switch hsymbol haccepted, hbranch, _, hconsumed => by
    obtain ⟨⟨_, offset⟩, others, rfl, rfl, hothers⟩ := List.map_eq_cons_iff.1 hconsumed
    obtain ⟨⟨_, mark⟩, lexemes, rfl, rfl, htokens⟩ := List.map_eq_cons_iff.1 hothers
    have hread := haccepted.yields_continues hsecond hhead
      (fun h => hbranch (endsInEmptyBranch_append h [_, _])) htokens
    refine Yields.continues (yields_switch hsymbol hread ?_ offset mark) chain_switch_iff
    intro accepted rest hcontinues lexeme hlexeme
    rcases hcontinues.stops with rfl | rfl
    · cases hlexeme
    · exact (hhead lexeme hlexeme).2
  | @Derives.switchElse _ _ token _ tokens others _ otherwise hsymbol haccepted hotherwise,
      hbranch, _, hconsumed => by
    have hempty : otherwise = .identity → second = .identity := by
      rintro rfl
      exact hbranch (hotherwise.emptyBranch (.symbol token :: .question :: tokens))
    have hinner : endsInEmptyBranch source.symbols others → second = .identity := by
      intro h
      have hfront := endsInEmptyBranch_append h (.symbol token :: .question :: tokens ++ [.colon])
      exact hbranch (by simpa using hfront)
    obtain ⟨⟨_, offset⟩, behind, rfl, rfl, hbehind⟩ := List.map_eq_cons_iff.1 hconsumed
    obtain ⟨⟨_, mark⟩, branches, rfl, rfl, hbranches⟩ := List.map_eq_cons_iff.1 hbehind
    obtain ⟨lexemes, last, rfl, htokens, hlast⟩ := List.map_eq_append_iff.1 hbranches
    obtain ⟨⟨_, colon⟩, branch, rfl, rfl, hlast'⟩ := List.map_eq_cons_iff.1 hlast
    have hread := hotherwise.yields_continues hsecond hhead hinner hlast'
    rw [List.cons_append, List.cons_append, List.append_assoc, List.cons_append]
    have hfirst : Delivers (readSelector source (lexemes ++ ⟨.colon, colon⟩ :: (branch ++ following)))
        _ _ := haccepted.delivers htokens (.colon rfl)
    exact Yields.continues (yields_switchElse hsymbol hfirst hread offset mark)
      (chain_switchElse_iff hempty)
  | .tuple hitems, _, _, hconsumed =>
    (delivers_bracketed (fun htokens => hitems.delivers htokens) hconsumed).yields
      (.terminal hsecond)
  | .object hwritten hmerges, _, _, hconsumed => by
    rw [← merges_iff.1 hmerges]
    exact (delivers_braced (fun htokens => hwritten.delivers htokens) hconsumed).yields
      (.terminal hsecond)

end

theorem parseWith_eq_ok_iff_delivers {symbols : SymbolTable} {text : String} {selector : Selector} :
    parseWith symbols text = .ok selector ↔
      Delivers (readSelector ⟨symbols, byteCount text.toList⟩ (lex text)) selector [] := by
  constructor
  · intro hparse
    obtain ⟨⟨selected, rest⟩, hread, hrest⟩ := bind_eq_ok_iff.1 hparse
    dsimp only at hrest
    split at hrest
    case h_1 hnil =>
      cases hrest
      exact ⟨rest, hread, hnil⟩
    case h_2 => cases hrest
  · rintro ⟨⟨_, _⟩, hread, rfl⟩
    exact parseWith_of_readSelector rfl hread

theorem parseWith_of_derives {symbols : SymbolTable} {text : String} {found : List Token}
    {isOpen : Bool} {selector : Selector} (htokens : tokensOf text = found)
    (h : Derives symbols isOpen found selector) : parseWith symbols text = .ok selector := by
  subst htokens
  refine h.parseWith (cut_lexFrom fun lexeme hlexeme strange => ?_)
  exact h.token_ne_other _ (List.mem_map_of_mem hlexeme) strange

/-- A text written behind another one continues its selector, if the other one does not end in an
explicit but empty branch and no symbol for the identity is written behind a closing bracket. -/
theorem parseWith_blank_eq_ok_iff_chain {symbols : SymbolTable} {first second : String}
    {left right : Selector} (hleft : parseWith symbols first = .ok left)
    (hright : parseWith symbols second = .ok right)
    (hbranch : endsInEmptyBranch symbols (tokensOf first) → right = .identity)
    (hclosed : endsClosed (tokensOf first) → right = .identity → tokensOf second = [])
    (selector : Selector) :
    parseWith symbols (first ++ " " ++ second) = .ok selector ↔
      left.chain right = some selector := by
  obtain ⟨front, isOpen, hfront, hfirst⟩ := exists_derives_of_parseWith hleft
  obtain ⟨back, isOpen', hback, hsecond⟩ := exists_derives_of_parseWith hright
  rw [hfront.tokensOf_eq] at hbranch hclosed
  rw [hback.tokensOf_eq] at hclosed
  have hcut : Cut (first ++ " " ++ second).toList (front ++ back) :=
    cut_blank_iff.2 ⟨front, back, rfl, hfront, hback⟩
  constructor
  · intro hparse
    obtain ⟨lexemes, following, hlex, hlexemes, hfollowing⟩ :=
      List.map_eq_append_iff.1 hcut.tokensOf_eq
    have hread := parseWith_eq_ok_iff_delivers.1 hparse
    rw [hlex] at hread
    have hhead : ∀ lexeme ∈ following.head?, lexeme.token ≠ .question ∧ lexeme.token ≠ .colon := by
      intro lexeme hlexeme
      refine hsecond.head_ne lexeme.token ?_
      rw [← hfollowing, List.head?_map, hlexeme]
      rfl
    let source : Source := ⟨symbols, byteCount (first ++ " " ++ second).toList⟩
    have hdelivers : Delivers (readSelector source (following ++ [])) right [] :=
      hsecond.delivers hfollowing .nil
    rw [List.append_nil] at hdelivers
    obtain ⟨left, hread, hleft⟩ := hread
    exact (hfirst.yields_continues hdelivers hhead hbranch hlexemes selector left hread).chain hleft
  · intro hchain
    have hderives := hsecond.append hfirst hbranch hclosed hchain
    exact hderives.parseWith hcut

def predicateSymbols : SymbolTable :=
  .ofList [("@1", .predicate "p")]

theorem derives_field (symbols : SymbolTable) (name : String) :
    Derives symbols false [.field name] (.field name .identity) :=
  .prefixed .field .identity

/-- A switch with both branches written is continued in the second one. -/
theorem parseWith_blank_switch :
    parseWith predicateSymbols ("@1 ? a : c" ++ " " ++ "b") =
      .ok (.switch "p" (.field "a" .identity) (.field "c" (.field "b" .identity))) := by
  have hswitch : Derives predicateSymbols false
      (.symbol "@1" :: .question :: ([.field "a"] ++ .colon :: [.field "c"])) _ :=
    .switchElse rfl (derives_field _ "a") (derives_field _ "c")
  have hfirst : parseWith predicateSymbols "@1 ? a : c" =
      .ok (.switch "p" (.field "a" .identity) (.field "c" .identity)) :=
    parseWith_of_derives (by decide +kernel) hswitch
  have hsecond : parseWith predicateSymbols "b" = .ok (.field "b" .identity) :=
    parseWith_of_derives (by decide +kernel) (derives_field _ "b")
  refine (parseWith_blank_eq_ok_iff_chain hfirst hsecond ?_ ?_ _).2 rfl
  · intro hbranch
    exact absurd hbranch (by decide +kernel)
  · intro hclosed
    exact absurd hclosed (by decide +kernel)

/-- The selector of a switch with an explicit but empty branch is continued in the first branch; the
text is continued in the empty one. -/
theorem not_chain_emptyBranch :
    parseWith predicateSymbols "@1 ? a :" = .ok (.switch "p" (.field "a" .identity) .identity) ∧
      parseWith predicateSymbols "b" = .ok (.field "b" .identity) ∧
      ¬(parseWith predicateSymbols ("@1 ? a :" ++ " " ++ "b") =
          .ok (.switch "p" (.field "a" .identity) (.field "b" .identity)) ↔
        (switch "p" (.field "a" .identity) .identity).chain (.field "b" .identity) =
          some (.switch "p" (.field "a" .identity) (.field "b" .identity))) := by
  have hfirst : Derives predicateSymbols false
      (.symbol "@1" :: .question :: ([.field "a"] ++ .colon :: [])) _ :=
    .switchElse rfl (derives_field _ "a") .identity
  have hboth : Derives predicateSymbols false
      (.symbol "@1" :: .question :: ([.field "a"] ++ .colon :: [.field "b"])) _ :=
    .switchElse rfl (derives_field _ "a") (derives_field _ "b")
  refine ⟨parseWith_of_derives (by decide +kernel) hfirst,
    parseWith_of_derives (by decide +kernel) (derives_field _ "b"), fun h => ?_⟩
  have hchain := h.1 (parseWith_of_derives (by decide +kernel) hboth)
  simp [chain, extend, isIdentity] at hchain

end LinkedDocs.Selector
