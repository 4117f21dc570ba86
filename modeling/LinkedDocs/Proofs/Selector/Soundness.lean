import LinkedDocs.Proofs.Selector.Grammar
import LinkedDocs.Selector.Parser

namespace LinkedDocs.Selector

theorem decimalValue?_eq_some_iff {digits : List Char} {position : Nat} :
    decimalValue? digits = some position ↔
      Nat.ofDigitChars 10 digits 0 = position ∧ position < UInt64.size := by
  have hvalue : digits.foldl (fun value digit => value * 10 + (digit.toNat - '0'.toNat)) 0 =
      Nat.ofDigitChars 10 digits 0 := by
    simp only [Nat.ofDigitChars, Nat.mul_comm]
  simp only [decimalValue?, hvalue, Option.ite_none_right_eq_some, Option.some.injEq]
  constructor
  · rintro ⟨hfits, rfl⟩
    exact ⟨rfl, hfits⟩
  · rintro ⟨rfl, hfits⟩
    exact ⟨hfits, rfl⟩

section

variable {symbols : SymbolTable}

theorem Prefixes.token_ne_other {token : Token} {next selector : Selector}
    (h : Prefixes symbols token next selector) (strange : Char) : token ≠ .other strange := by
  cases h <;> simp

theorem keyToken_ne_other (key : ObjectKey) (strange : Char) : keyToken key ≠ .other strange := by
  cases key <;> simp [keyToken]

mutual

theorem Derives.token_ne_other {isOpen : Bool} {tokens : List Token} {selector : Selector} :
    Derives symbols isOpen tokens selector →
      ∀ token ∈ tokens, ∀ strange, token ≠ .other strange
  | .identity => by simp
  | .prefixed hfront hnext => by
    have hrest := hnext.token_ne_other
    exact List.forall_mem_cons.2 ⟨hfront.token_ne_other, hrest⟩
  | .switch _ haccepted => by
    have hrest := haccepted.token_ne_other
    simpa using hrest
  | .switchElse _ haccepted hotherwise => by
    have hfirst := haccepted.token_ne_other
    have hsecond := hotherwise.token_ne_other
    simpa [or_imp, forall_and] using ⟨hfirst, hsecond⟩
  | .tuple hitems => by
    have hrest := hitems.token_ne_other
    simpa [or_imp, forall_and] using hrest
  | .object hwritten _ => by
    have hrest := hwritten.token_ne_other
    simpa [or_imp, forall_and] using hrest

theorem DerivesItems.token_ne_other {tokens : List Token} {items : List Selector} :
    DerivesItems symbols tokens items → ∀ token ∈ tokens, ∀ strange, token ≠ .other strange
  | .last hitem => hitem.token_ne_other
  | .more hitem hitems => by
    have hfirst := hitem.token_ne_other
    have hrest := hitems.token_ne_other
    simpa [or_imp, forall_and] using ⟨hfirst, hrest⟩

theorem DerivesEntries.token_ne_other {tokens : List Token}
    {entries : List (ObjectKey × Selector)} :
    DerivesEntries symbols tokens entries → ∀ token ∈ tokens, ∀ strange, token ≠ .other strange
  | .last hselector => by
    have hrest := hselector.token_ne_other
    exact List.forall_mem_cons.2 ⟨keyToken_ne_other _, hrest⟩
  | .more hselector hentries => by
    have hfirst := hselector.token_ne_other
    have hrest := hentries.token_ne_other
    refine List.forall_mem_cons.2 ⟨keyToken_ne_other _, ?_⟩
    simpa [or_imp, forall_and] using ⟨hfirst, hrest⟩

end

end

/-- What holds of each value that is read from the front of some lexemes, and of the rest. -/
def Yields {α : Type} {lexemes : List Lexeme} (P : α → List Lexeme → Prop)
    (outcome : Except ParseError (α × Rest lexemes)) : Prop :=
  ∀ value rest, outcome = .ok (value, rest) → P value rest.1

section Yields

variable {α β : Type} {lexemes following : List Lexeme} {P : α → List Lexeme → Prop}
  {Q : β → List Lexeme → Prop}

theorem yields_pure {value : α} {rest : Rest lexemes} (h : P value rest.1) :
    Yields P (pure (value, rest) : Except ParseError (α × Rest lexemes)) := by
  intro other others heq
  cases heq
  exact h

theorem yields_error (error : ParseError) :
    Yields P (.error error : Except ParseError (α × Rest lexemes)) := by
  intro value rest heq
  cases heq

theorem Yields.bind {outcome : Except ParseError (α × Rest following)} (h : Yields P outcome)
    {next : α × Rest following → Except ParseError (β × Rest lexemes)}
    (hnext : ∀ value (rest : Rest following), P value rest.1 → Yields Q (next (value, rest))) :
    Yields Q (outcome >>= next) := by
  cases outcome with
  | error error => exact yields_error error
  | ok result => exact hnext result.1 result.2 (h result.1 result.2 rfl)

theorem Yields.widen {outcome : Except ParseError (α × Rest lexemes)} (h : Yields P outcome)
    (lexeme : Lexeme) {f : α → β} (hf : ∀ value rest, P value rest → Q (f value) rest) :
    Yields Q (do
      let (value, rest) ← outcome
      return (f value, rest.widen lexeme)) :=
  h.bind fun value rest hvalue => yields_pure (hf value rest.1 hvalue)

end Yields

/-- The lexemes up to a rest derive a selector. When it is open, the rest begins with no colon. -/
def DerivesUpTo (symbols : SymbolTable) (lexemes : List Lexeme) (selector : Selector)
    (rest : List Lexeme) : Prop :=
  ∃ consumed isOpen, lexemes = consumed ++ rest ∧
    Derives symbols isOpen (consumed.map Lexeme.token) selector ∧
    (isOpen → ∀ lexeme ∈ rest.head?, lexeme.token ≠ .colon)

/-- The lexemes up to a rest are items and a closing bracket. -/
def DerivesItemsUpTo (symbols : SymbolTable) (lexemes : List Lexeme) (items : List Selector)
    (rest : List Lexeme) : Prop :=
  ∃ consumed offset, lexemes = consumed ++ ⟨.closeBracket, offset⟩ :: rest ∧
    DerivesItems symbols (consumed.map Lexeme.token) items

/-- The lexemes up to a rest are entries and a closing brace. -/
def DerivesEntriesUpTo (symbols : SymbolTable) (lexemes : List Lexeme)
    (entries : List (ObjectKey × Selector)) (rest : List Lexeme) : Prop :=
  ∃ consumed offset, lexemes = consumed ++ ⟨.closeBrace, offset⟩ :: rest ∧
    DerivesEntries symbols (consumed.map Lexeme.token) entries

section Sound

variable {symbols : SymbolTable} {lexemes following rest : List Lexeme}

theorem derivesUpTo_identity (lexemes : List Lexeme) :
    DerivesUpTo symbols lexemes .identity lexemes :=
  ⟨[], false, rfl, .identity, fun h => absurd h Bool.false_ne_true⟩

theorem DerivesUpTo.prefixed {token : Token} {next selector : Selector}
    (h : DerivesUpTo symbols lexemes next rest) (hfront : Prefixes symbols token next selector)
    (offset : Nat) : DerivesUpTo symbols (⟨token, offset⟩ :: lexemes) selector rest := by
  obtain ⟨consumed, isOpen, rfl, hnext, hcolon⟩ := h
  exact ⟨⟨token, offset⟩ :: consumed, isOpen, rfl, .prefixed hfront hnext, hcolon⟩

theorem DerivesUpTo.switch {token : String} {name : PredicateName} {accepted : Selector}
    (h : DerivesUpTo symbols lexemes accepted rest)
    (hsymbol : symbols.get? token = some (.predicate name))
    (hcolon : ∀ lexeme ∈ rest.head?, lexeme.token ≠ .colon) (offset mark : Nat) :
    DerivesUpTo symbols (⟨.symbol token, offset⟩ :: ⟨.question, mark⟩ :: lexemes)
      (.switch name accepted .identity) rest := by
  obtain ⟨consumed, isOpen, rfl, haccepted, -⟩ := h
  exact ⟨⟨.symbol token, offset⟩ :: ⟨.question, mark⟩ :: consumed, true, rfl,
    .switch hsymbol haccepted, fun _ => hcolon⟩

theorem DerivesUpTo.switchElse {token : String} {name : PredicateName}
    {accepted otherwise : Selector} {colon : Nat}
    (h : DerivesUpTo symbols lexemes accepted (⟨.colon, colon⟩ :: following))
    (hsymbol : symbols.get? token = some (.predicate name))
    (hotherwise : DerivesUpTo symbols following otherwise rest) (offset mark : Nat) :
    DerivesUpTo symbols (⟨.symbol token, offset⟩ :: ⟨.question, mark⟩ :: lexemes)
      (.switch name accepted otherwise) rest := by
  obtain ⟨consumed, isOpen, rfl, haccepted, hcolon⟩ := h
  obtain ⟨others, isOpen', rfl, hothers, hrest⟩ := hotherwise
  -- the colon ends the first branch, which is therefore not open
  cases isOpen with
  | true => exact absurd rfl (hcolon rfl _ rfl)
  | false =>
    refine ⟨⟨.symbol token, offset⟩ :: ⟨.question, mark⟩ ::
      (consumed ++ ⟨.colon, colon⟩ :: others), isOpen', by simp, ?_, hrest⟩
    simpa using Derives.switchElse hsymbol haccepted hothers

theorem DerivesItemsUpTo.tuple {items : List Selector}
    (h : DerivesItemsUpTo symbols lexemes items rest) (offset : Nat) :
    DerivesUpTo symbols (⟨.openBracket, offset⟩ :: lexemes) (.tuple items) rest := by
  obtain ⟨consumed, close, rfl, hitems⟩ := h
  refine ⟨⟨.openBracket, offset⟩ :: (consumed ++ [⟨.closeBracket, close⟩]), false, by simp, ?_,
    fun h => absurd h Bool.false_ne_true⟩
  simpa using Derives.tuple hitems

theorem DerivesEntriesUpTo.object {entries : List (ObjectKey × Selector)}
    (h : DerivesEntriesUpTo symbols lexemes entries rest) (offset : Nat) :
    DerivesUpTo symbols (⟨.openBrace, offset⟩ :: lexemes) (.ofEntries entries) rest := by
  obtain ⟨consumed, close, rfl, hentries⟩ := h
  refine ⟨⟨.openBrace, offset⟩ :: (consumed ++ [⟨.closeBrace, close⟩]), false, by simp, ?_,
    fun h => absurd h Bool.false_ne_true⟩
  have hobject : Derives symbols false _ (.ofEntries entries) :=
    .object hentries (merges_iff.2 rfl)
  simpa using hobject

theorem DerivesUpTo.lastItem {item : Selector} {close : Nat}
    (h : DerivesUpTo symbols lexemes item (⟨.closeBracket, close⟩ :: rest)) :
    DerivesItemsUpTo symbols lexemes [item] rest := by
  obtain ⟨consumed, isOpen, rfl, hitem, -⟩ := h
  exact ⟨consumed, close, rfl, .last hitem⟩

theorem DerivesUpTo.consItem {item : Selector} {items : List Selector} {comma : Nat}
    (h : DerivesUpTo symbols lexemes item (⟨.comma, comma⟩ :: following))
    (hitems : DerivesItemsUpTo symbols following items rest) :
    DerivesItemsUpTo symbols lexemes (item :: items) rest := by
  obtain ⟨consumed, isOpen, rfl, hitem, -⟩ := h
  obtain ⟨others, close, rfl, hothers⟩ := hitems
  refine ⟨consumed ++ ⟨.comma, comma⟩ :: others, close, by simp, ?_⟩
  simpa using DerivesItems.more hitem hothers

theorem DerivesUpTo.lastEntry {key : ObjectKey} {selector : Selector} {close : Nat}
    (h : DerivesUpTo symbols lexemes selector (⟨.closeBrace, close⟩ :: rest)) (offset : Nat) :
    DerivesEntriesUpTo symbols (⟨keyToken key, offset⟩ :: lexemes) [(key, selector)] rest := by
  obtain ⟨consumed, isOpen, rfl, hselector, -⟩ := h
  exact ⟨⟨keyToken key, offset⟩ :: consumed, close, rfl, .last hselector⟩

theorem DerivesUpTo.consEntry {key : ObjectKey} {selector : Selector}
    {entries : List (ObjectKey × Selector)} {comma : Nat}
    (h : DerivesUpTo symbols lexemes selector (⟨.comma, comma⟩ :: following))
    (hentries : DerivesEntriesUpTo symbols following entries rest) (offset : Nat) :
    DerivesEntriesUpTo symbols (⟨keyToken key, offset⟩ :: lexemes) ((key, selector) :: entries)
      rest := by
  obtain ⟨consumed, isOpen, rfl, hselector, -⟩ := h
  obtain ⟨others, close, rfl, hothers⟩ := hentries
  refine ⟨⟨keyToken key, offset⟩ :: (consumed ++ ⟨.comma, comma⟩ :: others), close, by simp, ?_⟩
  simpa using DerivesEntries.more hselector hothers

end Sound

section Sound

variable {source : Source}

mutual

theorem yields_readSelector (lexemes : List Lexeme) :
    Yields (DerivesUpTo source.symbols lexemes) (readSelector source lexemes) := by
  cases lexemes with
  | nil =>
    unfold readSelector
    exact yields_pure (derivesUpTo_identity [])
  | cons lexeme following =>
    obtain ⟨token, offset⟩ := lexeme
    unfold readSelector
    split
    case h_1 name htoken =>
      cases htoken
      exact (yields_readSelector following).widen _ fun _ _ h => h.prefixed .field offset
    case h_2 digits htoken =>
      cases htoken
      split
      case h_1 => exact yields_error _
      case h_2 position hposition =>
        obtain ⟨hvalue, hfits⟩ := decimalValue?_eq_some_iff.1 hposition
        exact (yields_readSelector following).widen _ fun _ _ h =>
          h.prefixed (.index hvalue hfits) offset
    case h_3 htoken =>
      cases htoken
      exact (yields_readSelector following).widen _ fun _ _ h => h.prefixed .shortcut offset
    case h_4 htoken =>
      cases htoken
      exact (yields_readSelector following).widen _ fun _ _ h => h.prefixed .map offset
    case h_5 htoken =>
      cases htoken
      exact (yields_readSelector following).widen _ fun _ _ h => h.prefixed .hardMap offset
    case h_6 token htoken =>
      cases htoken
      split
      case h_1 nested hnested =>
        refine (yields_readSelector following).bind fun next rest hnext => ?_
        dsimp only
        split
        case h_1 selector hchain =>
          exact yields_pure (hnext.prefixed (.spliced hnested hchain) offset)
        case h_2 => exact yields_error _
      case h_2 name hname =>
        exact (yields_readPredicate hname offset following).widen _ fun _ _ h => h
      case h_3 query hquery =>
        split
        case isTrue hobject =>
          exact (yields_readSelector following).widen _ fun _ _ h =>
            h.prefixed (.query hquery hobject) offset
        case isFalse => exact yields_error _
      case h_4 => exact yields_error _
    case h_7 htoken =>
      cases htoken
      exact (yields_readItems following).widen _ fun _ _ h => h.tuple offset
    case h_8 htoken =>
      cases htoken
      exact (yields_readEntries following).widen _ fun _ _ h => h.object offset
    case h_9 => exact yields_pure (derivesUpTo_identity _)
termination_by (lexemes.length, 0)

theorem yields_readPredicate {token : String} {name : PredicateName}
    (hsymbol : source.symbols.get? token = some (.predicate name)) (offset : Nat)
    (lexemes : List Lexeme) :
    Yields (DerivesUpTo source.symbols (⟨.symbol token, offset⟩ :: lexemes))
      (readPredicate source name lexemes) := by
  unfold readPredicate
  split
  case h_1 mark branches =>
    refine (yields_readSelector branches).bind fun accepted rest haccepted => ?_
    dsimp only
    split
    case h_1 colon following hcolon =>
      have hlength := rest.length_lt hcolon
      rw [hcolon] at haccepted
      refine (yields_readSelector following).bind fun otherwise last hotherwise => ?_
      exact yields_pure (haccepted.switchElse hsymbol hotherwise offset mark)
    case h_2 hother =>
      refine yields_pure (haccepted.switch hsymbol (fun lexeme hlexeme hcolon => ?_) offset mark)
      obtain ⟨following, hfollowing⟩ := List.head?_eq_some_iff.1 hlexeme
      obtain ⟨token, colon⟩ := lexeme
      cases hcolon
      exact hother colon following hfollowing
  case h_2 =>
    exact (yields_readSelector lexemes).bind fun _ _ hnext =>
      yields_pure (hnext.prefixed (.filter hsymbol) offset)
termination_by (lexemes.length, 1)
decreasing_by
  · decreasing_tactic
  · subst_vars
    simp only [List.length_cons]
    decreasing_tactic
  · decreasing_tactic

theorem yields_readItems (lexemes : List Lexeme) :
    Yields (DerivesItemsUpTo source.symbols lexemes) (readItems source lexemes) := by
  unfold readItems
  refine (yields_readSelector lexemes).bind fun item rest hitem => ?_
  dsimp only
  split
  case h_1 offset following hcomma =>
    have hlength := rest.length_lt hcomma
    rw [hcomma] at hitem
    exact (yields_readItems following).bind fun items last hitems =>
      yields_pure (hitem.consItem hitems)
  case h_2 offset following hclose =>
    rw [hclose] at hitem
    exact yields_pure hitem.lastItem
  case h_3 => exact yields_error _
termination_by (lexemes.length, 1)

theorem yields_readEntries (lexemes : List Lexeme) :
    Yields (DerivesEntriesUpTo source.symbols lexemes) (readEntries source lexemes) := by
  unfold readEntries
  split
  case h_1 name offset following =>
    exact (yields_readEntry (.field name) offset following).widen (f := id) _ fun _ _ h => h
  case h_2 offset following =>
    exact (yields_readEntry .wildcard offset following).widen (f := id) _ fun _ _ h => h
  case h_3 => exact yields_error _
termination_by (lexemes.length, 0)

theorem yields_readEntry (key : ObjectKey) (offset : Nat) (lexemes : List Lexeme) :
    Yields (DerivesEntriesUpTo source.symbols (⟨keyToken key, offset⟩ :: lexemes))
      (readEntry source key lexemes) := by
  unfold readEntry
  refine (yields_readSelector lexemes).bind fun selector rest hselector => ?_
  dsimp only
  split
  case h_1 comma following hcomma =>
    have hlength := rest.length_lt hcomma
    rw [hcomma] at hselector
    exact (yields_readEntries following).bind fun entries last hentries =>
      yields_pure (hselector.consEntry hentries offset)
  case h_2 close following hclose =>
    rw [hclose] at hselector
    exact yields_pure (hselector.lastEntry offset)
  case h_3 => exact yields_error _
termination_by (lexemes.length, 1)

end

end Sound

end LinkedDocs.Selector
