import LinkedDocs.Proofs.Selector.Continuation

namespace LinkedDocs.Selector

section

variable {small large : SymbolTable}

theorem Prefixes.mono (h : ∀ token symbol, small.get? token = some symbol →
    large.get? token = some symbol) {token : Token} {next selector : Selector}
    (hfront : Prefixes small token next selector) : Prefixes large token next selector := by
  cases hfront with
  | field => exact .field
  | index hvalue hfits => exact .index hvalue hfits
  | shortcut => exact .shortcut
  | map => exact .map
  | hardMap => exact .hardMap
  | spliced hsymbol hchain => exact .spliced (h _ _ hsymbol) hchain
  | filter hsymbol => exact .filter (h _ _ hsymbol)
  | query hsymbol hobject => exact .query (h _ _ hsymbol) hobject

mutual

theorem Derives.mono (h : ∀ token symbol, small.get? token = some symbol →
    large.get? token = some symbol) {isOpen : Bool} {tokens : List Token} {selector : Selector} :
    Derives small isOpen tokens selector → Derives large isOpen tokens selector
  | .identity => .identity
  | .prefixed hfront hnext => .prefixed (hfront.mono h) (hnext.mono h)
  | .switch hsymbol haccepted => .switch (h _ _ hsymbol) (haccepted.mono h)
  | .switchElse hsymbol haccepted hotherwise =>
    .switchElse (h _ _ hsymbol) (haccepted.mono h) (hotherwise.mono h)
  | .tuple hitems => .tuple (hitems.mono h)
  | .object hwritten hmerges => .object (hwritten.mono h) hmerges

theorem DerivesItems.mono (h : ∀ token symbol, small.get? token = some symbol →
    large.get? token = some symbol) {tokens : List Token} {items : List Selector} :
    DerivesItems small tokens items → DerivesItems large tokens items
  | .last hitem => .last (hitem.mono h)
  | .more hitem hitems => .more (hitem.mono h) (hitems.mono h)

theorem DerivesEntries.mono (h : ∀ token symbol, small.get? token = some symbol →
    large.get? token = some symbol) {tokens : List Token} {entries : List (ObjectKey × Selector)} :
    DerivesEntries small tokens entries → DerivesEntries large tokens entries
  | .last hselector => .last (hselector.mono h)
  | .more hselector hentries => .more (hselector.mono h) (hentries.mono h)

end

end

mutual

/-- Without symbols there are no switches, so no colons. -/
theorem Derives.isClosed {isOpen : Bool} {tokens : List Token} {selector : Selector} :
    Derives .empty isOpen tokens selector → isOpen = false ∧ .colon ∉ tokens
  | .identity => by simp
  | .prefixed hfront hnext => by
    obtain ⟨hopen, hcolon⟩ := hnext.isClosed
    refine ⟨hopen, ?_⟩
    cases hfront <;> simpa using hcolon
  | .switch hsymbol _ => nomatch hsymbol
  | .switchElse hsymbol _ _ => nomatch hsymbol
  | .tuple hitems => by
    have hcolon := hitems.colon_notMem
    simpa using hcolon
  | .object hwritten _ => by
    have hcolon := hwritten.colon_notMem
    simpa using hcolon

theorem DerivesItems.colon_notMem {tokens : List Token} {items : List Selector} :
    DerivesItems .empty tokens items → .colon ∉ tokens
  | .last hitem => hitem.isClosed.2
  | .more hitem hitems => by
    have hfirst := hitem.isClosed.2
    have hrest := hitems.colon_notMem
    simpa using ⟨hfirst, hrest⟩

theorem DerivesEntries.colon_notMem {tokens : List Token}
    {entries : List (ObjectKey × Selector)} :
    DerivesEntries .empty tokens entries → .colon ∉ tokens
  | @DerivesEntries.last _ _ key _ _ hselector => by
    have hrest := hselector.isClosed.2
    cases key <;> simpa [keyToken] using hrest
  | @DerivesEntries.more _ _ key _ _ _ _ hselector hentries => by
    have hfirst := hselector.isClosed.2
    have hrest := hentries.colon_notMem
    cases key <;> simpa [keyToken] using ⟨hfirst, hrest⟩

end

theorem mem_of_endsInEmptyBranch {symbols : SymbolTable} {tokens : List Token}
    (h : endsInEmptyBranch symbols tokens) : .colon ∈ tokens := by
  have hmem := List.mem_of_head? (eq_of_beq h)
  exact List.mem_reverse.1 (List.dropWhile_subset _ hmem)

/-- The identity is written with nothing in front but symbols for it. -/
theorem Derives.eq_nil {symbols : SymbolTable} {isOpen : Bool} {tokens : List Token}
    (h : Derives symbols isOpen tokens .identity)
    (hhead : ∀ token ∈ tokens.head?, ¬token.isSilent symbols) : tokens = [] := by
  cases tokens with
  | nil => rfl
  | cons head tokens => exact absurd (h.isSilent rfl head List.mem_cons_self) (hhead head rfl)

/-- Some of the symbols with one token are replaced by tokens. No tokens that end in a closing
bracket are put in front of a symbol for the identity. -/
inductive Unfolds (symbols : SymbolTable) (token : String) (spelling : List Token) :
    List Token → List Token → Prop
  | nil : Unfolds symbols token spelling [] []
  | keep {head : Token} {tokens others : List Token}
      (h : Unfolds symbols token spelling tokens others) :
      Unfolds symbols token spelling (head :: tokens) (head :: others)
  | splice {tokens others : List Token}
      (hend : endsClosed spelling → ∀ next ∈ tokens.head?, ¬next.isSilent symbols)
      (h : Unfolds symbols token spelling tokens others) :
      Unfolds symbols token spelling (.symbol token :: tokens) (spelling ++ others)

section Unfolds

variable {symbols : SymbolTable} {token : String} {spelling : List Token}

theorem Unfolds.refl (tokens : List Token) : Unfolds symbols token spelling tokens tokens := by
  induction tokens with
  | nil => exact .nil
  | cons head tokens ih => exact .keep ih

theorem Unfolds.append_left {tokens others : List Token}
    (h : Unfolds symbols token spelling tokens others) (front : List Token) :
    Unfolds symbols token spelling (front ++ tokens) (front ++ others) := by
  induction front with
  | nil => exact h
  | cons head front ih => exact .keep ih

theorem Unfolds.exists_append {front back others : List Token}
    (h : Unfolds symbols token spelling (front ++ back) others) :
    ∃ left right, others = left ++ right ∧ Unfolds symbols token spelling front left ∧
      Unfolds symbols token spelling back right := by
  induction front generalizing others with
  | nil => exact ⟨[], others, rfl, .nil, h⟩
  | cons head front ih =>
    cases h with
    | keep h =>
      obtain ⟨left, right, rfl, hleft, hright⟩ := ih h
      exact ⟨head :: left, right, rfl, .keep hleft, hright⟩
    | splice hend h =>
      obtain ⟨left, right, rfl, hleft, hright⟩ := ih h
      refine ⟨spelling ++ left, right, by rw [List.append_assoc], .splice ?_ hleft, hright⟩
      intro hclosed next hnext
      exact hend hclosed next (by simp [List.head?_append, Option.mem_def.1 hnext])

theorem Unfolds.exists_cons {head : Token} {tokens others : List Token}
    (h : Unfolds symbols token spelling (head :: tokens) others) (hhead : head ≠ .symbol token) :
    ∃ rest, others = head :: rest ∧ Unfolds symbols token spelling tokens rest := by
  cases h with
  | keep h => exact ⟨_, rfl, h⟩
  | splice => exact absurd rfl hhead

end Unfolds

/-- A symbol and tokens, without a colon, that are both written for one selector. -/
structure Spells (symbols : SymbolTable) (token : String) (spelling : List Token)
    (nested : Selector) : Prop where
  symbol : symbols.get? token = some (.selector nested)
  derives : Derives symbols false spelling nested
  colon : .colon ∉ spelling

section Spells

variable {symbols : SymbolTable} {token : String} {spelling : List Token} {nested : Selector}

theorem Spells.ne_predicate (hspells : Spells symbols token spelling nested) {other : String}
    {name : PredicateName} (h : symbols.get? other = some (.predicate name)) :
    Token.symbol other ≠ .symbol token := by
  rintro ⟨⟩
  cases hspells.symbol.symm.trans h

theorem keyToken_ne_symbol (key : ObjectKey) (token : String) : keyToken key ≠ .symbol token := by
  cases key <;> simp [keyToken]

/-- The tokens of a selector, in front of those of another one, continue it. -/
theorem Spells.derives_append (hspells : Spells symbols token spelling nested) {isOpen : Bool}
    {others : List Token} {next selector : Selector} (hnext : Derives symbols isOpen others next)
    (hchain : nested.chain next = some selector)
    (hclosed : endsClosed spelling → next = .identity → others = []) :
    Derives symbols isOpen (spelling ++ others) selector := by
  have hbranch : endsInEmptyBranch symbols spelling → next = .identity := fun h =>
    absurd (mem_of_endsInEmptyBranch h) hspells.colon
  simpa using hnext.append hspells.derives hbranch hclosed hchain

mutual

/-- The tokens of a selector can be put in the place of a symbol for it, and derive the same. -/
theorem Derives.unfold (hspells : Spells symbols token spelling nested) {isOpen : Bool}
    {tokens others : List Token} {selector : Selector} :
    Derives symbols isOpen tokens selector → Unfolds symbols token spelling tokens others →
      Derives symbols isOpen others selector
  | .identity, h => by
    cases h
    exact .identity
  | .prefixed hfront hnext, h => by
    cases h with
    | keep hrest => exact .prefixed hfront (hnext.unfold hspells hrest)
    | splice hend hrest =>
      have hchain := (prefixes_spliced_iff hspells.symbol).1 hfront
      refine hspells.derives_append (hnext.unfold hspells hrest) hchain fun hclosed hidentity => ?_
      subst hidentity
      obtain rfl := hnext.eq_nil (hend hclosed)
      cases hrest
      rfl
  | .switch hpredicate haccepted, h => by
    obtain ⟨_, rfl, hquestion⟩ := h.exists_cons (hspells.ne_predicate hpredicate)
    obtain ⟨_, rfl, hbranch⟩ := hquestion.exists_cons Token.noConfusion
    exact .switch hpredicate (haccepted.unfold hspells hbranch)
  | .switchElse hpredicate haccepted hotherwise, h => by
    obtain ⟨_, rfl, hquestion⟩ := h.exists_cons (hspells.ne_predicate hpredicate)
    obtain ⟨_, rfl, hbranches⟩ := hquestion.exists_cons Token.noConfusion
    obtain ⟨_, _, rfl, hfirst, hcolon⟩ := hbranches.exists_append
    obtain ⟨_, rfl, hsecond⟩ := hcolon.exists_cons Token.noConfusion
    exact .switchElse hpredicate (haccepted.unfold hspells hfirst) (hotherwise.unfold hspells hsecond)
  | .tuple hitems, h => by
    obtain ⟨_, rfl, hbehind⟩ := h.exists_cons Token.noConfusion
    obtain ⟨_, _, rfl, hinner, hclose⟩ := hbehind.exists_append
    obtain ⟨_, rfl, hend⟩ := hclose.exists_cons Token.noConfusion
    cases hend
    exact .tuple (hitems.unfold hspells hinner)
  | .object hwritten hmerges, h => by
    obtain ⟨_, rfl, hbehind⟩ := h.exists_cons Token.noConfusion
    obtain ⟨_, _, rfl, hinner, hclose⟩ := hbehind.exists_append
    obtain ⟨_, rfl, hend⟩ := hclose.exists_cons Token.noConfusion
    cases hend
    exact .object (hwritten.unfold hspells hinner) hmerges

theorem DerivesItems.unfold (hspells : Spells symbols token spelling nested)
    {tokens others : List Token} {items : List Selector} :
    DerivesItems symbols tokens items → Unfolds symbols token spelling tokens others →
      DerivesItems symbols others items
  | .last hitem, h => .last (hitem.unfold hspells h)
  | .more hitem hitems, h => by
    obtain ⟨_, _, rfl, hfirst, hcomma⟩ := h.exists_append
    obtain ⟨_, rfl, hrest⟩ := hcomma.exists_cons Token.noConfusion
    exact .more (hitem.unfold hspells hfirst) (hitems.unfold hspells hrest)

theorem DerivesEntries.unfold (hspells : Spells symbols token spelling nested)
    {tokens others : List Token} {entries : List (ObjectKey × Selector)} :
    DerivesEntries symbols tokens entries → Unfolds symbols token spelling tokens others →
      DerivesEntries symbols others entries
  | .last hselector, h => by
    obtain ⟨_, rfl, hrest⟩ := h.exists_cons (keyToken_ne_symbol _ _)
    exact .last (hselector.unfold hspells hrest)
  | .more hselector hentries, h => by
    obtain ⟨_, rfl, hboth⟩ := h.exists_cons (keyToken_ne_symbol _ _)
    obtain ⟨_, _, rfl, hfirst, hcomma⟩ := hboth.exists_append
    obtain ⟨_, rfl, hrest⟩ := hcomma.exists_cons Token.noConfusion
    exact .more (hselector.unfold hspells hfirst) (hentries.unfold hspells hrest)

end

end Spells

theorem exists_toDigits (number : Nat) :
    ∃ first rest, Nat.toDigits 10 number = first :: rest ∧ first.isDigit ∧
      rest.all Char.isDigit := by
  have hdigits : ∀ digit ∈ Nat.toDigits 10 number, digit.isDigit := fun digit hdigit =>
    Nat.isDigit_of_mem_toDigits (by decide) (by decide) hdigit
  obtain ⟨first, rest, heq⟩ :=
    List.exists_cons_of_ne_nil (Nat.toDigits_ne_nil (n := number) (b := 10))
  rw [heq] at hdigits
  obtain ⟨hfirst, hrest⟩ := List.forall_mem_cons.1 hdigits
  exact ⟨first, rest, heq, hfirst, List.all_eq_true.2 hrest⟩

theorem isLexical_slotToken (slot : Nat) : (Token.symbol (slotToken slot)).IsLexical := by
  obtain ⟨first, rest, heq, hfirst, hrest⟩ := exists_toDigits slot
  refine ⟨first, rest, ?_, hfirst, hrest⟩
  rw [slotToken, String.toList_ofList, heq]

theorem cut_of_isLexical {token : Token} (h : token.IsLexical) : Cut token.toChars [token] := by
  have hlongest : token.IsLongest (token.toChars ++ []) := by
    rw [List.append_nil]
    exact ⟨h, List.prefix_rfl, fun _ _ hprefix => hprefix.length_le⟩
  have hcut := Cut.token hlongest .nil
  rwa [List.append_nil] at hcut

/-- Where a symbol for a selector stands in a text, the selector's own text can be written, if it
does not end in a closing bracket that a symbol for the identity then follows. -/
theorem parseWith_of_spliced {symbols : SymbolTable} {front spelling back : String} {slot : Nat}
    {nested selector : Selector} (hnested : parse spelling = .ok nested)
    (hsymbol : symbols.get? (slotToken slot) = some (.selector nested))
    (hend : endsClosed (tokensOf spelling) →
      ∀ next ∈ (tokensOf back).head?, ¬next.isSilent symbols)
    (hparse : parseWith symbols (front ++ " " ++ slotToken slot ++ " " ++ back) = .ok selector) :
    parseWith symbols (front ++ " " ++ spelling ++ " " ++ back) = .ok selector := by
  obtain ⟨inner, isOpen, hinner, hplain⟩ := exists_derives_of_parseWith hnested
  obtain ⟨hopen, hcolon⟩ := hplain.isClosed
  subst hopen
  have hspells : Spells symbols (slotToken slot) inner nested :=
    ⟨hsymbol, hplain.mono (fun _ _ h => by cases h), hcolon⟩
  obtain ⟨tokens, isOpen, hcut, hderives⟩ := exists_derives_of_parseWith hparse
  obtain ⟨_, right, rfl, hcut, hright⟩ := cut_blank_iff.1 hcut
  obtain ⟨left, middle, rfl, hleft, hmiddle⟩ := cut_blank_iff.1 hcut
  obtain rfl := hmiddle.unique (cut_of_isLexical (isLexical_slotToken slot))
  rw [hinner.tokensOf_eq, hright.tokensOf_eq] at hend
  have hunfolds : Unfolds symbols (slotToken slot) inner
      (left ++ .symbol (slotToken slot) :: right) (left ++ (inner ++ right)) :=
    Unfolds.append_left (.splice hend (.refl right)) left
  have hwhole : Derives symbols isOpen (left ++ inner ++ right) selector := by
    rw [List.append_assoc]
    exact Derives.unfold hspells (by simpa using hderives) hunfolds
  exact hwhole.parseWith
    (cut_blank_iff.2 ⟨_, _, rfl, cut_blank_iff.2 ⟨_, _, rfl, hleft, hinner⟩, hright⟩)

theorem Delivers.rest_eq {α : Type} {lexemes rest others : List Lexeme}
    {outcome : Except ParseError (α × Rest lexemes)} {value other : α}
    (h : Delivers outcome value rest) (hother : Delivers outcome other others) : rest = others := by
  obtain ⟨left, rfl, rfl⟩ := h
  obtain ⟨_, heq, rfl⟩ := hother
  cases heq
  rfl

def fieldSymbols : SymbolTable :=
  .ofList [("@1", .selector (.field "b" .identity))]

/-- The selector of an entry, spliced between two fields. -/
theorem parseWith_typedField :
    parseWith fieldSymbols ("\x7bk a" ++ " " ++ "b" ++ " " ++ "c\x7d") =
      .ok (.object [(.field "k", .path ["a", "b", "c"])]) := by
  have hspliced : Derives fieldSymbols false [.symbol "@1", .field "c"] (.path ["b", "c"]) :=
    .prefixed (.spliced rfl rfl) (derives_field _ "c")
  have hentries : DerivesEntries fieldSymbols
      (keyToken (.field "k") :: [.field "a", .symbol "@1", .field "c"])
      [(.field "k", .path ["a", "b", "c"])] :=
    .last (.prefixed .field hspliced)
  have hmerges : Merges [(.field "k", .path ["a", "b", "c"])]
      [(.field "k", .path ["a", "b", "c"])] := merges_iff.2 rfl
  have hparse : parseWith fieldSymbols ("\x7bk a" ++ " " ++ slotToken 1 ++ " " ++ "c\x7d") =
      .ok (.object [(.field "k", .path ["a", "b", "c"])]) :=
    parseWith_of_derives (by decide +kernel) (.object hentries hmerges)
  have hnested : parse "b" = .ok (.field "b" .identity) :=
    parseWith_of_derives (by decide +kernel) (derives_field _ "b")
  refine parseWith_of_spliced hnested rfl (fun hclosed => ?_) hparse
  exact absurd hclosed (by decide +kernel)

def tupleSymbols : SymbolTable :=
  .ofList [("@1", .selector (.tuple [.field "a" .identity])), ("@2", .selector .identity)]

/-- A spliced tuple can be followed by a symbol for the identity, the typed tuple cannot. -/
theorem not_parseWith_typedTuple :
    parse "[a]" = .ok (.tuple [.field "a" .identity]) ∧
      tupleSymbols.get? (slotToken 1) = some (.selector (.tuple [.field "a" .identity])) ∧
      parseWith tupleSymbols ("" ++ " " ++ slotToken 1 ++ " " ++ "@2") =
        .ok (.tuple [.field "a" .identity]) ∧
      parseWith tupleSymbols ("" ++ " " ++ "[a]" ++ " " ++ "@2") ≠
        .ok (.tuple [.field "a" .identity]) := by
  have hitems : ∀ symbols, DerivesItems symbols [.field "a"] [.field "a" .identity] :=
    fun symbols => .last (derives_field symbols "a")
  refine ⟨?_, rfl, ?_, fun hparse => ?_⟩
  · exact parseWith_of_derives (by decide +kernel) (.tuple (hitems _))
  · have hspliced : Derives tupleSymbols false [.symbol "@1", .symbol "@2"] _ :=
      .prefixed (.spliced rfl rfl) (.prefixed (.spliced rfl rfl) .identity)
    exact parseWith_of_derives (by decide +kernel) hspliced
  · have hlex : lex ("" ++ " " ++ "[a]" ++ " " ++ "@2") =
        [⟨.openBracket, 1⟩, ⟨.field "a", 2⟩, ⟨.closeBracket, 3⟩] ++ [⟨.symbol "@2", 5⟩] := by
      decide +kernel
    have hall := parseWith_eq_ok_iff_delivers.1 hparse
    rw [hlex] at hall
    have htokens : [⟨.openBracket, 1⟩, ⟨.field "a", 2⟩, ⟨.closeBracket, 3⟩].map Lexeme.token =
        .openBracket :: ([.field "a"] ++ [.closeBracket]) := rfl
    cases hall.rest_eq (delivers_bracketed (fun h => (hitems tupleSymbols).delivers h) htokens)

end LinkedDocs.Selector
