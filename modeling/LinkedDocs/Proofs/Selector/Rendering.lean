import LinkedDocs.Proofs.NameMap
import LinkedDocs.Proofs.Selector.Producing
import LinkedDocs.Proofs.Selector.Splicing

namespace LinkedDocs.Selector

mutual

/-- The predicates and queries of a selector, in the order in which its text refers to them. -/
def referents (selector : Selector) : List Symbol :=
  match selector with
  | .identity => []
  | .field _ next => next.referents
  | .index _ next => next.referents
  | .shortcut next => next.referents
  | .map next => next.referents
  | .hardMap next => next.referents
  | .filter name next => .predicate name :: next.referents
  | .switch name accepted otherwise =>
    .predicate name :: (accepted.referents ++ otherwise.referents)
  | .filterQuery query next => .query query :: next.referents
  | .tuple items => itemReferents items
  | .object entries => entryReferents entries
termination_by structural selector

def itemReferents (items : List Selector) : List Symbol :=
  match items with
  | [] => []
  | item :: rest => item.referents ++ itemReferents rest
termination_by structural items

def entryReferents (entries : List (ObjectKey × Selector)) : List Symbol :=
  match entries with
  | [] => []
  | (_, selector) :: rest => selector.referents ++ entryReferents rest
termination_by structural entries

end

def indexToken (position : Nat) : Token :=
  .index (String.ofList (Nat.toDigits 10 position))

mutual

/-- The tokens of a selector, of which the first one for a predicate or query has the number of the
given slot. A switch is written with both branches. -/
def toTokens (slot : Nat) (selector : Selector) : List Token :=
  match selector with
  | .identity => []
  | .field name next => .field name :: next.toTokens slot
  | .index position next => indexToken position :: next.toTokens slot
  | .shortcut next => .shortcut :: next.toTokens slot
  | .map next => .map :: next.toTokens slot
  | .hardMap next => .hardMap :: next.toTokens slot
  | .filter _ next => .symbol (slotToken slot) :: next.toTokens (slot + 1)
  | .switch _ accepted otherwise =>
    .symbol (slotToken slot) :: .question ::
      (accepted.toTokens (slot + 1) ++
        .colon :: otherwise.toTokens (slot + 1 + accepted.referents.length))
  | .filterQuery _ next => .symbol (slotToken slot) :: next.toTokens (slot + 1)
  | .tuple items => .openBracket :: (itemTokens slot items ++ [.closeBracket])
  | .object entries => .openBrace :: (entryTokens slot entries ++ [.closeBrace])
termination_by structural selector

/-- The tokens of items, with commas between them. -/
def itemTokens (slot : Nat) (items : List Selector) : List Token :=
  match items with
  | [] => []
  | [item] => item.toTokens slot
  | item :: rest => item.toTokens slot ++ .comma :: itemTokens (slot + item.referents.length) rest
termination_by structural items

/-- The tokens of entries, each with its key in front, with commas between them. -/
def entryTokens (slot : Nat) (entries : List (ObjectKey × Selector)) : List Token :=
  match entries with
  | [] => []
  | [(key, selector)] => keyToken key :: selector.toTokens slot
  | (key, selector) :: rest =>
    keyToken key :: (selector.toTokens slot ++
      .comma :: entryTokens (slot + selector.referents.length) rest)
termination_by structural entries

end

/-- The text of tokens, with blanks between them. -/
def spell (tokens : List Token) : List Char :=
  match tokens with
  | [] => []
  | [token] => token.toChars
  | token :: rest => token.toChars ++ ' ' :: spell rest

/-- The text of a selector. -/
def toText (selector : Selector) : String :=
  String.ofList (spell (selector.toTokens 1))

/-- What the tokens in the text of a selector stand for. -/
def toTable (selector : Selector) : SymbolTable :=
  .ofList ((selector.referents.zipIdx 1).map fun referent => (slotToken referent.2, referent.1))

theorem isLexical_indexToken (position : Nat) : (indexToken position).IsLexical := by
  obtain ⟨first, rest, heq, hfirst, hrest⟩ := exists_toDigits position
  refine ⟨first, rest, ?_, hfirst, hrest⟩
  rw [String.toList_ofList, heq]

/-- Tokens that the lexer can find. -/
def AreLexical (tokens : List Token) : Prop :=
  ∀ token ∈ tokens, token.IsLexical

theorem AreLexical.nil : AreLexical [] := fun _ h => absurd h List.not_mem_nil

theorem AreLexical.cons {token : Token} {tokens : List Token} (hfirst : token.IsLexical)
    (hrest : AreLexical tokens) : AreLexical (token :: tokens) :=
  List.forall_mem_cons.2 ⟨hfirst, hrest⟩

theorem AreLexical.append {tokens others : List Token} (hfirst : AreLexical tokens)
    (hsecond : AreLexical others) : AreLexical (tokens ++ others) :=
  List.forall_mem_append.2 ⟨hfirst, hsecond⟩

theorem areLexical_itemTokens {items : List Selector}
    (hitems : ∀ item ∈ items, ∀ slot, AreLexical (item.toTokens slot)) (slot : Nat) :
    AreLexical (itemTokens slot items) := by
  induction items generalizing slot with
  | nil => exact .nil
  | cons item rest ih =>
    obtain ⟨hitem, hrest⟩ := List.forall_mem_cons.1 hitems
    cases rest with
    | nil => exact hitem slot
    | cons next rest => exact (hitem slot).append (.cons trivial (ih hrest _))

theorem areLexical_entryTokens {entries : List (ObjectKey × Selector)}
    (hvalid : ∀ entry ∈ entries, entry.1.IsValid)
    (hentries : ∀ entry ∈ entries, ∀ slot, AreLexical (entry.2.toTokens slot)) (slot : Nat) :
    AreLexical (entryTokens slot entries) := by
  induction entries generalizing slot with
  | nil => exact .nil
  | cons entry rest ih =>
    obtain ⟨key, selector⟩ := entry
    obtain ⟨hkey, hvalid⟩ := List.forall_mem_cons.1 hvalid
    obtain ⟨hselector, hrest⟩ := List.forall_mem_cons.1 hentries
    cases rest with
    | nil => exact .cons (isLexical_keyToken_iff.2 hkey) (hselector slot)
    | cons next rest =>
      exact .cons (isLexical_keyToken_iff.2 hkey)
        ((hselector slot).append (.cons trivial (ih hvalid hrest _)))

theorem WellFormed.areLexical_toTokens {selector : Selector} (h : selector.WellFormed)
    (slot : Nat) : AreLexical (selector.toTokens slot) := by
  induction h generalizing slot with
  | identity => exact .nil
  | field hname _ ih => exact .cons (isLexical_field_iff.2 hname) (ih slot)
  | index _ _ ih => exact .cons (isLexical_indexToken _) (ih slot)
  | shortcut _ ih => exact .cons trivial (ih slot)
  | map _ ih => exact .cons trivial (ih slot)
  | hardMap _ ih => exact .cons trivial (ih slot)
  | filter _ ih => exact .cons (isLexical_slotToken slot) (ih _)
  | switch _ _ ihaccepted ihotherwise =>
    refine .cons (isLexical_slotToken slot) ?_
    refine .cons trivial ?_
    exact (ihaccepted _).append (.cons trivial (ihotherwise _))
  | filterQuery _ _ ih => exact .cons (isLexical_slotToken slot) (ih _)
  | tuple _ _ ih =>
    refine .cons trivial ?_
    exact (areLexical_itemTokens ih slot).append (.cons trivial .nil)
  | object _ _ hvalid _ ih =>
    refine .cons trivial ?_
    exact (areLexical_entryTokens hvalid ih slot).append (.cons trivial .nil)

theorem cut_spell {tokens : List Token} (h : AreLexical tokens) : Cut (spell tokens) tokens := by
  induction tokens with
  | nil => exact .nil
  | cons token rest ih =>
    obtain ⟨hfirst, hrest⟩ := List.forall_mem_cons.1 h
    cases rest with
    | nil => exact cut_of_isLexical hfirst
    | cons next rest =>
      have hblank : isSeparator ' ' := by decide
      exact (cut_of_isLexical hfirst).append hblank (ih hrest)

theorem slotToken_injective : Function.Injective slotToken := by
  intro first second heq
  have hchars : '@' :: Nat.toDigits 10 first = '@' :: Nat.toDigits 10 second :=
    String.ofList_injective heq
  have hdigits : Nat.toDigits 10 first = Nat.toDigits 10 second := (List.cons.inj hchars).2
  calc
    first = Nat.ofDigitChars 10 (Nat.toDigits 10 first) 0 := Nat.ofDigitChars_ten_toDigits.symm
    _ = Nat.ofDigitChars 10 (Nat.toDigits 10 second) 0 := by rw [hdigits]
    _ = second := Nat.ofDigitChars_ten_toDigits

/-- A table in which the tokens with the numbers from a slot on stand for the given symbols. -/
def Names (symbols : SymbolTable) (slot : Nat) (referents : List Symbol) : Prop :=
  ∀ referent ∈ referents.zipIdx slot, symbols.get? (slotToken referent.2) = some referent.1

section Names

variable {symbols : SymbolTable} {slot : Nat}

theorem names_cons_iff {symbol : Symbol} {rest : List Symbol} :
    Names symbols slot (symbol :: rest) ↔
      symbols.get? (slotToken slot) = some symbol ∧ Names symbols (slot + 1) rest :=
  List.forall_mem_cons

theorem names_append_iff {first second : List Symbol} :
    Names symbols slot (first ++ second) ↔
      Names symbols slot first ∧ Names symbols (slot + first.length) second := by
  unfold Names
  rw [List.zipIdx_append]
  exact List.forall_mem_append

end Names

theorem names_toTable (selector : Selector) : Names selector.toTable 1 selector.referents := by
  intro referent hreferent
  have hslots : (selector.referents.zipIdx 1).map Prod.snd =
      List.range' 1 selector.referents.length := List.zipIdx_map_snd _ _
  have hnodup : (((selector.referents.zipIdx 1).map fun referent =>
      (slotToken referent.2, referent.1)).map Prod.fst).Nodup := by
    rw [List.map_map]
    change ((selector.referents.zipIdx 1).map (slotToken ∘ Prod.snd)).Nodup
    rw [← List.map_map, hslots]
    exact (List.nodup_range' 1).map slotToken_injective
  exact NameMap.get?_ofList_of_mem hnodup (List.mem_map_of_mem hreferent)

/-- A selector that is derived by its tokens whenever they are named. -/
def IsRead (symbols : SymbolTable) (selector : Selector) : Prop :=
  ∀ slot, Names symbols slot selector.referents →
    Derives symbols false (selector.toTokens slot) selector

section Derivations

variable {symbols : SymbolTable}

theorem derivesItems_itemTokens {items : List Selector} (hne : items ≠ [])
    (hitems : ∀ item ∈ items, item.IsRead symbols) {slot : Nat}
    (hnames : Names symbols slot (itemReferents items)) :
    DerivesItems symbols (itemTokens slot items) items := by
  induction items generalizing slot with
  | nil => exact absurd rfl hne
  | cons item rest ih =>
    obtain ⟨hitem, hrest⟩ := List.forall_mem_cons.1 hitems
    obtain ⟨hfirst, hothers⟩ := names_append_iff.1 hnames
    cases rest with
    | nil => exact .last (hitem slot hfirst)
    | cons next rest =>
      exact .more (hitem slot hfirst) (ih (List.cons_ne_nil _ _) hrest hothers)

theorem derivesEntries_entryTokens {entries : List (ObjectKey × Selector)} (hne : entries ≠ [])
    (hentries : ∀ entry ∈ entries, entry.2.IsRead symbols) {slot : Nat}
    (hnames : Names symbols slot (entryReferents entries)) :
    DerivesEntries symbols (entryTokens slot entries) entries := by
  induction entries generalizing slot with
  | nil => exact absurd rfl hne
  | cons entry rest ih =>
    obtain ⟨key, selector⟩ := entry
    obtain ⟨hselector, hrest⟩ := List.forall_mem_cons.1 hentries
    obtain ⟨hfirst, hothers⟩ := names_append_iff.1 hnames
    cases rest with
    | nil => exact .last (hselector slot hfirst)
    | cons next rest =>
      exact .more (hselector slot hfirst) (ih (List.cons_ne_nil _ _) hrest hothers)

theorem putEntry_of_notMem {key : ObjectKey} (selector : Selector)
    {entries : List (ObjectKey × Selector)} (h : key ∉ entries.map Prod.fst) :
    putEntry key selector entries = entries ++ [(key, selector)] := by
  induction entries with
  | nil => rfl
  | cons entry rest ih =>
    obtain ⟨first, existing⟩ := entry
    obtain ⟨hfirst, hrest⟩ := not_or.1 (List.mem_cons.not.1 h)
    rw [putEntry, if_neg (Ne.symm hfirst), ih hrest, List.cons_append]

/-- Entries with different keys make an object as they are. -/
theorem foldl_putEntry_of_nodup {entries merged : List (ObjectKey × Selector)}
    (h : ((merged ++ entries).map Prod.fst).Nodup) :
    entries.foldl (fun merged entry => putEntry entry.1 entry.2 merged) merged =
      merged ++ entries := by
  induction entries generalizing merged with
  | nil => exact (List.append_nil merged).symm
  | cons entry rest ih =>
    have hnew : entry.1 ∉ merged.map Prod.fst := by
      intro hold
      rw [List.map_append, List.map_cons] at h
      exact (List.nodup_append.1 h).2.2 _ hold _ List.mem_cons_self rfl
    have hsplit : merged ++ entry :: rest = merged ++ [entry] ++ rest := by simp
    rw [List.foldl_cons, putEntry_of_notMem _ hnew, hsplit]
    rw [hsplit] at h
    exact ih h

theorem WellFormed.isRead {selector : Selector} (h : selector.WellFormed) :
    selector.IsRead symbols := by
  induction h with
  | identity =>
    intro slot _
    exact .identity
  | field _ _ ih =>
    intro slot hnames
    exact .prefixed .field (ih slot hnames)
  | index hposition _ ih =>
    intro slot hnames
    refine .prefixed (.index ?_ hposition) (ih slot hnames)
    rw [String.toList_ofList, Nat.ofDigitChars_ten_toDigits]
  | shortcut _ ih =>
    intro slot hnames
    exact .prefixed .shortcut (ih slot hnames)
  | map _ ih =>
    intro slot hnames
    exact .prefixed .map (ih slot hnames)
  | hardMap _ ih =>
    intro slot hnames
    exact .prefixed .hardMap (ih slot hnames)
  | filter _ ih =>
    intro slot hnames
    obtain ⟨hsymbol, hnext⟩ := names_cons_iff.1 hnames
    exact .prefixed (.filter hsymbol) (ih _ hnext)
  | switch _ _ ihaccepted ihotherwise =>
    intro slot hnames
    obtain ⟨hsymbol, hbranches⟩ := names_cons_iff.1 hnames
    obtain ⟨haccepted, hotherwise⟩ := names_append_iff.1 hbranches
    exact .switchElse hsymbol (ihaccepted _ haccepted) (ihotherwise _ hotherwise)
  | filterQuery hquery _ ih =>
    intro slot hnames
    obtain ⟨hsymbol, hnext⟩ := names_cons_iff.1 hnames
    exact .prefixed (.query hsymbol hquery) (ih _ hnext)
  | tuple hne _ ih =>
    intro slot hnames
    exact .tuple (derivesItems_itemTokens hne ih hnames)
  | @object entries hne hkeys _ _ ih =>
    intro slot hnames
    have hentries : ofEntries entries = .object entries := by
      rw [ofEntries, @foldl_putEntry_of_nodup entries [] hkeys, List.nil_append]
    exact .object (derivesEntries_entryTokens hne ih hnames) (merges_iff.2 hentries)

end Derivations

/-- The selectors that can be written and read back are the well-formed ones: each is read from its
text and table, and every selector that is read from a table of such selectors is one of them. -/
theorem parseWith_toText_and_wellFormed (selector : Selector) :
    (selector.WellFormed → parseWith selector.toTable selector.toText = .ok selector) ∧
      ∀ symbols text, SymbolTable.WellFormed symbols →
        parseWith symbols text = .ok selector → selector.WellFormed := by
  constructor
  · intro h
    have hcut : Cut selector.toText.toList (selector.toTokens 1) := by
      rw [toText, String.toList_ofList]
      exact cut_spell (h.areLexical_toTokens 1)
    exact (h.isRead 1 selector.names_toTable).parseWith hcut
  · intro symbols text hsymbols hparse
    exact wellFormed_of_parseWith hsymbols hparse

/-- A selector in which a switch has a switch for its first branch, with an empty one in it. -/
def nestedSwitch : Selector :=
  .object [(.wildcard, .identity),
    (.field "loans", .map (.filter "late" (.switch "lost"
      (.switch "paid" .identity (.hardMap (.map .identity)))
      (.tuple [.index 0 .identity, .filterQuery (.object []) (.shortcut .identity)]))))]

theorem wellFormed_nestedSwitch : nestedSwitch.WellFormed := by
  have hname : Identifier.isValid "loans" := by decide
  have hfirst : (switch "paid" identity identity.map.hardMap).WellFormed :=
    .switch .identity (.hardMap (.map .identity))
  have hsecond : (tuple [index 0 identity, filterQuery (.object []) identity.shortcut]).WellFormed :=
    .tuple (List.cons_ne_nil _ _) (List.forall_mem_cons.2 ⟨.index (by decide) .identity,
      List.forall_mem_singleton.2 (.filterQuery rfl (.shortcut .identity))⟩)
  refine .object (List.cons_ne_nil _ _) (by decide) ?_ ?_
  · exact List.forall_mem_cons.2 ⟨trivial, List.forall_mem_singleton.2 hname⟩
  · exact List.forall_mem_cons.2
      ⟨.identity, List.forall_mem_singleton.2 (.map (.filter (.switch hfirst hsecond)))⟩

theorem parseWith_toText_nestedSwitch :
    nestedSwitch.toText = "\x7b * , loans $ @1 @2 ? @3 ? : $$ $ : [ 0 , @4 > ] \x7d" ∧
      nestedSwitch.WellFormed ∧
      parseWith nestedSwitch.toTable nestedSwitch.toText = .ok nestedSwitch ∧
      SymbolTable.WellFormed fieldSymbols ∧
      parseWith fieldSymbols "a @1" = .ok (.path ["a", "b"]) ∧
      (path ["a", "b"]).WellFormed := by
  have hsymbols : SymbolTable.WellFormed fieldSymbols := by
    intro token nested hnested
    have hmem := NameMap.mem_of_get?_ofList hnested
    cases List.mem_singleton.1 hmem
    exact .field (by decide) .identity
  have hderives : Derives fieldSymbols false [.field "a", .symbol "@1"] (.path ["a", "b"]) :=
    .prefixed .field (.prefixed (.spliced rfl rfl) .identity)
  have hparse : parseWith fieldSymbols "a @1" = .ok (.path ["a", "b"]) :=
    parseWith_of_derives (by decide +kernel) hderives
  exact ⟨by decide, wellFormed_nestedSwitch,
    (parseWith_toText_and_wellFormed nestedSwitch).1 wellFormed_nestedSwitch, hsymbols, hparse,
    (parseWith_toText_and_wellFormed _).2 _ _ hsymbols hparse⟩

end LinkedDocs.Selector
