import LinkedDocs.Proofs.Path
import LinkedDocs.Proofs.Selector.Completeness
import LinkedDocs.Selector.Template

namespace LinkedDocs.Selector

/-- The lexer takes for names what the schema accepts as identifiers. -/
theorem isLexical_field_iff {name : String} :
    (Token.field name).IsLexical ↔ Identifier.isValid name :=
  Identifier.isValid_iff.symm

theorem isLexical_keyToken_iff {key : ObjectKey} : (keyToken key).IsLexical ↔ key.IsValid := by
  cases key with
  | field name => exact isLexical_field_iff
  | wildcard => exact Iff.rfl

section Derivations

variable {symbols : SymbolTable}

theorem Prefixes.wellFormed {token : Token} {next selector : Selector}
    (h : Prefixes symbols token next selector) (hsymbols : symbols.WellFormed)
    (htoken : token.IsLexical) (hnext : next.WellFormed) : selector.WellFormed := by
  cases h with
  | field => exact .field (isLexical_field_iff.1 htoken) hnext
  | index _ hfits => exact .index hfits hnext
  | shortcut => exact .shortcut hnext
  | map => exact .map hnext
  | hardMap => exact .hardMap hnext
  | spliced hsymbol hchain => exact (hsymbols _ _ hsymbol).chain hnext hchain
  | filter => exact .filter hnext
  | query _ hobject => exact .filterQuery hobject hnext

mutual

/-- What lexical tokens derive is well formed, as long as the selectors in the table are. -/
theorem Derives.wellFormed (hsymbols : symbols.WellFormed) {isOpen : Bool} {tokens : List Token}
    {selector : Selector} : Derives symbols isOpen tokens selector →
      (∀ token ∈ tokens, token.IsLexical) → selector.WellFormed
  | .identity, _ => .identity
  | .prefixed hfront hnext, htokens => by
    obtain ⟨htoken, hrest⟩ := List.forall_mem_cons.1 htokens
    exact hfront.wellFormed hsymbols htoken (hnext.wellFormed hsymbols hrest)
  | .switch _ haccepted, htokens => by
    have hbranch := (List.forall_mem_cons.1 (List.forall_mem_cons.1 htokens).2).2
    exact .switch (haccepted.wellFormed hsymbols hbranch) .identity
  | .switchElse _ haccepted hotherwise, htokens => by
    have hbranches := (List.forall_mem_cons.1 (List.forall_mem_cons.1 htokens).2).2
    obtain ⟨hfirst, hsecond⟩ := List.forall_mem_append.1 hbranches
    exact .switch (haccepted.wellFormed hsymbols hfirst)
      (hotherwise.wellFormed hsymbols (List.forall_mem_cons.1 hsecond).2)
  | .tuple hitems, htokens => by
    have hinner := (List.forall_mem_append.1 (List.forall_mem_cons.1 htokens).2).1
    obtain ⟨hne, hall⟩ := hitems.wellFormed hsymbols hinner
    exact .tuple hne hall
  | .object hwritten hmerges, htokens => by
    have hinner := (List.forall_mem_append.1 (List.forall_mem_cons.1 htokens).2).1
    obtain ⟨hne, hall⟩ := hwritten.wellFormed hsymbols hinner
    rw [← merges_iff.1 hmerges]
    exact hall.ofEntries hne

theorem DerivesItems.wellFormed (hsymbols : symbols.WellFormed) {tokens : List Token}
    {items : List Selector} : DerivesItems symbols tokens items →
      (∀ token ∈ tokens, token.IsLexical) → items ≠ [] ∧ ∀ item ∈ items, item.WellFormed
  | .last hitem, htokens =>
    ⟨List.cons_ne_nil _ _, List.forall_mem_singleton.2 (hitem.wellFormed hsymbols htokens)⟩
  | .more hitem hitems, htokens => by
    obtain ⟨hfirst, hrest⟩ := List.forall_mem_append.1 htokens
    have hothers := (hitems.wellFormed hsymbols (List.forall_mem_cons.1 hrest).2).2
    exact ⟨List.cons_ne_nil _ _,
      List.forall_mem_cons.2 ⟨hitem.wellFormed hsymbols hfirst, hothers⟩⟩

theorem DerivesEntries.wellFormed (hsymbols : symbols.WellFormed) {tokens : List Token}
    {entries : List (ObjectKey × Selector)} : DerivesEntries symbols tokens entries →
      (∀ token ∈ tokens, token.IsLexical) → entries ≠ [] ∧ EntriesWellFormed entries
  | .last hselector, htokens => by
    obtain ⟨hkey, hrest⟩ := List.forall_mem_cons.1 htokens
    exact ⟨List.cons_ne_nil _ _,
      .cons (isLexical_keyToken_iff.1 hkey) (hselector.wellFormed hsymbols hrest) .nil⟩
  | .more hselector hentries, htokens => by
    obtain ⟨hkey, hrest⟩ := List.forall_mem_cons.1 htokens
    obtain ⟨hfirst, hsecond⟩ := List.forall_mem_append.1 hrest
    have hothers := (hentries.wellFormed hsymbols (List.forall_mem_cons.1 hsecond).2).2
    exact ⟨List.cons_ne_nil _ _,
      .cons (isLexical_keyToken_iff.1 hkey) (hselector.wellFormed hsymbols hfirst) hothers⟩

end

end Derivations

/-- Every selector that can be read from a text is well formed. -/
theorem wellFormed_of_parseWith {symbols : SymbolTable} (hsymbols : symbols.WellFormed)
    {text : String} {selector : Selector} (hparse : parseWith symbols text = .ok selector) :
    selector.WellFormed := by
  obtain ⟨tokens, _, hcut, hderives⟩ := exists_derives_of_parseWith hparse
  exact hderives.wellFormed hsymbols hcut.isLexical

theorem mem_of_get?_splice {template : Template} {argument : Argument} {token : String}
    {symbol : Symbol} (h : (template.splice argument).symbols.get? token = some symbol) :
    argument = .symbol symbol ∨ template.symbols.get? token = some symbol := by
  cases argument with
  | literal text => exact .inr h
  | symbol given =>
    change (template.symbols.insert _ given).get? token = some symbol at h
    rw [NameMap.get?_insert] at h
    split at h
    · cases h
      exact .inl rfl
    · exact .inr h

/-- The symbols of a template come from its arguments. -/
theorem mem_of_get?_interleave {template built : Template} {chunk : Nat} {chunks : List String}
    {arguments : List Argument} (hbuilt : template.interleave chunk chunks arguments = .ok built)
    {token : String} {symbol : Symbol} (h : built.symbols.get? token = some symbol) :
    .symbol symbol ∈ arguments ∨ template.symbols.get? token = some symbol := by
  induction chunks generalizing template chunk arguments with
  | nil =>
    cases arguments with
    | nil =>
      cases hbuilt
      exact .inr h
    | cons argument rest => cases hbuilt
  | cons text chunks ih =>
    unfold Template.interleave at hbuilt
    split at hbuilt
    · have hcases := ih hbuilt
      exact hcases
    · cases arguments with
      | nil => cases hbuilt
      | cons argument rest =>
        rcases ih hbuilt with hmem | hget
        · exact .inl (List.mem_cons_of_mem _ hmem)
        · change (template.splice argument).symbols.get? token = some symbol at hget
          rcases mem_of_get?_splice hget with rfl | hget
          · exact .inl List.mem_cons_self
          · exact .inr hget

/-- The selectors that can be parsed or built, from others of their kind. -/
inductive Producible : Selector → Prop
  | parsed {symbols : SymbolTable} {text : String} {selector : Selector}
      (hsymbols : ∀ token nested, symbols.get? token = some (.selector nested) → Producible nested)
      (hparse : parseWith symbols text = .ok selector) : Producible selector
  | built {chunks : List String} {arguments : List Argument} {selector : Selector}
      (harguments : ∀ nested, .symbol (.selector nested) ∈ arguments → Producible nested)
      (hbuild : build chunks arguments = .ok selector) : Producible selector

theorem Producible.wellFormed {selector : Selector} (h : selector.Producible) :
    selector.WellFormed := by
  induction h with
  | parsed _ hparse ih => exact wellFormed_of_parseWith ih hparse
  | built _ hbuild ih =>
    obtain ⟨template, htemplate, hparse⟩ := bind_eq_ok_iff.1 hbuild
    refine wellFormed_of_parseWith (fun token nested hnested => ?_) hparse
    rcases mem_of_get?_interleave htemplate hnested with hmem | hget
    · exact ih nested hmem
    · cases hget

end LinkedDocs.Selector
