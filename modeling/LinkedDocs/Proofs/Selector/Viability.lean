import LinkedDocs.Proofs.Selector.Lookahead
import LinkedDocs.Proofs.Selector.Rendering

/-!
Where the parser fails. What a text without symbols may go on with depends on what may come next in
the innermost bracket or brace, and on which of them are still open. Reading a text follows its
tokens from one such state to the next; it fails at the first token that cannot be followed, or at
the end of a text with something open. Every state can be completed, so what was read before a
failure can be continued, and no continuation has the offending character in it.
-/

namespace LinkedDocs.Selector

/-- What may come next. -/
inductive Expected where
  /-- The rest of a selector, or what ends it. -/
  | selector
  /-- What ends a selector. -/
  | ending
  /-- The key of an entry. -/
  | key
deriving DecidableEq

/-- What may come next, and what is open, the innermost one first. -/
structure Progress where
  expected : Expected
  opened : List Closing

/-- Whether a token goes in front of a selector, and if so, what is open then. -/
def Token.continues? (token : Token) (opened : List Closing) : Option Progress :=
  match token with
  | .field _ => some ⟨.selector, opened⟩
  | .index _ => some ⟨.selector, opened⟩
  | .shortcut => some ⟨.selector, opened⟩
  | .map => some ⟨.selector, opened⟩
  | .hardMap => some ⟨.selector, opened⟩
  | .openBracket => some ⟨.selector, .bracket :: opened⟩
  | .openBrace => some ⟨.key, .brace :: opened⟩
  | _ => none

/-- What a token that ends a selector leads to. -/
def Token.ends? (token : Token) (opened : List Closing) : Option Progress :=
  match token, opened with
  | .comma, .bracket :: outer => some ⟨.selector, .bracket :: outer⟩
  | .comma, .brace :: outer => some ⟨.key, .brace :: outer⟩
  | .closeBracket, .bracket :: outer => some ⟨.ending, outer⟩
  | .closeBrace, .brace :: outer => some ⟨.ending, outer⟩
  | _, _ => none

def Token.keys? (token : Token) (opened : List Closing) : Option Progress :=
  match token with
  | .field _ => some ⟨.selector, opened⟩
  | .star => some ⟨.selector, opened⟩
  | _ => none

namespace Progress

/-- The state after a token, if it can be followed. -/
def follow (progress : Progress) (token : Token) : Option Progress :=
  match progress.expected with
  | .selector => token.continues? progress.opened <|> token.ends? progress.opened
  | .ending => token.ends? progress.opened
  | .key => token.keys? progress.opened

def followAll (progress : Progress) (tokens : List Token) : Option Progress :=
  tokens.foldlM follow progress

/-- Whether a text may end here. -/
def IsComplete (progress : Progress) : Prop :=
  progress.expected ≠ .key ∧ progress.opened = []

/-- Whether neither one of some tokens can be followed nor, without any, the text may end here. -/
def IsStuck (progress : Progress) : List Token → Prop
  | [] => ¬progress.IsComplete
  | token :: _ => progress.follow token = none

theorem followAll_append (progress : Progress) (tokens others : List Token) :
    progress.followAll (tokens ++ others) =
      (progress.followAll tokens).bind fun reached => reached.followAll others :=
  List.foldlM_append

theorem followAll_cons (progress : Progress) (token : Token) (tokens : List Token) :
    progress.followAll (token :: tokens) =
      (progress.follow token).bind fun reached => reached.followAll tokens := rfl

end Progress

/-- Whether a token is no index or one that fits. -/
def Token.Fits : Token → Prop
  | .index digits => (decimalValue? digits.toList).isSome
  | _ => True

/-- The lexemes up to a rest lead from one state to another, and the indexes among them fit. -/
def Leads (start : Progress) (lexemes : List Lexeme) (reached : Progress) (rest : List Lexeme) :
    Prop :=
  ∃ consumed, lexemes = consumed ++ rest ∧
    start.followAll (consumed.map Lexeme.token) = some reached ∧
    ∀ lexeme ∈ consumed, lexeme.token.Fits

/-- Why a reading fails: an index does not fit, or the lexemes lead to where nothing goes on. -/
inductive Fails (source : Source) (start : Progress) (lexemes : List Lexeme) (error : ParseError) :
    Prop
  | outOfRange {lexeme : Lexeme} {digits : String} (hmem : lexeme ∈ lexemes)
      (hfits : ¬lexeme.token.Fits) (hfault : error.fault = .indexOutOfRange digits)
  | stuck {reached : Progress} {rest : List Lexeme} (hleads : Leads start lexemes reached rest)
      (hstuck : reached.IsStuck (rest.map Lexeme.token))
      (hposition : error.position = source.position rest)

/-- What holds of the rest of a reading that succeeds, and of the error of one that fails. -/
def Reports {α : Type} {lexemes : List Lexeme} (ok : List Lexeme → Prop) (fail : ParseError → Prop)
    (outcome : Except ParseError (α × Rest lexemes)) : Prop :=
  match outcome with
  | .ok (_, rest) => ok rest.1
  | .error error => fail error

section Readings

variable {source : Source} {start middle reached : Progress} {lexeme : Lexeme}
  {lexemes following rest : List Lexeme}

theorem Leads.refl (start : Progress) (lexemes : List Lexeme) : Leads start lexemes start lexemes :=
  ⟨[], rfl, rfl, fun _ h => absurd h List.not_mem_nil⟩

theorem Leads.single (hfollow : start.follow lexeme.token = some middle)
    (hfits : lexeme.token.Fits) : Leads start (lexeme :: rest) middle rest := by
  refine ⟨[lexeme], rfl, ?_, List.forall_mem_singleton.2 hfits⟩
  rw [List.map_singleton, Progress.followAll_cons, hfollow]
  rfl

theorem Leads.trans (h : Leads start lexemes middle following)
    (hrest : Leads middle following reached rest) : Leads start lexemes reached rest := by
  obtain ⟨consumed, rfl, hfollow, hfits⟩ := h
  obtain ⟨others, rfl, hothers, hfitting⟩ := hrest
  refine ⟨consumed ++ others, (List.append_assoc _ _ _).symm, ?_,
    List.forall_mem_append.2 ⟨hfits, hfitting⟩⟩
  rw [List.map_append, Progress.followAll_append, hfollow]
  exact hothers

theorem Leads.subset (h : Leads start lexemes reached rest) : rest ⊆ lexemes := by
  obtain ⟨consumed, rfl, -⟩ := h
  exact List.subset_append_right _ _

theorem Leads.fails (h : Leads start lexemes middle following) {error : ParseError}
    (hfails : Fails source middle following error) : Fails source start lexemes error := by
  cases hfails with
  | outOfRange hmem hfits hfault => exact .outOfRange (h.subset hmem) hfits hfault
  | stuck hleads hstuck hposition => exact .stuck (h.trans hleads) hstuck hposition

theorem Reports.bind {α β : Type} {outcome : Except ParseError (α × Rest following)}
    {ok ok' : List Lexeme → Prop} {fail fail' : ParseError → Prop} (h : Reports ok fail outcome)
    {next : α × Rest following → Except ParseError (β × Rest lexemes)}
    (hfail : ∀ error, fail error → fail' error)
    (hnext : ∀ value (rest : Rest following), ok rest.1 → Reports ok' fail' (next (value, rest))) :
    Reports ok' fail' (outcome >>= next) := by
  cases outcome with
  | error error => exact hfail error h
  | ok result => exact hnext result.1 result.2 h

/-- The lexemes up to a rest are a selector; the rest goes on only with what ends one. -/
def ReadsSelector (opened : List Closing) (lexemes rest : List Lexeme) : Prop :=
  ∃ expected, expected ≠ .key ∧ Leads ⟨.selector, opened⟩ lexemes ⟨expected, opened⟩ rest ∧
    ∀ lexeme ∈ rest.head?,
      (Progress.mk expected opened).follow lexeme.token = lexeme.token.ends? opened

variable {opened : List Closing}

theorem Leads.readsSelector (h : Leads ⟨.selector, opened⟩ lexemes ⟨.selector, opened⟩ following)
    (hreads : ReadsSelector opened following rest) : ReadsSelector opened lexemes rest := by
  obtain ⟨expected, hkey, hleads, hends⟩ := hreads
  exact ⟨expected, hkey, h.trans hleads, hends⟩

/-- A selector that nothing belongs to but its end. -/
theorem Leads.readsSelector_of_ending
    (h : Leads ⟨.selector, opened⟩ lexemes ⟨.ending, opened⟩ rest) :
    ReadsSelector opened lexemes rest :=
  ⟨.ending, nofun, h, fun _ _ => rfl⟩

theorem readsSelector_of_continues? (h : ∀ lexeme ∈ lexemes.head?,
    lexeme.token.continues? opened = none) : ReadsSelector opened lexemes lexemes := by
  refine ⟨.selector, nofun, .refl _ _, fun lexeme hlexeme => ?_⟩
  rw [Progress.follow, h lexeme hlexeme]
  rfl

theorem ReadsSelector.leads (h : ReadsSelector opened lexemes (lexeme :: rest))
    (hends : lexeme.token.ends? opened = some reached) (hfits : lexeme.token.Fits) :
    Leads ⟨.selector, opened⟩ lexemes reached rest := by
  obtain ⟨expected, -, hleads, hfollow⟩ := h
  exact hleads.trans (.single ((hfollow lexeme rfl).trans hends) hfits)

theorem ReadsSelector.fails (h : ReadsSelector opened lexemes rest) (hopened : opened ≠ [])
    (hends : ∀ lexeme ∈ rest.head?, lexeme.token.ends? opened = none) (fault : ParseFault) :
    Fails source ⟨.selector, opened⟩ lexemes ⟨fault, source.position rest⟩ := by
  obtain ⟨expected, -, hleads, hfollow⟩ := h
  refine .stuck hleads ?_ rfl
  cases rest with
  | nil => exact fun hcomplete => hopened hcomplete.2
  | cons lexeme rest => exact (hfollow lexeme rfl).trans (hends lexeme rfl)

end Readings

/-- The surroundings of a text without symbols. -/
abbrev plain (ending : Nat) : Source := ⟨.empty, ending⟩

section Parser

variable {ending : Nat}

/-- A token in front of a selector. -/
theorem reports_prefixed (token : Token) (offset : Nat) {following : List Lexeme}
    {opened : List Closing} (hcontinues : token.continues? opened = some ⟨.selector, opened⟩)
    (hfits : token.Fits) {wrap : Selector → Selector}
    (h : Reports (ReadsSelector opened following)
      (Fails (plain ending) ⟨.selector, opened⟩ following)
      (readSelector (plain ending) following)) :
    Reports (ReadsSelector opened (⟨token, offset⟩ :: following))
      (Fails (plain ending) ⟨.selector, opened⟩ (⟨token, offset⟩ :: following)) (do
        let (next, rest) ← readSelector (plain ending) following
        return (wrap next, rest.widen ⟨token, offset⟩)) := by
  have hleads : Leads ⟨.selector, opened⟩ (⟨token, offset⟩ :: following) ⟨.selector, opened⟩
      following := by
    refine .single ?_ hfits
    rw [Progress.follow, hcontinues]
    rfl
  exact h.bind (fun _ => hleads.fails) fun _ _ => hleads.readsSelector

mutual

theorem reports_readSelector (opened : List Closing) (lexemes : List Lexeme) :
    Reports (ReadsSelector opened lexemes) (Fails (plain ending) ⟨.selector, opened⟩ lexemes)
      (readSelector (plain ending) lexemes) := by
  cases lexemes with
  | nil =>
    unfold readSelector
    exact readsSelector_of_continues? fun _ h => absurd h nofun
  | cons lexeme following =>
    obtain ⟨token, offset⟩ := lexeme
    unfold readSelector
    split
    case h_1 name htoken =>
      cases htoken
      exact reports_prefixed (.field name) offset rfl trivial
        (reports_readSelector opened following)
    case h_2 digits htoken =>
      cases htoken
      split
      case h_1 hrange =>
        refine .outOfRange List.mem_cons_self ?_ rfl
        simp [Token.Fits, hrange]
      case h_2 position hposition =>
        exact reports_prefixed (.index digits) offset rfl
          (Option.isSome_iff_exists.2 ⟨position, hposition⟩) (reports_readSelector opened following)
    case h_3 htoken =>
      cases htoken
      exact reports_prefixed .shortcut offset rfl trivial (reports_readSelector opened following)
    case h_4 htoken =>
      cases htoken
      exact reports_prefixed .map offset rfl trivial (reports_readSelector opened following)
    case h_5 htoken =>
      cases htoken
      exact reports_prefixed .hardMap offset rfl trivial (reports_readSelector opened following)
    case h_6 token htoken =>
      cases htoken
      exact .stuck (.refl _ _) rfl rfl
    case h_7 htoken =>
      cases htoken
      have hopens : Leads ⟨.selector, opened⟩ (⟨.openBracket, offset⟩ :: following)
        ⟨.selector, .bracket :: opened⟩ following := .single rfl trivial
      exact (reports_readItems opened following).bind (fun _ => hopens.fails) fun _ _ hleads =>
        (hopens.trans hleads).readsSelector_of_ending
    case h_8 htoken =>
      cases htoken
      have hopens : Leads ⟨.selector, opened⟩ (⟨.openBrace, offset⟩ :: following)
        ⟨.key, .brace :: opened⟩ following := .single rfl trivial
      exact (reports_readEntries opened following).bind (fun _ => hopens.fails) fun _ _ hleads =>
        (hopens.trans hleads).readsSelector_of_ending
    case h_9 hfield hindex hshortcut hmap hhardMap hsymbol hbracket hbrace =>
      refine readsSelector_of_continues? fun lexeme hlexeme => ?_
      cases hlexeme
      cases token with
      | field name => exact absurd rfl (hfield name)
      | index digits => exact absurd rfl (hindex digits)
      | shortcut => exact absurd rfl hshortcut
      | map => exact absurd rfl hmap
      | hardMap => exact absurd rfl hhardMap
      | openBracket => exact absurd rfl hbracket
      | openBrace => exact absurd rfl hbrace
      | _ => rfl
termination_by (lexemes.length, 0)

theorem reports_readItems (opened : List Closing) (lexemes : List Lexeme) :
    Reports (Leads ⟨.selector, .bracket :: opened⟩ lexemes ⟨.ending, opened⟩)
      (Fails (plain ending) ⟨.selector, .bracket :: opened⟩ lexemes)
      (readItems (plain ending) lexemes) := by
  unfold readItems
  refine (reports_readSelector (.bracket :: opened) lexemes).bind (fun _ h => h)
    fun item rest hitem => ?_
  dsimp only
  split
  case h_1 offset following hcomma =>
    have hlength := rest.length_lt hcomma
    rw [hcomma] at hitem
    have hleads := hitem.leads rfl trivial
    exact (reports_readItems opened following).bind (fun _ => hleads.fails) fun _ _ => hleads.trans
  case h_2 offset following hclose =>
    rw [hclose] at hitem
    exact hitem.leads rfl trivial
  case h_3 hcomma hclose =>
    refine hitem.fails nofun (fun lexeme hlexeme => ?_) _
    obtain ⟨following, hrest⟩ := List.head?_eq_some_iff.1 hlexeme
    obtain ⟨token, offset⟩ := lexeme
    cases token with
    | comma => exact absurd hrest (hcomma offset following)
    | closeBracket => exact absurd hrest (hclose offset following)
    | _ => rfl
termination_by (lexemes.length, 1)

theorem reports_readEntries (opened : List Closing) (lexemes : List Lexeme) :
    Reports (Leads ⟨.key, .brace :: opened⟩ lexemes ⟨.ending, opened⟩)
      (Fails (plain ending) ⟨.key, .brace :: opened⟩ lexemes)
      (readEntries (plain ending) lexemes) := by
  unfold readEntries
  split
  case h_1 name offset following =>
    have hleads : Leads ⟨.key, .brace :: opened⟩ (⟨.field name, offset⟩ :: following)
      ⟨.selector, .brace :: opened⟩ following := .single rfl trivial
    exact (reports_readEntry opened (.field name) following).bind (fun _ => hleads.fails)
      fun _ _ => hleads.trans
  case h_2 offset following =>
    have hleads : Leads ⟨.key, .brace :: opened⟩ (⟨.star, offset⟩ :: following)
      ⟨.selector, .brace :: opened⟩ following := .single rfl trivial
    exact (reports_readEntry opened .wildcard following).bind (fun _ => hleads.fails)
      fun _ _ => hleads.trans
  case h_3 hfield hstar =>
    refine .stuck (.refl _ _) ?_ rfl
    cases lexemes with
    | nil => exact fun hcomplete => hcomplete.1 rfl
    | cons lexeme following =>
      obtain ⟨token, offset⟩ := lexeme
      cases token with
      | field name => exact absurd rfl (hfield name offset following)
      | star => exact absurd rfl (hstar offset following)
      | _ => rfl
termination_by (lexemes.length, 0)

theorem reports_readEntry (opened : List Closing) (key : ObjectKey) (lexemes : List Lexeme) :
    Reports (Leads ⟨.selector, .brace :: opened⟩ lexemes ⟨.ending, opened⟩)
      (Fails (plain ending) ⟨.selector, .brace :: opened⟩ lexemes)
      (readEntry (plain ending) key lexemes) := by
  unfold readEntry
  refine (reports_readSelector (.brace :: opened) lexemes).bind (fun _ h => h)
    fun selector rest hselector => ?_
  dsimp only
  split
  case h_1 offset following hcomma =>
    have hlength := rest.length_lt hcomma
    rw [hcomma] at hselector
    have hleads := hselector.leads rfl trivial
    exact (reports_readEntries opened following).bind (fun _ => hleads.fails)
      fun _ _ => hleads.trans
  case h_2 offset following hclose =>
    rw [hclose] at hselector
    exact hselector.leads rfl trivial
  case h_3 hcomma hclose =>
    refine hselector.fails nofun (fun lexeme hlexeme => ?_) _
    obtain ⟨following, hrest⟩ := List.head?_eq_some_iff.1 hlexeme
    obtain ⟨token, offset⟩ := lexeme
    cases token with
    | comma => exact absurd hrest (hcomma offset following)
    | closeBrace => exact absurd hrest (hclose offset following)
    | _ => rfl
termination_by (lexemes.length, 1)

end

end Parser

theorem Token.ends?_nil (token : Token) : token.ends? [] = none := by
  cases token <;> rfl

/-- Before a text. -/
def Progress.start : Progress := ⟨.selector, []⟩

/-- A text that is read leads to where it may end. -/
theorem leads_of_parse {text : String} {selector : Selector} (h : parse text = .ok selector) :
    ∃ reached, reached.IsComplete ∧ Leads .start (lex text) reached [] := by
  have hreports := @reports_readSelector (byteCount text.toList) [] (lex text)
  unfold parse parseWith at h
  obtain ⟨⟨selected, rest⟩, hread, hrest⟩ := bind_eq_ok_iff.1 h
  rw [hread] at hreports
  obtain ⟨expected, hkey, hleads, -⟩ := hreports
  dsimp only at hrest hleads
  split at hrest
  case h_1 hnil =>
    rw [hnil] at hleads
    exact ⟨⟨expected, []⟩, ⟨hkey, rfl⟩, hleads⟩
  case h_2 => cases hrest

theorem fails_of_parse {text : String} {error : ParseError} (h : parse text = .error error) :
    Fails (plain (byteCount text.toList)) .start (lex text) error := by
  have hreports := @reports_readSelector (byteCount text.toList) [] (lex text)
  unfold parse parseWith at h
  dsimp only at h
  cases hread : readSelector (plain (byteCount text.toList)) (lex text) with
  | error fault =>
    rw [hread] at h hreports
    cases h
    exact hreports
  | ok result =>
    obtain ⟨selected, rest⟩ := result
    rw [hread] at h hreports
    obtain ⟨expected, -, hleads, hends⟩ := hreports
    rw [ok_bind] at h
    dsimp only at h
    split at h
    case h_1 => cases h
    case h_2 lexeme others hrest =>
      cases h
      rw [hrest] at hleads hends
      exact .stuck hleads ((hends lexeme rfl).trans lexeme.token.ends?_nil) rfl

/-- The texts that are read: their indexes fit, and their tokens lead to where a text may end. -/
theorem exists_parse_iff {text : String} :
    (∃ selector, parse text = .ok selector) ↔
      (∃ reached, reached.IsComplete ∧
        Progress.start.followAll ((lex text).map Lexeme.token) = some reached) ∧
      ∀ token ∈ (lex text).map Lexeme.token, token.Fits := by
  constructor
  · rintro ⟨selector, hparse⟩
    obtain ⟨reached, hcomplete, consumed, hlex, hfollow, hfits⟩ := leads_of_parse hparse
    rw [hlex, List.append_nil]
    exact ⟨⟨reached, hcomplete, hfollow⟩, List.forall_mem_map.2 hfits⟩
  · rintro ⟨⟨reached, hcomplete, hfollow⟩, hfits⟩
    cases hparse : parse text with
    | ok selector => exact ⟨selector, rfl⟩
    | error error =>
      exfalso
      cases fails_of_parse hparse with
      | outOfRange hmem hunfit _ => exact hunfit (hfits _ (List.mem_map_of_mem hmem))
      | @stuck before rest hleads hstuck _ =>
        obtain ⟨consumed, hlex, hbefore, -⟩ := hleads
        rw [hlex, List.map_append, Progress.followAll_append, hbefore, Option.bind_some] at hfollow
        cases rest with
        | nil =>
          cases hfollow
          exact hstuck hcomplete
        | cons lexeme rest =>
          rw [List.map_cons, Progress.followAll_cons, hstuck] at hfollow
          cases hfollow

def Closing.token : Closing → Token
  | .bracket => .closeBracket
  | .brace => .closeBrace

namespace Progress

/-- Tokens with which a text can end: a key where one is expected, and what closes the open ones. -/
def completion (progress : Progress) : List Token :=
  (if progress.expected = .key then [.field "a"] else []) ++ progress.opened.map Closing.token

theorem followAll_closing {expected : Expected} (hkey : expected ≠ .key) (opened : List Closing) :
    ∃ reached, reached.IsComplete ∧
      (Progress.mk expected opened).followAll (opened.map Closing.token) = some reached := by
  induction opened generalizing expected with
  | nil => exact ⟨⟨expected, []⟩, ⟨hkey, rfl⟩, rfl⟩
  | cons closing outer ih =>
    have hending : Expected.ending ≠ .key := nofun
    obtain ⟨reached, hcomplete, hfollow⟩ := ih hending
    refine ⟨reached, hcomplete, ?_⟩
    rw [List.map_cons, followAll_cons]
    cases expected <;> cases closing <;> first | exact hfollow | exact absurd rfl hkey

/-- Every state can be completed. -/
theorem followAll_completion (progress : Progress) : ∃ reached, reached.IsComplete ∧
    progress.followAll progress.completion = some reached := by
  obtain ⟨expected, opened⟩ := progress
  rw [completion]
  split
  case isTrue hkey =>
    cases hkey
    have hselector : Expected.selector ≠ .key := nofun
    exact followAll_closing hselector opened
  case isFalse hkey => exact followAll_closing hkey opened

theorem isLexical_completion (progress : Progress) : AreLexical progress.completion := by
  refine AreLexical.append ?_ ?_
  · split
    · exact .cons (isLexical_field_iff.2 (by decide)) .nil
    · exact .nil
  · intro token htoken
    obtain ⟨closing, -, rfl⟩ := List.mem_map.1 htoken
    cases closing <;> trivial

theorem fits_completion (progress : Progress) : ∀ token ∈ progress.completion, token.Fits := by
  intro token htoken
  rcases List.mem_append.1 htoken with hkey | hclosing
  · split at hkey
    · cases List.mem_singleton.1 hkey
      trivial
    · cases hkey
  · obtain ⟨closing, -, rfl⟩ := List.mem_map.1 hclosing
    cases closing <;> trivial

theorem follow_other (progress : Progress) (strange : Char) :
    progress.follow (.other strange) = none := by
  obtain ⟨expected, opened⟩ := progress
  cases expected <;> rfl

theorem ne_other_of_followAll {progress reached : Progress} {tokens : List Token}
    (h : progress.followAll tokens = some reached) :
    ∀ token ∈ tokens, ∀ strange, token ≠ .other strange := by
  induction tokens generalizing progress with
  | nil => exact fun _ hmem => absurd hmem List.not_mem_nil
  | cons token tokens ih =>
    rw [followAll_cons] at h
    obtain ⟨next, hfollow, hrest⟩ := Option.bind_eq_some_iff.1 h
    refine List.forall_mem_cons.2 ⟨?_, ih hrest⟩
    rintro strange rfl
    cases (progress.follow_other strange).symm.trans hfollow

/-- Whether a state can be left depends on nothing but the next character. -/
theorem follow_lexAt (progress : Progress) (character : Char) (rest others : List Char) :
    progress.follow (lexAt character rest).1 = progress.follow (lexAt character others).1 := by
  obtain ⟨expected, opened⟩ := progress
  refine apply_lexAt (fun _ _ => ?_) (fun _ _ => ?_) ?_ (fun _ => ?_) character rest others <;>
    cases expected <;> rfl

end Progress

section Offence

variable {front following : List Char} {tokens : List Token} {reached : Progress}

/-- The text up to a place that fitting tokens lead to can be continued to one that is read. -/
theorem exists_parse_append (hcut : Cut front tokens)
    (hfollow : Progress.start.followAll tokens = some reached)
    (hfits : ∀ token ∈ tokens, token.Fits) :
    ∃ extension selector, parse (String.ofList front ++ extension) = .ok selector := by
  refine ⟨String.ofList (' ' :: spell reached.completion), exists_parse_iff.2 ?_⟩
  have hblank : isSeparator ' ' := by decide
  have hwhole := hcut.append hblank (cut_spell reached.isLexical_completion)
  have hlex : (lex (String.ofList front ++ String.ofList (' ' :: spell reached.completion))).map
      Lexeme.token = tokens ++ reached.completion := by
    rw [lex, ← String.ofList_append, String.toList_ofList]
    exact hwhole.map_token_lexFrom 0
  obtain ⟨last, hcomplete, hcompletion⟩ := reached.followAll_completion
  rw [hlex]
  refine ⟨⟨last, hcomplete, ?_⟩, List.forall_mem_append.2 ⟨hfits, reached.fits_completion⟩⟩
  rw [Progress.followAll_append, hfollow]
  exact hcompletion

/-- No text is read that goes on with a character where no token that begins with it can stand. -/
theorem not_parse_append {character : Char} {rest : List Char}
    (hcut : CutBefore (character :: rest) front tokens) (hseparator : ¬isSeparator character)
    (hfollow : Progress.start.followAll tokens = some reached)
    (hstuck : reached.follow (lexAt character rest).1 = none) (continuation : List Char)
    (selector : Selector) :
    parse (String.ofList (front ++ character :: continuation)) ≠ .ok selector := by
  intro hparse
  obtain ⟨⟨last, -, hlast⟩, -⟩ := exists_parse_iff.1 ⟨selector, hparse⟩
  have hother : CutBefore (character :: continuation) front tokens := hcut.congr_head rfl
  rw [lex, String.toList_ofList, hother.map_token_lexFrom, Progress.followAll_append, hfollow,
    Option.bind_some, lexFrom, if_neg hseparator, List.map_cons, Progress.followAll_cons,
    reached.follow_lexAt character continuation rest, hstuck] at hlast
  cases hlast

end Offence

/-- An error that is not about the range of an index stands at the first offending character: at
the end of a beginning of the text that can be continued to a text that is read, and where a character
stands there, no text is read that begins with that beginning and the character. -/
theorem parse_error_at_first_offence {text : String} {error : ParseError}
    (hparse : parse text = .error error)
    (hfault : ∀ digits, error.fault ≠ .indexOutOfRange digits) :
    ∃ before after, text = before ++ after ∧ before.utf8ByteSize = error.position ∧
      error.position ≤ text.utf8ByteSize ∧
      (∃ extension selector, parse (before ++ extension) = .ok selector) ∧
      ∀ character ∈ after.toList.head?, ∀ continuation selector,
        parse (before ++ character.toString ++ continuation) ≠ .ok selector := by
  cases fails_of_parse hparse with
  | @outOfRange _ digits _ _ hrange => exact absurd hrange (hfault digits)
  | @stuck reached rest hleads hstuck hposition =>
    obtain ⟨consumed, hlex, hfollow, hfits⟩ := hleads
    have hstrange := List.forall_mem_map.1 (Progress.ne_other_of_followAll hfollow)
    obtain ⟨front, following, htext, hcut, hrest, hfollowing⟩ := exists_cutBefore hlex hstrange
    rw [Nat.zero_add] at hrest
    have hfront : String.ofList front ++ String.ofList following = text := by
      rw [← String.ofList_append, ← htext, String.ofList_toList]
    have hsize : (String.ofList front).utf8ByteSize = error.position := by
      rw [hposition, ← byteCount_toList, String.toList_ofList]
      cases following with
      | nil =>
        rw [lexFrom] at hrest
        rw [← hrest, Source.position, htext, List.append_nil]
      | cons character following =>
        rw [lexFrom, if_neg (hfollowing character rfl)] at hrest
        rw [← hrest]
        rfl
    refine ⟨String.ofList front, String.ofList following, hfront.symm, hsize, ?_,
      exists_parse_append hcut.cut hfollow (List.forall_mem_map.2 hfits), ?_⟩
    · rw [← hsize, ← hfront, String.utf8ByteSize_append]
      exact Nat.le_add_right _ _
    · intro character hcharacter continuation selector
      rw [String.toList_ofList] at hcharacter
      obtain ⟨others, rfl⟩ := List.head?_eq_some_iff.1 hcharacter
      have hseparator := hfollowing character rfl
      rw [lexFrom, if_neg hseparator] at hrest
      rw [← hrest] at hstuck
      have happend : String.ofList front ++ character.toString ++ continuation =
          String.ofList (front ++ character :: continuation.toList) := by
        apply String.toList_injective
        simp
      rw [happend]
      exact not_parse_append hcut hseparator hfollow hstuck _ _

theorem parse_of_readSelector_error {text : String} {lexemes : List Lexeme} {error : ParseError}
    (hlex : lex text = lexemes)
    (hread : readSelector (plain (byteCount text.toList)) lexemes = .error error) :
    parse text = .error error := by
  subst hlex
  unfold parse parseWith
  dsimp only
  rw [hread]
  rfl

/-- An object with a tuple in which a character of two bytes begins no lexeme. -/
theorem parse_error_strangeItem :
    parse "\x7b a [b é] \x7d" = .error ⟨.unexpected (some 'é') .bracket, 7⟩ ∧
    ∃ before after, "\x7b a [b é] \x7d" = before ++ after ∧ before.utf8ByteSize = 7 ∧
      ∃ extension selector, parse (before ++ extension) = .ok selector := by
  have hlex : lex "\x7b a [b é] \x7d" = [⟨.openBrace, 0⟩, ⟨.field "a", 2⟩, ⟨.openBracket, 4⟩,
      ⟨.field "b", 5⟩, ⟨.other 'é', 7⟩, ⟨.closeBracket, 9⟩, ⟨.closeBrace, 11⟩] := by
    decide +kernel
  have hparse : parse "\x7b a [b é] \x7d" = .error ⟨.unexpected (some 'é') .bracket, 7⟩ := by
    refine parse_of_readSelector_error hlex ?_
    simp only [readSelector, readEntries, readEntry]
    rw [readItems]
    simp only [readSelector]
    rfl
  obtain ⟨before, after, htext, hsize, -, hextension, -⟩ :=
    parse_error_at_first_offence hparse fun _ hfault => by cases hfault
  exact ⟨hparse, before, after, htext, hsize, hextension⟩

end LinkedDocs.Selector
