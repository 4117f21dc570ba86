import LinkedDocs.Proofs.Selector.Lexing
import LinkedDocs.Proofs.Selector.WellFormed
import Mathlib.Data.List.Induction

/-!
The grammar of selectors, over tokens, and the parser as the function that finds its derivations. A
switch without another branch is open at its end: a colon that follows belongs to it. So the
branches of a switch are told apart by a first branch that is not open.
-/

namespace LinkedDocs.Selector

/-- Of the entries that are written with one key, the first position and the last selector count. -/
structure Merges (written merged : List (ObjectKey × Selector)) : Prop where
  keys : merged.map Prod.fst = (written.map Prod.fst).eraseDups
  last : ∀ entry ∈ merged, written.reverse.lookup entry.1 = some entry.2

/-- A token in front of a selector, and the selector that the two make. -/
inductive Prefixes (symbols : SymbolTable) : Token → Selector → Selector → Prop
  | field {name : String} {next : Selector} : Prefixes symbols (.field name) next (.field name next)
  | index {digits : String} {position : Nat} {next : Selector}
      (hvalue : Nat.ofDigitChars 10 digits.toList 0 = position)
      (hfits : position < UInt64.size) :
      Prefixes symbols (.index digits) next (.index position next)
  | shortcut {next : Selector} : Prefixes symbols .shortcut next (.shortcut next)
  | map {next : Selector} : Prefixes symbols .map next (.map next)
  | hardMap {next : Selector} : Prefixes symbols .hardMap next (.hardMap next)
  | spliced {token : String} {nested next selector : Selector}
      (hsymbol : symbols.get? token = some (.selector nested))
      (hchain : nested.chain next = some selector) :
      Prefixes symbols (.symbol token) next selector
  | filter {token : String} {name : PredicateName} {next : Selector}
      (hsymbol : symbols.get? token = some (.predicate name)) :
      Prefixes symbols (.symbol token) next (.filter name next)
  | query {token : String} {query : Json} {next : Selector}
      (hsymbol : symbols.get? token = some (.query query)) (hobject : query.isObject) :
      Prefixes symbols (.symbol token) next (.filterQuery query next)

def keyToken : ObjectKey → Token
  | .field name => .field name
  | .wildcard => .star

mutual

/-- The tokens of a selector, which may be open at their end. -/
inductive Derives (symbols : SymbolTable) : Bool → List Token → Selector → Prop
  | identity : Derives symbols false [] .identity
  | prefixed {isOpen : Bool} {token : Token} {tokens : List Token} {next selector : Selector}
      (hfront : Prefixes symbols token next selector)
      (hnext : Derives symbols isOpen tokens next) : Derives symbols isOpen (token :: tokens) selector
  | switch {isOpen : Bool} {token : String} {name : PredicateName} {tokens : List Token}
      {accepted : Selector} (hsymbol : symbols.get? token = some (.predicate name))
      (haccepted : Derives symbols isOpen tokens accepted) :
      Derives symbols true (.symbol token :: .question :: tokens) (.switch name accepted .identity)
  | switchElse {isOpen : Bool} {token : String} {name : PredicateName} {tokens others : List Token}
      {accepted otherwise : Selector} (hsymbol : symbols.get? token = some (.predicate name))
      (haccepted : Derives symbols false tokens accepted)
      (hotherwise : Derives symbols isOpen others otherwise) :
      Derives symbols isOpen (.symbol token :: .question :: (tokens ++ .colon :: others))
        (.switch name accepted otherwise)
  | tuple {tokens : List Token} {items : List Selector} (hitems : DerivesItems symbols tokens items) :
      Derives symbols false (.openBracket :: (tokens ++ [.closeBracket])) (.tuple items)
  | object {tokens : List Token} {written merged : List (ObjectKey × Selector)}
      (hwritten : DerivesEntries symbols tokens written) (hmerges : Merges written merged) :
      Derives symbols false (.openBrace :: (tokens ++ [.closeBrace])) (.object merged)

inductive DerivesItems (symbols : SymbolTable) : List Token → List Selector → Prop
  | last {isOpen : Bool} {tokens : List Token} {item : Selector}
      (hitem : Derives symbols isOpen tokens item) : DerivesItems symbols tokens [item]
  | more {isOpen : Bool} {tokens others : List Token} {item : Selector} {items : List Selector}
      (hitem : Derives symbols isOpen tokens item) (hitems : DerivesItems symbols others items) :
      DerivesItems symbols (tokens ++ .comma :: others) (item :: items)

inductive DerivesEntries (symbols : SymbolTable) :
    List Token → List (ObjectKey × Selector) → Prop
  | last {isOpen : Bool} {key : ObjectKey} {tokens : List Token} {selector : Selector}
      (hselector : Derives symbols isOpen tokens selector) :
      DerivesEntries symbols (keyToken key :: tokens) [(key, selector)]
  | more {isOpen : Bool} {key : ObjectKey} {tokens others : List Token} {selector : Selector}
      {entries : List (ObjectKey × Selector)} (hselector : Derives symbols isOpen tokens selector)
      (hentries : DerivesEntries symbols others entries) :
      DerivesEntries symbols (keyToken key :: (tokens ++ .comma :: others))
        ((key, selector) :: entries)

end

theorem keys_putEntry (key : ObjectKey) (selector : Selector)
    (entries : List (ObjectKey × Selector)) :
    (putEntry key selector entries).map Prod.fst =
      if key ∈ entries.map Prod.fst then entries.map Prod.fst
      else entries.map Prod.fst ++ [key] := by
  induction entries with
  | nil => rfl
  | cons entry rest ih =>
    obtain ⟨first, existing⟩ := entry
    rw [putEntry]
    by_cases heq : first = key
    · simp [heq]
    · by_cases hmem : key ∈ rest.map Prod.fst
      · have hkey : key ∈ ((first, existing) :: rest).map Prod.fst := List.mem_cons_of_mem _ hmem
        rw [if_neg heq, if_pos hkey, List.map_cons, ih, if_pos hmem, List.map_cons]
      · have hkey : key ∉ ((first, existing) :: rest).map Prod.fst := by
          simp only [List.map_cons, List.mem_cons, not_or]
          exact ⟨fun h => heq h.symm, hmem⟩
        rw [if_neg heq, if_neg hkey, List.map_cons, ih, if_neg hmem, List.map_cons,
          List.cons_append]

theorem eq_or_of_mem_putEntry {key : ObjectKey} {selector : Selector}
    {entries : List (ObjectKey × Selector)} (hkeys : (entries.map Prod.fst).Nodup)
    {entry : ObjectKey × Selector} (h : entry ∈ putEntry key selector entries) :
    entry = (key, selector) ∨ entry ∈ entries ∧ entry.1 ≠ key := by
  induction entries with
  | nil => simpa [putEntry] using h
  | cons head rest ih =>
    obtain ⟨first, existing⟩ := head
    obtain ⟨hfirst, hrest⟩ := List.nodup_cons.1 hkeys
    rw [putEntry] at h
    split at h
    case isTrue heq =>
      rcases List.mem_cons.1 h with rfl | hmem
      · exact .inl rfl
      · refine .inr ⟨List.mem_cons_of_mem _ hmem, fun hkey => hfirst ?_⟩
        have hmap : entry.1 ∈ rest.map Prod.fst := List.mem_map_of_mem hmem
        rwa [hkey, ← heq] at hmap
    case isFalse hne =>
      rcases List.mem_cons.1 h with rfl | hmem
      · exact .inr ⟨List.mem_cons_self, hne⟩
      · exact (ih hrest hmem).imp id (And.imp_left (List.mem_cons_of_mem _))

theorem Merges.putEntry {written merged : List (ObjectKey × Selector)} (h : Merges written merged)
    (hkeys : (merged.map Prod.fst).Nodup) (key : ObjectKey) (selector : Selector) :
    Merges (written ++ [(key, selector)]) (putEntry key selector merged) where
  keys := by
    have hmem : key ∈ merged.map Prod.fst ↔ key ∈ written.map Prod.fst := by
      rw [h.keys, List.mem_eraseDups]
    rw [keys_putEntry, List.map_append, List.eraseDups_append, ← h.keys]
    by_cases hold : key ∈ merged.map Prod.fst
    · rw [if_pos hold]
      simp [List.removeAll, hmem.1 hold]
    · rw [if_neg hold]
      simp [List.removeAll, mt hmem.2 hold, List.eraseDups_cons]
  last := by
    intro entry hentry
    rw [List.reverse_append]
    rcases eq_or_of_mem_putEntry hkeys hentry with rfl | ⟨hold, hne⟩
    · simp
    · have hkey : (entry.1 == key) = false := beq_eq_false_iff_ne.2 hne
      simpa [List.lookup_cons, hkey] using h.last entry hold

theorem merges_foldl_putEntry (written : List (ObjectKey × Selector)) :
    let merged := written.foldl (fun merged entry => putEntry entry.1 entry.2 merged) []
    (merged.map Prod.fst).Nodup ∧ Merges written merged := by
  induction written using List.reverseRecOn with
  | nil => exact ⟨List.nodup_nil, rfl, fun _ hentry => absurd hentry List.not_mem_nil⟩
  | append_singleton written entry ih =>
    rw [List.foldl_append]
    exact ⟨nodup_keys_putEntry entry.1 entry.2 ih.1, ih.2.putEntry ih.1 entry.1 entry.2⟩

theorem eq_of_keys_of_lookup (found : ObjectKey → Option Selector)
    {left right : List (ObjectKey × Selector)} (hkeys : left.map Prod.fst = right.map Prod.fst)
    (hleft : ∀ entry ∈ left, found entry.1 = some entry.2)
    (hright : ∀ entry ∈ right, found entry.1 = some entry.2) : left = right := by
  induction left generalizing right with
  | nil => exact (List.map_eq_nil_iff.1 hkeys.symm).symm
  | cons first left ih =>
    cases right with
    | nil => cases hkeys
    | cons second right =>
      obtain ⟨hkey, hrest⟩ := List.cons.inj hkeys
      obtain ⟨hfirst, hleft⟩ := List.forall_mem_cons.1 hleft
      obtain ⟨hsecond, hright⟩ := List.forall_mem_cons.1 hright
      rw [hkey, hsecond] at hfirst
      rw [Prod.ext hkey (Option.some.inj hfirst).symm, ih hrest hleft hright]

theorem merges_iff {written merged : List (ObjectKey × Selector)} :
    Merges written merged ↔ ofEntries written = .object merged := by
  have hfold := (merges_foldl_putEntry written).2
  constructor
  · intro h
    have hmerged := eq_of_keys_of_lookup (fun key => List.lookup key written.reverse)
      (hfold.keys.trans h.keys.symm) hfold.last h.last
    rw [ofEntries, hmerged]
  · intro h
    rw [ofEntries] at h
    rwa [Selector.object.inj h] at hfold

end LinkedDocs.Selector
