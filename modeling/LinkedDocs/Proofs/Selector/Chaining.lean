import LinkedDocs.Proofs.Selector.Grammar

namespace LinkedDocs.Selector

theorem isIdentity_iff {selector : Selector} : selector.isIdentity ↔ selector = .identity := by
  cases selector <;> simp [isIdentity]

theorem extend_ne_identity {next nested selector : Selector} (hnested : nested ≠ .identity)
    (h : extend next nested = some selector) : selector ≠ .identity := by
  rintro rfl
  cases nested with
  | identity => exact hnested rfl
  | switch predicate accepted otherwise =>
    rw [extend] at h
    split at h <;> simp at h
  | _ => simp [extend] at h

/-- Continuing twice is continuing once by a continuation. -/
theorem extend_extend {next nested selector : Selector} (h : extend next nested = some selector)
    (last : Selector) :
    extend last selector = (extend last next).bind fun next => extend next nested := by
  fun_induction extend next nested generalizing selector with
  | case1 =>
    cases h
    simp [extend]
  | case8 predicate accepted otherwise hidentity ih =>
    obtain ⟨accepted', haccepted, rfl⟩ := Option.map_eq_some_iff.1 h
    simp only [extend, hidentity, if_true, ih haccepted, Option.map_bind]
    rfl
  | case9 predicate accepted otherwise hidentity ih =>
    obtain ⟨otherwise', hotherwise, rfl⟩ := Option.map_eq_some_iff.1 h
    have hidentity' : ¬otherwise'.isIdentity := by
      rw [isIdentity_iff] at hidentity ⊢
      exact extend_ne_identity hidentity hotherwise
    simp only [extend, hidentity, hidentity', ih hotherwise, Option.map_bind]
    rfl
  | case11 => cases h
  | case12 => cases h
  | case4 _ ih | case5 _ ih | case6 _ ih
  | case2 _ _ ih | case3 _ _ ih | case7 _ _ ih | case10 _ _ ih =>
    obtain ⟨inner, hinner, rfl⟩ := Option.map_eq_some_iff.1 h
    simp only [extend, ih hinner, Option.map_bind]
    rfl

theorem chain_identity (first : Selector) : first.chain .identity = some first := rfl

theorem identity_chain (next : Selector) : chain .identity next = some next := by
  cases next <;> rfl

theorem chain_eq_extend {next : Selector} (h : next ≠ .identity) (first : Selector) :
    first.chain next = extend next first := by
  rw [chain, if_neg (mt isIdentity_iff.1 h)]

theorem chain_chain {nested next selector : Selector} (h : nested.chain next = some selector)
    (last : Selector) : selector.chain last = (next.chain last).bind nested.chain := by
  by_cases hlast : last = .identity
  · subst hlast
    rw [chain_identity, chain_identity, Option.bind_some, h]
  by_cases hnext : next = .identity
  · subst hnext
    cases h
    rw [identity_chain, Option.bind_some]
  rw [chain_eq_extend hnext] at h
  rw [chain_eq_extend hlast, chain_eq_extend hlast, extend_extend h]
  refine Option.bind_congr fun after hafter => ?_
  exact (chain_eq_extend (extend_ne_identity hnext hafter) nested).symm

/-- Whether a selector can be continued does not depend on the continuation. -/
theorem extend_eq_none_iff (next other first : Selector) :
    extend next first = none ↔ extend other first = none := by
  fun_induction extend next first with
  | case1 => simp [extend]
  | case8 predicate accepted otherwise hidentity ih =>
    rw [extend, if_pos hidentity, Option.map_eq_none_iff, Option.map_eq_none_iff, ih]
  | case9 predicate accepted otherwise hidentity ih =>
    rw [extend, if_neg hidentity, Option.map_eq_none_iff, Option.map_eq_none_iff, ih]
  | case11 | case12 => simp [extend]
  | case4 _ ih | case5 _ ih | case6 _ ih
  | case2 _ _ ih | case3 _ _ ih | case7 _ _ ih | case10 _ _ ih =>
    rw [extend, Option.map_eq_none_iff, Option.map_eq_none_iff, ih]

theorem chain_ne_identity {first next selector : Selector} (hfirst : first ≠ .identity)
    (h : first.chain next = some selector) : selector ≠ .identity := by
  by_cases hnext : next = .identity
  · subst hnext
    cases h
    exact hfirst
  · rw [chain_eq_extend hnext] at h
    exact extend_ne_identity hfirst h

/-- Chaining is associative as a partial operation, with the identity on both sides. -/
theorem chain_identity_and_assoc (first next last : Selector) :
    first.chain .identity = some first ∧ chain .identity next = some next ∧
      ((first.chain next).bind fun both => both.chain last) =
        (next.chain last).bind first.chain := by
  refine ⟨chain_identity first, identity_chain next, ?_⟩
  cases hboth : first.chain next with
  | some both => rw [Option.bind_some, chain_chain hboth]
  | none =>
    have hnext : next ≠ .identity := by
      rintro rfl
      cases hboth
    rw [chain_eq_extend hnext] at hboth
    rw [Option.bind_none, eq_comm, Option.bind_eq_none_iff]
    intro after hafter
    -- the first selector ends in a tuple or an object, and a longer continuation is refused as well
    rw [chain_eq_extend (chain_ne_identity hnext hafter)]
    exact (extend_eq_none_iff next after first).1 hboth

section

variable {symbols : SymbolTable} {token : String} {next selector : Selector}

theorem prefixes_spliced_iff {nested : Selector}
    (hsymbol : symbols.get? token = some (.selector nested)) :
    Prefixes symbols (.symbol token) next selector ↔ nested.chain next = some selector := by
  refine ⟨fun h => ?_, .spliced hsymbol⟩
  cases h with
  | spliced hsymbol' hchain =>
    cases hsymbol.symm.trans hsymbol'
    exact hchain
  | filter hsymbol' => cases hsymbol.symm.trans hsymbol'
  | query hsymbol' => cases hsymbol.symm.trans hsymbol'

theorem prefixes_filter_iff {name : PredicateName}
    (hsymbol : symbols.get? token = some (.predicate name)) :
    Prefixes symbols (.symbol token) next selector ↔ filter name next = selector := by
  refine ⟨fun h => ?_, fun h => h ▸ .filter hsymbol⟩
  cases h with
  | spliced hsymbol' => cases hsymbol.symm.trans hsymbol'
  | filter hsymbol' =>
    cases hsymbol.symm.trans hsymbol'
    rfl
  | query hsymbol' => cases hsymbol.symm.trans hsymbol'

theorem prefixes_query_iff {query : Json} (hsymbol : symbols.get? token = some (.query query))
    (hobject : query.isObject) :
    Prefixes symbols (.symbol token) next selector ↔ filterQuery query next = selector := by
  refine ⟨fun h => ?_, fun h => h ▸ .query hsymbol hobject⟩
  cases h with
  | spliced hsymbol' => cases hsymbol.symm.trans hsymbol'
  | filter hsymbol' => cases hsymbol.symm.trans hsymbol'
  | query hsymbol' =>
    cases hsymbol.symm.trans hsymbol'
    rfl

end

section

variable {last selector : Selector}

/-- Behind a step, a continuation continues what the step leads to. -/
theorem chain_map_iff (step : Selector → Selector) {next : Selector}
    (hstep : ∀ last, extend last (step next) = (extend last next).map step) :
    (step next).chain last = some selector ↔
      ∃ after, next.chain last = some after ∧ step after = selector := by
  by_cases hlast : last = .identity
  · subst hlast
    simp [chain_identity]
  · rw [chain_eq_extend hlast, chain_eq_extend hlast, hstep, Option.map_eq_some_iff]

theorem chain_switch_iff {predicate : PredicateName} {accepted : Selector} :
    (switch predicate accepted .identity).chain last = some selector ↔
      ∃ after, accepted.chain last = some after ∧ switch predicate after .identity = selector :=
  chain_map_iff (fun accepted => switch predicate accepted .identity) fun _ => rfl

theorem chain_switchElse_iff {predicate : PredicateName} {accepted otherwise : Selector}
    (h : otherwise = .identity → last = .identity) :
    (switch predicate accepted otherwise).chain last = some selector ↔
      ∃ after, otherwise.chain last = some after ∧ switch predicate accepted after = selector := by
  by_cases hotherwise : otherwise = .identity
  · rw [h hotherwise]
    simp [chain_identity]
  · refine chain_map_iff (switch predicate accepted) fun last => ?_
    rw [extend, if_neg (mt isIdentity_iff.1 hotherwise)]

theorem chain_terminal_iff {first : Selector} (h : ∀ last, extend last first = none) :
    first.chain last = some selector ↔ last = .identity ∧ selector = first := by
  by_cases hlast : last = .identity
  · simp [hlast, chain_identity, eq_comm]
  · simp [chain_eq_extend hlast, h, hlast]

/-- What a token makes of a selector is continued by continuing the selector. -/
theorem Prefixes.chain_iff {symbols : SymbolTable} {token : Token} {next first : Selector}
    (h : Prefixes symbols token next first) :
    first.chain last = some selector ↔
      ∃ after, next.chain last = some after ∧ Prefixes symbols token after selector := by
  cases h with
  | spliced hsymbol hchain =>
    simp only [chain_chain hchain, Option.bind_eq_some_iff, prefixes_spliced_iff hsymbol]
  | filter hsymbol =>
    rw [chain_map_iff _ fun _ => rfl]
    simp only [prefixes_filter_iff hsymbol]
  | query hsymbol hobject =>
    rw [chain_map_iff _ fun _ => rfl]
    simp only [prefixes_query_iff hsymbol hobject]
  | index hvalue hfits =>
    rw [chain_map_iff _ fun _ => rfl]
    refine exists_congr fun after => and_congr_right fun _ => ⟨?_, fun hafter => ?_⟩
    · rintro rfl
      exact .index hvalue hfits
    · cases hafter with
      | index hvalue' =>
        subst hvalue hvalue'
        rfl
  | _ =>
    rw [chain_map_iff _ fun _ => rfl]
    refine exists_congr fun after => and_congr_right fun _ => ⟨?_, fun hafter => ?_⟩
    · rintro rfl
      constructor
    · cases hafter
      rfl

end

end LinkedDocs.Selector
