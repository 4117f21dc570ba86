import LinkedDocs.Proofs.Json.Content
import LinkedDocs.Proofs.Json.SameValue

/-!
Cuts. A cut looks along a path for keys and replaces, or takes away, what stands at an earlier place
of the path above each key that it finds. Deleting the documents with some keys, clearing a foreign
key and pulling the elements that refer to deleted documents are all cuts, and cuts commute.
-/

namespace LinkedDocs

open Json

namespace Content

/-- Whether a path reaches one of some keys. -/
def holdsAt (keys : List Json) : List String → Content → Bool
  | [], .atom value => holds keys value
  | [], _ => false
  | _ :: _, .atom _ => false
  | segment :: rest, .array items => segment = wildcard && items.any (holdsAt keys rest)
  | segment :: rest, .object fields =>
    segment ≠ wildcard && (fields segment).any (holdsAt keys rest)

/-- Changes what a path reaches. Elements and fields of which nothing is left are gone. -/
def edit (change : Content → Option Content) : List String → Content → Option Content
  | [], content => change content
  | segment :: rest, content =>
    match content with
    | .atom value => some (.atom value)
    | .array items =>
      if segment = wildcard then some (.array (items.filterMap (edit change rest)))
      else some (.array items)
    | .object fields =>
      if segment = wildcard then some (.object fields)
      else some (.object fun name =>
        if name = segment then (fields name).bind (edit change rest) else fields name)

section Simp

variable {keys : List Json} {change : Content → Option Content} {segment : String}
  {rest : List String}

@[simp]
theorem holdsAt_nil_atom (value : Json) : holdsAt keys [] (.atom value) = holds keys value := rfl

@[simp]
theorem holdsAt_nil_array (items : List Content) : holdsAt keys [] (.array items) = false := rfl

@[simp]
theorem holdsAt_nil_object (fields : String → Option Content) :
    holdsAt keys [] (.object fields) = false := rfl

theorem holdsAt_cons_array (items : List Content) :
    holdsAt keys (segment :: rest) (.array items) =
      (segment = wildcard && items.any (holdsAt keys rest)) := rfl

theorem holdsAt_cons_object (fields : String → Option Content) :
    holdsAt keys (segment :: rest) (.object fields) =
      (segment ≠ wildcard && (fields segment).any (holdsAt keys rest)) := rfl

@[simp]
theorem holdsAt_wildcard_array (items : List Content) :
    holdsAt keys (wildcard :: rest) (.array items) = items.any (holdsAt keys rest) := by
  rw [holdsAt_cons_array, decide_eq_true rfl, Bool.true_and]

theorem holdsAt_name_array (hsegment : segment ≠ wildcard) (items : List Content) :
    holdsAt keys (segment :: rest) (.array items) = false := by
  rw [holdsAt_cons_array, decide_eq_false hsegment, Bool.false_and]

@[simp]
theorem holdsAt_wildcard_object (fields : String → Option Content) :
    holdsAt keys (wildcard :: rest) (.object fields) = false := by
  rw [holdsAt_cons_object, decide_eq_false (not_not_intro rfl), Bool.false_and]

theorem holdsAt_name_object (hsegment : segment ≠ wildcard) (fields : String → Option Content) :
    holdsAt keys (segment :: rest) (.object fields) = (fields segment).any (holdsAt keys rest) := by
  rw [holdsAt_cons_object, decide_eq_true hsegment, Bool.true_and]

@[simp]
theorem edit_nil (content : Content) : edit change [] content = change content := rfl

@[simp]
theorem edit_atom (value : Json) : edit change (segment :: rest) (.atom value) = some (.atom value) :=
  rfl

theorem edit_cons_array (items : List Content) :
    edit change (segment :: rest) (.array items) =
      if segment = wildcard then some (.array (items.filterMap (edit change rest)))
      else some (.array items) := rfl

theorem edit_cons_object (fields : String → Option Content) :
    edit change (segment :: rest) (.object fields) =
      if segment = wildcard then some (.object fields)
      else some (.object fun name =>
        if name = segment then (fields name).bind (edit change rest) else fields name) := rfl

@[simp]
theorem edit_wildcard_array (items : List Content) :
    edit change (wildcard :: rest) (.array items) =
      some (.array (items.filterMap (edit change rest))) := by
  rw [edit_cons_array, if_pos rfl]

theorem edit_name_array (hsegment : segment ≠ wildcard) (items : List Content) :
    edit change (segment :: rest) (.array items) = some (.array items) := by
  rw [edit_cons_array, if_neg hsegment]

@[simp]
theorem edit_wildcard_object (fields : String → Option Content) :
    edit change (wildcard :: rest) (.object fields) = some (.object fields) := by
  rw [edit_cons_object, if_pos rfl]

theorem edit_name_object (hsegment : segment ≠ wildcard) (fields : String → Option Content) :
    edit change (segment :: rest) (.object fields) = some (.object fun name =>
      if name = segment then (fields name).bind (edit change rest) else fields name) := by
  rw [edit_cons_object, if_neg hsegment]

theorem exists_edit_array (change : Content → Option Content) (segment : String)
    (rest : List String) (items : List Content) :
    ∃ others, edit change (segment :: rest) (.array items) = some (.array others) := by
  rw [edit_cons_array]
  split
  · exact ⟨_, rfl⟩
  · exact ⟨_, rfl⟩

theorem exists_edit_object (change : Content → Option Content) (segment : String)
    (rest : List String) (fields : String → Option Content) :
    ∃ others, edit change (segment :: rest) (.object fields) = some (.object others) := by
  rw [edit_cons_object]
  split
  · exact ⟨_, rfl⟩
  · exact ⟨_, rfl⟩

end Simp

/-- Where a path reaches no key, a change that looks for one leaves everything as it is. -/
theorem edit_eq_some_self {keys : List Json} {change : Content → Option Content}
    {outer inner : List String}
    (hchange : ∀ child, holdsAt keys inner child = false → change child = some child)
    {content : Content} (hnone : holdsAt keys (outer ++ inner) content = false) :
    edit change outer content = some content := by
  induction outer generalizing content with
  | nil => exact hchange content hnone
  | cons segment rest ih =>
    rw [List.cons_append] at hnone
    cases content with
    | atom value => rfl
    | array items =>
      by_cases hsegment : segment = wildcard
      · subst hsegment
        rw [holdsAt_wildcard_array, List.any_eq_false] at hnone
        have hitems : ∀ item ∈ items, edit change rest item = some item :=
          fun item hitem => ih (Bool.eq_false_iff.2 (hnone item hitem))
        rw [edit_wildcard_array, List.filterMap_congr hitems, List.filterMap_some]
      · exact edit_name_array hsegment items
    | object fields =>
      by_cases hsegment : segment = wildcard
      · subst hsegment
        exact edit_wildcard_object fields
      · rw [holdsAt_name_object hsegment] at hnone
        rw [edit_name_object hsegment]
        refine congrArg (fun fields => some (Content.object fields)) (funext fun name => ?_)
        split
        case isFalse => rfl
        case isTrue hname =>
          subst hname
          cases hchild : fields name with
          | none => rfl
          | some child =>
            rw [hchild] at hnone
            exact ih hnone

/-- Changes commute when they do so below the place where their paths part. -/
theorem edit_comm {change other : Content → Option Content} {first second : String}
    {rest others : List String}
    (hbelow : first = second → ∀ child, (edit change rest child).bind (edit other others) =
      (edit other others child).bind (edit change rest)) (content : Content) :
    (edit change (first :: rest) content).bind (edit other (second :: others)) =
      (edit other (second :: others) content).bind (edit change (first :: rest)) := by
  cases content with
  | atom value => rfl
  | array items =>
    by_cases hfirst : first = wildcard
    case neg =>
      obtain ⟨left, hleft⟩ := exists_edit_array other second others items
      rw [edit_name_array hfirst, hleft, Option.bind_some, Option.bind_some, hleft,
        edit_name_array hfirst]
    case pos =>
      by_cases hsecond : second = wildcard
      case neg =>
        obtain ⟨left, hleft⟩ := exists_edit_array change first rest items
        rw [edit_name_array hsecond, hleft, Option.bind_some, Option.bind_some, hleft,
          edit_name_array hsecond]
      case pos =>
        subst hfirst hsecond
        simp only [edit_wildcard_array, Option.bind_some, List.filterMap_filterMap, hbelow]
  | object fields =>
    by_cases hfirst : first = wildcard
    case pos =>
      subst hfirst
      obtain ⟨left, hleft⟩ := exists_edit_object other second others fields
      rw [edit_wildcard_object, hleft, Option.bind_some, Option.bind_some, hleft,
        edit_wildcard_object]
    case neg =>
      by_cases hsecond : second = wildcard
      case pos =>
        subst hsecond
        obtain ⟨left, hleft⟩ := exists_edit_object change first rest fields
        rw [edit_wildcard_object, hleft, Option.bind_some, Option.bind_some, hleft,
          edit_wildcard_object]
      case neg =>
        simp only [edit_name_object hfirst, edit_name_object hsecond, Option.bind_some,
          Option.some.injEq, Content.object.injEq]
        funext name
        by_cases hname : name = first
        · subst hname
          by_cases hsame : name = second
          · simp only [if_pos, if_pos hsame, Option.bind_assoc, hbelow hsame]
          · simp only [if_pos, if_neg hsame]
        · simp only [if_neg hname]

end Content

/-- A cut: above each of its keys that the inner part of its path reaches, what stands at the end of
the outer part is replaced by what is to be left of it. -/
structure Cut where
  keys : List Json
  outer : List String
  inner : List String
  left : Option Content := none
deriving Inhabited

namespace Cut

open Content

def path (cut : Cut) : List String :=
  cut.outer ++ cut.inner

/-- What is left of a value at the end of the outer path. -/
def here (cut : Cut) (content : Content) : Option Content :=
  if content.holdsAt cut.keys cut.inner then cut.left else some content

def apply (cut : Cut) (content : Content) : Option Content :=
  content.edit cut.here cut.outer

/-- Whether a cut takes away documents or elements of arrays, or clears what its whole path reaches. -/
structure WellFormed (cut : Cut) : Prop where
  scalar : ∀ key ∈ cut.keys, key.isScalar
  names : wildcard ∉ cut.inner
  left : cut.left = none ∨ (cut.left = some (.atom .null) ∧ cut.inner = [])
  outer : cut.inner = [] ∨ ∀ segment ∈ cut.outer.getLast?, segment = wildcard

/-- Whether two cuts along the same path leave the same at the same place. -/
def Agrees (first second : Cut) : Prop :=
  first.path = second.path → first.outer = second.outer ∧ first.left = second.left

theorem Agrees.symm {first second : Cut} (h : first.Agrees second) : second.Agrees first := by
  intro hpath
  obtain ⟨houter, hleft⟩ := h hpath.symm
  exact ⟨houter.symm, hleft.symm⟩

/-- What a cut is below the first segment of its outer path. -/
def below (cut : Cut) : Cut :=
  { cut with outer := cut.outer.tail }

variable {cut first second : Cut} {segment : String} {rest : List String}

theorem WellFormed.below (h : cut.WellFormed) (houter : cut.outer = segment :: rest) :
    cut.below.WellFormed where
  scalar := h.scalar
  names := h.names
  left := h.left
  outer := by
    refine h.outer.imp id fun hlast last hmem => hlast last ?_
    have htail : cut.below.outer = rest := by rw [Cut.below, houter, List.tail_cons]
    rw [htail] at hmem
    rw [houter, List.getLast?_cons]
    cases hrest : rest.getLast? with
    | none =>
      rw [hrest] at hmem
      cases hmem
    | some other =>
      rw [hrest] at hmem
      exact hmem

theorem Agrees.below {others : List String} (h : first.Agrees second)
    (hfirst : first.outer = segment :: rest) (hsecond : second.outer = segment :: others) :
    first.below.Agrees second.below := by
  intro hpath
  simp only [path, Cut.below, hfirst, hsecond, List.tail_cons] at hpath ⊢
  have hwhole : first.path = second.path := by
    rw [path, path, hfirst, hsecond, List.cons_append, List.cons_append, hpath]
  obtain ⟨houter, hleft⟩ := h hwhole
  rw [hfirst, hsecond] at houter
  exact ⟨(List.cons.inj houter).2, hleft⟩

theorem apply_of_nil (houter : cut.outer = []) (content : Content) :
    cut.apply content = cut.here content := by
  rw [apply, houter, edit_nil]

theorem apply_of_cons (houter : cut.outer = segment :: rest) (content : Content) :
    cut.apply content = content.edit cut.here (segment :: rest) := by
  rw [apply, houter]

theorem below_apply (houter : cut.outer = segment :: rest) :
    cut.below.apply = edit cut.here rest := by
  funext content
  rw [apply, Cut.below, houter]
  rfl

theorem apply_eq_some_self {content : Content} (hnone : content.holdsAt cut.keys cut.path = false) :
    cut.apply content = some content :=
  edit_eq_some_self (fun child hchild => by rw [here, if_neg (Bool.eq_false_iff.1 hchild)]) hnone

theorem exists_apply (houter : cut.outer = segment :: rest) (content : Content) :
    ∃ left, cut.apply content = some left := by
  rw [apply_of_cons houter]
  cases content with
  | atom value => exact ⟨_, rfl⟩
  | array items =>
    obtain ⟨others, hothers⟩ := exists_edit_array cut.here segment rest items
    exact ⟨_, hothers⟩
  | object fields =>
    obtain ⟨others, hothers⟩ := exists_edit_object cut.here segment rest fields
    exact ⟨_, hothers⟩

theorem apply_cons_atom (houter : cut.outer = segment :: rest) (value : Json) :
    cut.apply (.atom value) = some (.atom value) := by
  rw [apply_of_cons houter, edit_atom]

/-- No cut looks for null. -/
theorem WellFormed.apply_null (h : cut.WellFormed) :
    cut.apply (.atom .null) = some (.atom .null) := by
  cases houter : cut.outer with
  | cons segment rest => exact apply_cons_atom houter .null
  | nil =>
    have hnone : holdsAt cut.keys cut.inner (.atom .null) = false := by
      cases cut.inner with
      | cons => rfl
      | nil =>
        refine Bool.eq_false_iff.2 fun hholds => ?_
        obtain ⟨key, hkey, hsame⟩ := holds_iff.1 hholds
        have hnull := isScalar_of_sameValue (sameValue_symm hsame) (h.scalar key hkey)
        cases hnull
    rw [apply_of_nil houter, here, hnone]
    rfl

theorem WellFormed.left_bind_apply (hfirst : first.WellFormed) (hsecond : second.WellFormed) :
    first.left.bind second.apply = first.left := by
  obtain hnone | ⟨hnull, -⟩ := hfirst.left
  · rw [hnone, Option.bind_none]
  · rw [hnull, Option.bind_some, hsecond.apply_null]

theorem any_holdsAt_here (h : cut.WellFormed) (hinner : cut.inner = []) (keys : List Json)
    (child : Content) :
    (cut.here child).any (holdsAt keys (segment :: rest)) = holdsAt keys (segment :: rest) child := by
  rw [here, hinner]
  split
  case isFalse => rfl
  case isTrue hholds =>
    cases child with
    | atom value =>
      obtain hnone | ⟨hnull, -⟩ := h.left
      · rw [hnone]
        rfl
      · rw [hnull]
        rfl
    | array items => cases hholds
    | object fields => cases hholds

theorem holdsAt_nil_of_apply (houter : cut.outer = segment :: rest) (keys : List Json)
    {content left : Content} (happly : cut.apply content = some left) :
    left.holdsAt keys [] = content.holdsAt keys [] := by
  rw [apply_of_cons houter] at happly
  cases content with
  | atom value =>
    cases happly
    rfl
  | array items =>
    obtain ⟨others, hothers⟩ := exists_edit_array cut.here segment rest items
    rw [hothers] at happly
    cases happly
    rfl
  | object fields =>
    obtain ⟨others, hothers⟩ := exists_edit_object cut.here segment rest fields
    rw [hothers] at happly
    cases happly
    rfl

/-- A field is looked into only by what lies below a cut. -/
theorem holdsAt_cons_of_apply (houter : cut.outer = segment :: rest) {name : String}
    (hname : name ≠ wildcard) {names : List String} (keys : List Json)
    (hbelow : name = segment → ∀ child,
      (cut.below.apply child).any (holdsAt keys names) = child.holdsAt keys names)
    {content left : Content} (happly : cut.apply content = some left) :
    left.holdsAt keys (name :: names) = content.holdsAt keys (name :: names) := by
  rw [apply_of_cons houter] at happly
  cases content with
  | atom value =>
    cases happly
    rfl
  | array items =>
    obtain ⟨others, hothers⟩ := exists_edit_array cut.here segment rest items
    rw [hothers] at happly
    cases happly
    rw [holdsAt_name_array hname, holdsAt_name_array hname]
  | object fields =>
    by_cases hsegment : segment = wildcard
    case pos =>
      subst hsegment
      rw [edit_wildcard_object] at happly
      cases happly
      rfl
    case neg =>
      rw [edit_name_object hsegment] at happly
      cases happly
      rw [holdsAt_name_object hname, holdsAt_name_object hname]
      by_cases hsame : name = segment
      case neg => rw [if_neg hsame]
      case pos =>
        rw [if_pos hsame]
        cases fields name with
        | none => rfl
        | some child =>
          rw [Option.bind_some, Option.any_some, ← below_apply houter]
          exact hbelow hsame child

/-- What a cut leaves holds keys at other paths of names where it held them before. -/
theorem WellFormed.holdsAt_eq (h : cut.WellFormed) (houter : cut.outer = segment :: rest)
    {names : List String} (hnames : wildcard ∉ names) (hne : cut.path ≠ names) (keys : List Json)
    {content left : Content} (happly : cut.apply content = some left) :
    left.holdsAt keys names = content.holdsAt keys names := by
  induction names generalizing cut segment rest content left with
  | nil => exact holdsAt_nil_of_apply houter keys happly
  | cons name names ih =>
    obtain ⟨hname, hothers⟩ : name ≠ wildcard ∧ wildcard ∉ names :=
      ⟨fun heq => hnames (heq ▸ List.mem_cons_self), fun hmem => hnames (List.mem_cons_of_mem _ hmem)⟩
    refine holdsAt_cons_of_apply houter hname keys ?_ happly
    rintro rfl child
    have hbelow : cut.below.outer = rest := by rw [Cut.below, houter, List.tail_cons]
    cases rest with
    | nil =>
      -- in a field a cut clears only what its whole path reaches
      have hinner : cut.inner = [] := by
        refine h.outer.resolve_right fun hlast => hname (hlast name ?_)
        rw [houter]
        rfl
      cases names with
      | nil =>
        refine absurd ?_ hne
        rw [path, houter, hinner, List.append_nil]
      | cons => rw [apply_of_nil hbelow, any_holdsAt_here (h.below houter) hinner]
    | cons other others =>
      have hpath : cut.below.path ≠ names := by
        rintro rfl
        refine hne ?_
        rw [path, path, hbelow, houter]
        rfl
      obtain ⟨after, hafter⟩ := exists_apply hbelow child
      rw [hafter, Option.any_some]
      exact ih (h.below houter) hbelow hothers hpath hafter

/-- Where two cuts find keys below the same place, they leave the same. -/
theorem left_eq_of_holdsAt (hfirst : first.WellFormed) (hsecond : second.WellFormed)
    (hagrees : first.Agrees second) (hfirstOuter : first.outer = []) (hsecondOuter : second.outer = [])
    {content : Content} (hholds : content.holdsAt first.keys first.inner)
    (hother : content.holdsAt second.keys second.inner) : first.left = second.left := by
  have hnil {keys others : List Json} {path : List String} (hhere : content.holdsAt keys [])
      (hthere : content.holdsAt others path) : path = [] := by
    cases content with
    | atom value =>
      cases path with
      | nil => rfl
      | cons => cases hthere
    | array items => cases hhere
    | object fields => cases hhere
  have heq (hinner : first.inner = second.inner) : first.left = second.left :=
    (hagrees (by rw [path, path, hfirstOuter, hsecondOuter, hinner])).2
  obtain hfirstLeft | ⟨-, hfirstInner⟩ := hfirst.left
  · obtain hsecondLeft | ⟨-, hsecondInner⟩ := hsecond.left
    · rw [hfirstLeft, hsecondLeft]
    · rw [hsecondInner] at hother
      exact heq ((hnil hother hholds).trans hsecondInner.symm)
  · rw [hfirstInner] at hholds
    exact heq (hfirstInner.trans (hnil hholds hother).symm)

theorem here_comm (hfirst : first.WellFormed) (hsecond : second.WellFormed)
    (hagrees : first.Agrees second) (hfirstOuter : first.outer = []) (hsecondOuter : second.outer = [])
    (content : Content) :
    (first.apply content).bind second.apply = (second.apply content).bind first.apply := by
  have hfirstLeft := hfirst.left_bind_apply hsecond
  have hsecondLeft := hsecond.left_bind_apply hfirst
  by_cases hholds : content.holdsAt first.keys first.inner
  · have hfirstHere : first.apply content = first.left := by
      rw [apply_of_nil hfirstOuter, here, if_pos hholds]
    by_cases hother : content.holdsAt second.keys second.inner
    · have hsecondHere : second.apply content = second.left := by
        rw [apply_of_nil hsecondOuter, here, if_pos hother]
      rw [hfirstHere, hsecondHere, hfirstLeft, hsecondLeft]
      exact left_eq_of_holdsAt hfirst hsecond hagrees hfirstOuter hsecondOuter hholds hother
    · have hsecondHere : second.apply content = some content := by
        rw [apply_of_nil hsecondOuter, here, if_neg hother]
      rw [hfirstHere, hsecondHere, hfirstLeft, Option.bind_some, hfirstHere]
  · have hfirstHere : first.apply content = some content := by
      rw [apply_of_nil hfirstOuter, here, if_neg hholds]
    rw [hfirstHere, Option.bind_some]
    by_cases hother : content.holdsAt second.keys second.inner
    · have hsecondHere : second.apply content = second.left := by
        rw [apply_of_nil hsecondOuter, here, if_pos hother]
      rw [hsecondHere, hsecondLeft]
    · have hsecondHere : second.apply content = some content := by
        rw [apply_of_nil hsecondOuter, here, if_neg hother]
      rw [hsecondHere, Option.bind_some, hfirstHere]

/-- A cut of a whole value and one of what lies in it. -/
theorem apply_comm_of_nil (hfirst : first.WellFormed) (hsecond : second.WellFormed)
    (hagrees : first.Agrees second) (hfirstOuter : first.outer = [])
    (hsecondOuter : second.outer = segment :: rest) (content : Content) :
    (first.apply content).bind second.apply = (second.apply content).bind first.apply := by
  have hne : second.path ≠ first.inner := by
    intro hpath
    have hsame : first.path = second.path := by rw [path, hfirstOuter, List.nil_append, hpath]
    have houter := (hagrees hsame).1
    rw [hfirstOuter, hsecondOuter] at houter
    cases houter
  obtain ⟨left, hleft⟩ := exists_apply hsecondOuter content
  have hholds := hsecond.holdsAt_eq hsecondOuter hfirst.names hne first.keys hleft
  rw [hleft, Option.bind_some, apply_of_nil hfirstOuter, apply_of_nil hfirstOuter, here, here, hholds]
  split
  case isTrue => exact hfirst.left_bind_apply hsecond
  case isFalse => exact hleft

/-- Cuts commute. -/
theorem apply_comm (hfirst : first.WellFormed) (hsecond : second.WellFormed)
    (hagrees : first.Agrees second) (content : Content) :
    (first.apply content).bind second.apply = (second.apply content).bind first.apply := by
  induction houter : first.outer generalizing first second content with
  | nil =>
    cases hother : second.outer with
    | nil => exact here_comm hfirst hsecond hagrees houter hother content
    | cons => exact apply_comm_of_nil hfirst hsecond hagrees houter hother content
  | cons segment rest ih =>
    cases hother : second.outer with
    | nil => exact (apply_comm_of_nil hsecond hfirst hagrees.symm hother houter content).symm
    | cons other others =>
      have hbelow (hsame : segment = other) (child : Content) :
          (edit first.here rest child).bind (edit second.here others) =
            (edit second.here others child).bind (edit first.here rest) := by
        subst hsame
        have hrest : first.below.outer = rest := by rw [below, houter, List.tail_cons]
        rw [← below_apply houter, ← below_apply hother]
        exact ih (hfirst.below houter) (hsecond.below hother) (hagrees.below houter hother) child hrest
      have hfirstApply : first.apply = edit first.here (segment :: rest) :=
        funext (apply_of_cons houter)
      have hsecondApply : second.apply = edit second.here (other :: others) :=
        funext (apply_of_cons hother)
      rw [hfirstApply, hsecondApply]
      exact edit_comm hbelow content

end Cut

end LinkedDocs
