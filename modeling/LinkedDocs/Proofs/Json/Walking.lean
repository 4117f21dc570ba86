import LinkedDocs.Json.Walk
import LinkedDocs.Proofs.Json.NamesOnce
import LinkedDocs.Proofs.Outcome
import Mathlib.Data.List.Nodup

/-!
What the deep walk visits and what it makes of the answers. The nodes of a value are listed in
document order, each with its own keys and indices. The walk calls the visit on them in this order
and skips the nodes below a replaced one; its result is the value with every replacement at the
place of its node, and the first failure ends it.
-/

namespace LinkedDocs.Json

/-- A value inside a value, with the keys and indices that lead to it. -/
structure Node where
  path : Stack
  value : Json
deriving Repr

def Node.under (segment : Segment) (node : Node) : Node where
  path := segment :: node.path
  value := node.value

/-- The elements of an array with their indices, and the fields of an object with their keys. -/
def children (value : Json) : List (Segment × Json) :=
  match value with
  | .array items => items.zipIdx.map fun item => (.index item.2, item.1)
  | .object fields => fields.map fun field => (.key field.1, field.2)
  | _ => []

mutual

/-- The nodes of a value in document order: the value itself, then what is inside its first element
or field, then what is inside the second one, and so on. -/
def nodes (value : Json) : List Node :=
  match value with
  | .array items => ⟨[], .array items⟩ :: itemNodes 0 items
  | .object fields => ⟨[], .object fields⟩ :: fieldNodes fields
  | .null => [⟨[], .null⟩]
  | .bool value => [⟨[], .bool value⟩]
  | .number value => [⟨[], .number value⟩]
  | .string value => [⟨[], .string value⟩]
termination_by structural value

def itemNodes (position : Nat) (items : List Json) : List Node :=
  match items with
  | [] => []
  | item :: rest =>
    (nodes item).map (Node.under (.index position)) ++ itemNodes (position + 1) rest
termination_by structural items

def fieldNodes (fields : List (String × Json)) : List Node :=
  match fields with
  | [] => []
  | (name, value) :: rest => (nodes value).map (Node.under (.key name)) ++ fieldNodes rest
termination_by structural fields

end

def child? (value : Json) (segment : Segment) : Option Json :=
  match value, segment with
  | .array items, .index position => items[position]?
  | .object fields, .key name => lookupName name fields
  | _, _ => none

/-- The value that keys and indices lead to. -/
def at? (value : Json) : Stack → Option Json
  | [] => some value
  | segment :: rest => (value.child? segment).bind fun child => child.at? rest

/-- Puts a replacement at a place of a value. The other elements and fields stay as they are, in
their order. -/
def replaceAt (value : Json) (path : Stack) (replacement : Json) : Json :=
  match path, value with
  | [], _ => replacement
  | .index position :: rest, .array items =>
    .array (items.modify position fun item => item.replaceAt rest replacement)
  | .key name :: rest, .object fields =>
    .object (fields.map fun field =>
      if field.1 = name then (name, field.2.replaceAt rest replacement) else field)
  | _ :: _, value => value
termination_by structural path

/-- A visited node and what the visit answered: the value that replaces the node, or none. -/
structure Visit extends Node where
  answer : Option Json
deriving Repr

def Visit.under (segment : Segment) (visit : Visit) : Visit where
  toNode := visit.toNode.under segment
  answer := visit.answer

/-- Whether a place is strictly below a node that was replaced. -/
def Visit.Hides (visit : Visit) (path : Stack) : Prop :=
  visit.answer.isSome ∧ visit.path <+: path ∧ visit.path ≠ path

instance (visit : Visit) (path : Stack) : Decidable (visit.Hides path) :=
  inferInstanceAs (Decidable (_ ∧ _ ∧ _))

/-- Whether a place is strictly below none of the replaced nodes. -/
def Reached (visits : List Visit) (node : Node) : Prop :=
  ∀ visit ∈ visits, ¬visit.Hides node.path

instance (visits : List Visit) (node : Node) : Decidable (Reached visits node) :=
  inferInstanceAs (Decidable (∀ visit ∈ visits, _))

/-- The value after a visit of one of its nodes. -/
def answered (value : Json) (visit : Visit) : Json :=
  match visit.answer with
  | some replacement => value.replaceAt visit.path replacement
  | none => value

/-- The value with every replacement at the place of its node. -/
def substitute (value : Json) (visits : List Visit) : Json :=
  visits.foldl answered value

theorem itemNodes_eq (position : Nat) (items : List Json) :
    itemNodes position items =
      (items.zipIdx position).flatMap fun item => item.1.nodes.map (Node.under (.index item.2)) := by
  induction items generalizing position with
  | nil => rfl
  | cons item rest ih => rw [itemNodes, ih, List.zipIdx_cons, List.flatMap_cons]

theorem fieldNodes_eq (fields : List (String × Json)) :
    fieldNodes fields =
      fields.flatMap fun field => field.2.nodes.map (Node.under (.key field.1)) := by
  induction fields with
  | nil => rfl
  | cons field rest ih => rw [fieldNodes, ih, List.flatMap_cons]

theorem nodes_eq (value : Json) :
    value.nodes =
      ⟨[], value⟩ :: value.children.flatMap fun child => child.2.nodes.map (Node.under child.1) := by
  cases value with
  | array items => rw [nodes, itemNodes_eq, children, List.flatMap_map]
  | object fields => rw [nodes, fieldNodes_eq, children, List.flatMap_map]
  | _ => rfl

@[elab_as_elim]
theorem induction_on_children {motive : Json → Prop} (value : Json)
    (parent : ∀ value : Json, (∀ child ∈ value.children, motive child.2) → motive value) :
    motive value := by
  induction value using Json.induction_on with
  | scalar value harray hobject =>
    refine parent value fun child hchild => ?_
    cases value with
    | array items => cases harray
    | object fields => cases hobject
    | _ => cases hchild
  | array items ih =>
    refine parent _ (List.forall_mem_map.2 fun item hitem => ih _ ?_)
    exact List.mem_of_getElem? (List.mem_zipIdx_iff_getElem?.1 hitem)
  | object fields ih => exact parent _ (List.forall_mem_map.2 ih)

theorem mem_children_iff {value : Json} (hnames : value.namesOnce) {segment : Segment}
    {child : Json} : (segment, child) ∈ value.children ↔ value.child? segment = some child := by
  cases value with
  | array items =>
    rw [children, List.mem_map]
    constructor
    · rintro ⟨item, hitem, ⟨⟩⟩
      exact List.mem_zipIdx_iff_getElem?.1 hitem
    · intro hchild
      cases segment with
      | key name => cases hchild
      | index position => exact ⟨(child, position), List.mem_zipIdx_iff_getElem?.2 hchild, rfl⟩
  | object fields =>
    rw [children, List.mem_map]
    constructor
    · rintro ⟨field, hfield, ⟨⟩⟩
      exact NameMap.lookupName_of_mem (namesOnce_object_iff.1 hnames).1 hfield
    · intro hchild
      cases segment with
      | key name => exact ⟨(name, child), NameMap.mem_of_lookupName hchild, rfl⟩
      | index position => cases hchild
  | _ => exact iff_of_false List.not_mem_nil nofun

theorem namesOnce_of_mem_children {value : Json} (hnames : value.namesOnce)
    {child : Segment × Json} (hchild : child ∈ value.children) : child.2.namesOnce := by
  cases value with
  | array items =>
    obtain ⟨item, hitem, rfl⟩ := List.mem_map.1 hchild
    exact namesOnce_array_iff.1 hnames _
      (List.mem_of_getElem? (List.mem_zipIdx_iff_getElem?.1 hitem))
  | object fields =>
    obtain ⟨field, hfield, rfl⟩ := List.mem_map.1 hchild
    exact (namesOnce_object_iff.1 hnames).2 field hfield
  | _ => cases hchild

theorem nodup_children {value : Json} (hnames : value.namesOnce) :
    (value.children.map Prod.fst).Nodup := by
  cases value with
  | array items =>
    have hpositions : (items.zipIdx.map Prod.snd).Nodup := by
      rw [List.zipIdx_map_snd]
      exact List.nodup_range'
    have hindices := hpositions.map (f := Segment.index) (fun _ _ h => Segment.index.inj h)
    rw [children, List.map_map]
    rwa [List.map_map] at hindices
  | object fields =>
    have hkeys := (namesOnce_object_iff.1 hnames).1.map (f := Segment.key)
      (fun _ _ h => Segment.key.inj h)
    rw [children, List.map_map]
    rwa [List.map_map] at hkeys
  | _ => exact List.nodup_nil

/-- The nodes are the values to which keys and indices lead. -/
theorem mem_nodes_iff {value : Json} (hnames : value.namesOnce) {node : Node} :
    node ∈ value.nodes ↔ value.at? node.path = some node.value := by
  induction value using induction_on_children generalizing node with
  | parent value ih =>
    obtain ⟨path, inner⟩ := node
    rw [nodes_eq, List.mem_cons, List.mem_flatMap]
    cases path with
    | nil =>
      refine ⟨?_, fun h => .inl ?_⟩
      · rintro (h | ⟨child, -, h⟩)
        · cases h
          rfl
        · obtain ⟨node, -, ⟨⟩⟩ := List.mem_map.1 h
      · cases h
        rfl
    | cons segment path =>
      rw [at?, Option.bind_eq_some_iff]
      constructor
      · rintro (h | ⟨child, hchild, h⟩)
        · cases h
        · obtain ⟨node, hnode, ⟨⟩⟩ := List.mem_map.1 h
          exact ⟨child.2, (mem_children_iff hnames).1 hchild,
            (ih child hchild (namesOnce_of_mem_children hnames hchild)).1 hnode⟩
      · rintro ⟨child, hchild, h⟩
        have hmem := (mem_children_iff hnames).2 hchild
        refine .inr ⟨_, hmem, List.mem_map.2 ⟨⟨path, inner⟩, ?_, rfl⟩⟩
        exact (ih _ hmem (namesOnce_of_mem_children hnames hmem)).2 h

/-- No two nodes stand at one place. -/
theorem nodup_nodes {value : Json} (hnames : value.namesOnce) :
    (value.nodes.map Node.path).Nodup := by
  induction value using induction_on_children with
  | parent value ih =>
    rw [nodes_eq, List.map_cons, List.map_flatMap]
    refine List.nodup_cons.2 ⟨fun hroot => ?_, ?_⟩
    · obtain ⟨child, -, hroot⟩ := List.mem_flatMap.1 hroot
      obtain ⟨_, hnode, hroot⟩ := List.mem_map.1 hroot
      obtain ⟨node, -, rfl⟩ := List.mem_map.1 hnode
      cases hroot
    · have hpaths : ∀ child : Segment × Json,
          (child.2.nodes.map (Node.under child.1)).map Node.path =
            (child.2.nodes.map Node.path).map (child.1 :: ·) := by
        intro child
        rw [List.map_map, List.map_map]
        rfl
      refine List.nodup_flatMap.2 ⟨fun child hchild => ?_, ?_⟩
      · rw [hpaths]
        exact (ih child hchild (namesOnce_of_mem_children hnames hchild)).map
          fun _ _ h => List.tail_eq_of_cons_eq h
      · refine (List.pairwise_map.1 (nodup_children hnames)).imp fun {child other} hne => ?_
        intro path hpath hother
        simp only [hpaths, List.mem_map] at hpath hother
        obtain ⟨_, -, rfl⟩ := hpath
        obtain ⟨_, -, heq⟩ := hother
        exact hne (List.head_eq_of_cons_eq heq).symm

section Walk

variable {ε σ α β : Type} (visit : Json → Stack → ExceptT ε (StateM σ) (Option Json))

/-- Calls of the visit on nodes of a value that stands at a stack, one after the other from a state
to a state: each call gets the stack extended by the path of its node. -/
inductive Calls (stack : Stack) : σ → List Visit → σ → Prop
  | nil (state : σ) : Calls stack state [] state
  | cons {state middle after : σ} {called : Visit} {visits : List Visit}
    (hcall : (visit called.value (stack ++ called.path)).run.run state =
      (.ok called.answer, middle))
    (hcalls : Calls stack middle visits after) : Calls stack state (called :: visits) after

/-- How a walk over nodes ends: either every node that is not below a replaced one was visited, in
order, and the result fits the answers, or the visits went on in this way up to a node on which the
visit failed, and none came after it. -/
inductive Walked (stack : Stack) (nodes : List Node) (Fits : List Visit → α → Prop) (state : σ) :
    Except ε α × σ → Prop
  | finished {visits : List Visit} {result : α} {after : σ}
    (hcalls : Calls visit stack state visits after)
    (hnodes : visits.map Visit.toNode = nodes.filter (Reached visits))
    (hfits : Fits visits result) : Walked stack nodes Fits state (.ok result, after)
  | failed (earlier later : List Node) (node : Node) {visits : List Visit} {error : ε}
    {middle after : σ} (hsplit : nodes = earlier ++ node :: later)
    (hcalls : Calls visit stack state visits middle)
    (hnodes : visits.map Visit.toNode = earlier.filter (Reached visits))
    (hreached : Reached visits node)
    (hcall : (visit node.value (stack ++ node.path)).run.run middle = (.error error, after)) :
    Walked stack nodes Fits state (.error error, after)

variable {visit} {stack : Stack} {state middle after : σ}

/-- Neither of two nodes stands above the other one, nor in its place. -/
def Apart (first second : Node) : Prop :=
  ¬first.path <+: second.path ∧ ¬second.path <+: first.path

theorem apart_under {segment other : Segment} (hne : segment ≠ other) (first second : Node) :
    Apart (first.under segment) (second.under other) :=
  ⟨fun h => hne (List.cons_prefix_cons.1 h).1, fun h => hne (List.cons_prefix_cons.1 h).1.symm⟩

theorem reached_append {first second : List Visit} {node : Node} :
    Reached (first ++ second) node ↔ Reached first node ∧ Reached second node :=
  List.forall_mem_append

theorem reached_of_apart {visits : List Visit} {node : Node}
    (h : ∀ visit ∈ visits, ¬visit.path <+: node.path) : Reached visits node :=
  fun visit hvisit hhides => h visit hvisit hhides.2.1

theorem reached_map_under {segment : Segment} {visits : List Visit} {node : Node} :
    Reached (visits.map (Visit.under segment)) (node.under segment) ↔ Reached visits node := by
  simp [Reached, Visit.Hides, Visit.under, Node.under]

theorem mem_of_mem_visits {nodes : List Node} {visits : List Visit} {visit : Visit}
    (hnodes : visits.map Visit.toNode = nodes.filter (Reached visits)) (hvisit : visit ∈ visits) :
    visit.toNode ∈ nodes := by
  have hmem : visit.toNode ∈ visits.map Visit.toNode := List.mem_map_of_mem hvisit
  rw [hnodes] at hmem
  exact List.mem_of_mem_filter hmem

theorem map_toNode_append {nodes others : List Node} {first second : List Visit}
    (hfirst : first.map Visit.toNode = nodes.filter (Reached first))
    (hsecond : second.map Visit.toNode = others.filter (Reached second))
    (hapart : ∀ node ∈ nodes, ∀ other ∈ others, Apart node other) :
    (first ++ second).map Visit.toNode = (nodes ++ others).filter (Reached (first ++ second)) := by
  rw [List.map_append, List.filter_append, hfirst, hsecond]
  congr 1 <;> refine List.filter_congr fun node hnode => decide_eq_decide.2 ?_
  · have hreached : Reached second node := reached_of_apart fun visit hvisit =>
      (hapart node hnode _ (mem_of_mem_visits hsecond hvisit)).2
    simp [reached_append, hreached]
  · have hreached : Reached first node := reached_of_apart fun visit hvisit =>
      (hapart _ (mem_of_mem_visits hfirst hvisit) node hnode).1
    simp [reached_append, hreached]

theorem map_toNode_under {segment : Segment} {nodes : List Node} {visits : List Visit}
    (h : visits.map Visit.toNode = nodes.filter (Reached visits)) :
    (visits.map (Visit.under segment)).map Visit.toNode =
      (nodes.map (Node.under segment)).filter (Reached (visits.map (Visit.under segment))) := by
  calc (visits.map (Visit.under segment)).map Visit.toNode
      = (visits.map Visit.toNode).map (Node.under segment) := by simp [Function.comp_def, Visit.under]
    _ = (nodes.filter (Reached visits)).map (Node.under segment) := by rw [h]
    _ = _ := by
      rw [List.filter_map]
      congr 1
      exact List.filter_congr fun node _ => decide_eq_decide.2 reached_map_under.symm

theorem reached_root (visits : List Visit) (value : Json) : Reached visits ⟨[], value⟩ :=
  fun _ _ hhides => hhides.2.2 (List.prefix_nil.1 hhides.2.1)

theorem reached_cons_of_none {visit : Visit} (h : visit.answer = none) {visits : List Visit}
    {node : Node} : Reached (visit :: visits) node ↔ Reached visits node := by
  simp [Reached, Visit.Hides, h]

/-- Below a replaced root no node is reached. -/
theorem map_toNode_replaced {value replacement : Json} {below : List Node}
    (hbelow : ∀ node ∈ below, node.path ≠ []) :
    [Visit.mk ⟨[], value⟩ (some replacement)].map Visit.toNode =
      (⟨[], value⟩ :: below).filter (Reached [⟨⟨[], value⟩, some replacement⟩]) := by
  have hhidden : ∀ node ∈ below, ¬Reached [⟨⟨[], value⟩, some replacement⟩] node := by
    intro node hnode hreached
    exact hreached _ List.mem_cons_self ⟨rfl, List.nil_prefix, (hbelow node hnode).symm⟩
  have hnone : below.filter (Reached [⟨⟨[], value⟩, some replacement⟩]) = [] :=
    List.filter_eq_nil_iff.2 fun node hnode => by simpa using hhidden node hnode
  simp [reached_root, hnone]

theorem map_toNode_kept {value : Json} {nodes : List Node} {visits : List Visit}
    (h : visits.map Visit.toNode = nodes.filter (Reached visits)) :
    (Visit.mk ⟨[], value⟩ none :: visits).map Visit.toNode =
      (⟨[], value⟩ :: nodes).filter (Reached (⟨⟨[], value⟩, none⟩ :: visits)) := by
  simp [reached_root, reached_cons_of_none, h]

theorem Calls.append {first second : List Visit} (hfirst : Calls visit stack state first middle)
    (hsecond : Calls visit stack middle second after) :
    Calls visit stack state (first ++ second) after := by
  induction hfirst with
  | nil => exact hsecond
  | cons hcall _ ih => exact .cons hcall (ih hsecond)

theorem Calls.under {segment : Segment} {visits : List Visit}
    (h : Calls visit (stack ++ [segment]) state visits after) :
    Calls visit stack state (visits.map (Visit.under segment)) after := by
  induction h with
  | nil => exact .nil _
  | cons hcall _ ih =>
    rw [List.append_assoc] at hcall
    exact .cons hcall ih

theorem Walked.mono {nodes : List Node} {Fits Fits' : List Visit → α → Prop}
    {outcome : Except ε α × σ} (h : Walked visit stack nodes Fits state outcome)
    (hfits : ∀ visits result, Fits visits result → Fits' visits result) :
    Walked visit stack nodes Fits' state outcome := by
  cases h with
  | finished hcalls hnodes hresult => exact .finished hcalls hnodes (hfits _ _ hresult)
  | failed earlier later node hsplit hcalls hnodes hreached hcall =>
    exact .failed earlier later node hsplit hcalls hnodes hreached hcall

theorem Walked.map {nodes : List Node} {Fits : List Visit → α → Prop}
    {Fits' : List Visit → β → Prop} {first : ExceptT ε (StateM σ) α} {change : α → β}
    (h : Walked visit stack nodes Fits state (first.run.run state))
    (hfits : ∀ visits result, Fits visits result → Fits' visits (change result)) :
    Walked visit stack nodes Fits' state ((do return change (← first)).run.run state) := by
  rw [run_run_bind]
  cases hrun : first.run.run state with
  | mk outcome after =>
    rw [hrun] at h
    cases h with
    | finished hcalls hnodes hresult => exact .finished hcalls hnodes (hfits _ _ hresult)
    | failed earlier later node hsplit hcalls hnodes hreached hcall =>
      exact .failed earlier later node hsplit hcalls hnodes hreached hcall

/-- A walk over the nodes of one child is a walk over nodes of the parent. -/
theorem Walked.under {segment : Segment} {nodes : List Node} {Fits : List Visit → α → Prop}
    {outcome : Except ε α × σ} (h : Walked visit (stack ++ [segment]) nodes Fits state outcome) :
    Walked visit stack (nodes.map (Node.under segment))
      (fun visits result => ∃ own, visits = own.map (Visit.under segment) ∧ Fits own result)
      state outcome := by
  cases h with
  | finished hcalls hnodes hresult =>
    exact .finished hcalls.under (map_toNode_under hnodes) ⟨_, rfl, hresult⟩
  | failed earlier later node hsplit hcalls hnodes hreached hcall =>
    rw [List.append_assoc] at hcall
    refine .failed (earlier.map (Node.under segment)) (later.map (Node.under segment))
      (node.under segment) ?_ hcalls.under (map_toNode_under hnodes) ?_ hcall
    · rw [hsplit, List.map_append, List.map_cons]
    · exact reached_map_under.2 hreached

/-- Two walks, one after the other, over nodes that stand apart. -/
theorem Walked.bind {nodes others : List Node} {Fits : List Visit → α → Prop}
    {Fits' : List Visit → β → Prop} {first : ExceptT ε (StateM σ) α}
    {next : α → ExceptT ε (StateM σ) β}
    (hfirst : Walked visit stack nodes Fits state (first.run.run state))
    (hnext : ∀ visits result middle, Fits visits result →
      Walked visit stack others (fun more => Fits' (visits ++ more)) middle
        ((next result).run.run middle))
    (hapart : ∀ node ∈ nodes, ∀ other ∈ others, Apart node other) :
    Walked visit stack (nodes ++ others) Fits' state ((first >>= next).run.run state) := by
  rw [run_run_bind]
  cases hrun : first.run.run state with
  | mk outcome middle =>
    rw [hrun] at hfirst
    cases hfirst with
    | @finished visits result _ hcalls hnodes hresult =>
      have hsecond := hnext visits result middle hresult
      dsimp only
      generalize (next result).run.run middle = outcome at hsecond ⊢
      cases hsecond with
      | finished hmore hothers hfits =>
        exact .finished (hcalls.append hmore) (map_toNode_append hnodes hothers hapart) hfits
      | failed earlier later node hsplit hmore hothers hreached hcall =>
        subst hsplit
        have hearlier : ∀ first ∈ nodes, ∀ other ∈ earlier, Apart first other := by
          intro first hfirst other hother
          exact hapart first hfirst other (List.mem_append_left _ hother)
        have hnode : Reached visits node := by
          refine reached_of_apart fun visited hvisited => ?_
          have hmem := mem_of_mem_visits hnodes hvisited
          exact (hapart _ hmem node (List.mem_append_right _ List.mem_cons_self)).1
        exact .failed (nodes ++ earlier) later node (List.append_assoc nodes earlier _).symm
          (hcalls.append hmore) (map_toNode_append hnodes hothers hearlier)
          (reached_append.2 ⟨hnode, hreached⟩) hcall
    | failed earlier later node hsplit hcalls hnodes hreached hcall =>
      refine .failed earlier (later ++ others) node ?_ hcalls hnodes hreached hcall
      rw [hsplit, List.append_assoc, List.cons_append]

/-- A walk from a node: the visit of the node, and the walk over the nodes below it unless it is
replaced. -/
theorem Walked.from_root {value : Json} {below : List Node} {Fits : List Visit → α → Prop}
    {next : Option Json → ExceptT ε (StateM σ) α} (hbelow : ∀ node ∈ below, node.path ≠ [])
    (hreplaced : ∀ replacement middle, ∃ result, (next (some replacement)).run.run middle =
      (.ok result, middle) ∧ Fits [⟨⟨[], value⟩, some replacement⟩] result)
    (hkept : ∀ middle, Walked visit stack below
      (fun visits => Fits (⟨⟨[], value⟩, none⟩ :: visits)) middle ((next none).run.run middle)) :
    Walked visit stack (⟨[], value⟩ :: below) Fits state
      ((visit value stack >>= next).run.run state) := by
  rw [run_run_bind]
  have hcalled : visit value stack = visit value (stack ++ []) := by rw [List.append_nil]
  cases hcall : (visit value stack).run.run state with
  | mk outcome middle =>
    rw [hcalled] at hcall
    cases outcome with
    | error error => exact .failed [] below ⟨[], value⟩ rfl (.nil state) rfl nofun hcall
    | ok answer =>
      have hcons : ∀ {visits after}, Calls visit stack middle visits after →
          Calls visit stack state (⟨⟨[], value⟩, answer⟩ :: visits) after := .cons hcall
      dsimp only
      cases answer with
      | some replacement =>
        obtain ⟨result, hrun, hfits⟩ := hreplaced replacement middle
        rw [hrun]
        exact .finished (hcons (.nil middle)) (map_toNode_replaced hbelow) hfits
      | none =>
        have hwalk := hkept middle
        generalize (next none).run.run middle = outcome at hwalk ⊢
        cases hwalk with
        | finished hcalls hnodes hfits =>
          exact .finished (hcons hcalls) (map_toNode_kept hnodes) hfits
        | failed earlier later node hsplit hcalls hnodes hreached hfailed =>
          refine .failed (⟨[], value⟩ :: earlier) later node ?_ (hcons hcalls)
            (map_toNode_kept hnodes) ((reached_cons_of_none rfl).2 hreached) hfailed
          rw [hsplit, List.cons_append]

theorem substitute_append (value : Json) (first second : List Visit) :
    value.substitute (first ++ second) = (value.substitute first).substitute second :=
  List.foldl_append

theorem substitute_of_forall_none (value : Json) {visits : List Visit}
    (h : ∀ visit ∈ visits, visit.answer = none) : value.substitute visits = value := by
  induction visits with
  | nil => rfl
  | cons first rest ih =>
    obtain ⟨hfirst, hrest⟩ := List.forall_mem_cons.1 h
    rw [substitute, List.foldl_cons, answered, hfirst]
    exact ih hrest

theorem modify_append_cons (change : Json → Json) (done rest : List Json) (item : Json) :
    (done ++ item :: rest).modify done.length change = done ++ change item :: rest := by
  induction done with
  | nil => rfl
  | cons first done ih => simp [List.modify_succ_cons, ih]

theorem map_field_append_cons (change : Json → Json) {done rest : List (String × Json)}
    {name : String} (value : Json) (hdone : name ∉ done.map Prod.fst)
    (hrest : name ∉ rest.map Prod.fst) :
    ((done ++ (name, value) :: rest).map fun field =>
        if field.1 = name then (name, change field.2) else field) =
      done ++ (name, change value) :: rest := by
  have hother : ∀ fields : List (String × Json), name ∉ fields.map Prod.fst →
      (fields.map fun field => if field.1 = name then (name, change field.2) else field) =
        fields := by
    intro fields hfields
    calc fields.map (fun field => if field.1 = name then (name, change field.2) else field)
        = fields.map id := by
          refine List.map_congr_left fun field hfield => if_neg fun heq => hfields ?_
          exact heq ▸ List.mem_map_of_mem hfield
      _ = fields := List.map_id fields
  rw [List.map_append, List.map_cons, hother done hdone, hother rest hrest, if_pos rfl]

/-- Replacements inside an element leave the array as it is around the element. -/
theorem substitute_under_index (visits : List Visit) (done rest : List Json) (item : Json) :
    (Json.array (done ++ item :: rest)).substitute
        (visits.map (Visit.under (.index done.length))) =
      .array (done ++ item.substitute visits :: rest) := by
  induction visits generalizing item with
  | nil => rfl
  | cons first visits ih =>
    have hfirst : answered (.array (done ++ item :: rest)) (first.under (.index done.length)) =
        .array (done ++ answered item first :: rest) := by
      obtain ⟨⟨path, value⟩, answer⟩ := first
      cases answer with
      | none => rfl
      | some replacement =>
        simp [answered, Visit.under, Node.under, replaceAt, modify_append_cons]
    rw [List.map_cons, substitute, List.foldl_cons, hfirst]
    exact ih _

/-- Replacements inside a field leave the object as it is around the field. -/
theorem substitute_under_key (visits : List Visit) {done rest : List (String × Json)}
    {name : String} (value : Json) (hdone : name ∉ done.map Prod.fst)
    (hrest : name ∉ rest.map Prod.fst) :
    (Json.object (done ++ (name, value) :: rest)).substitute
        (visits.map (Visit.under (.key name))) =
      .object (done ++ (name, value.substitute visits) :: rest) := by
  induction visits generalizing value with
  | nil => rfl
  | cons first visits ih =>
    have hfirst : answered (.object (done ++ (name, value) :: rest)) (first.under (.key name)) =
        .object (done ++ (name, answered value first) :: rest) := by
      obtain ⟨⟨path, inner⟩, answer⟩ := first
      cases answer with
      | none => rfl
      | some replacement =>
        have hfields := map_field_append_cons (fun child => child.replaceAt path replacement) value
          hdone hrest
        exact congrArg Json.object hfields
    rw [List.map_cons, substitute, List.foldl_cons, hfirst]
    exact ih _

theorem exists_of_mem_itemNodes {position : Nat} {items : List Json} {node : Node}
    (h : node ∈ itemNodes position items) :
    ∃ later inner, position ≤ later ∧ node = Node.under (.index later) inner := by
  rw [itemNodes_eq] at h
  obtain ⟨item, hitem, h⟩ := List.mem_flatMap.1 h
  obtain ⟨inner, -, rfl⟩ := List.mem_map.1 h
  exact ⟨item.2, inner, List.le_snd_of_mem_zipIdx hitem, rfl⟩

theorem exists_of_mem_fieldNodes {fields : List (String × Json)} {node : Node}
    (h : node ∈ fieldNodes fields) :
    ∃ name ∈ fields.map Prod.fst, ∃ inner, node = Node.under (.key name) inner := by
  rw [fieldNodes_eq] at h
  obtain ⟨field, hfield, h⟩ := List.mem_flatMap.1 h
  obtain ⟨inner, -, rfl⟩ := List.mem_map.1 h
  exact ⟨field.1, List.mem_map_of_mem hfield, inner, rfl⟩

variable (visit)

mutual

/-- The walk over a value makes the value with the replacements in it. -/
theorem walked_walk (stack : Stack) (value : Json) (hnames : value.namesOnce) (state : σ) :
    Walked visit stack value.nodes (fun visits result => result = value.substitute visits) state
      ((walk visit stack value).run.run state) := by
  cases value with
  | array items =>
    rw [nodes, walk]
    refine .from_root ?_ (fun replacement middle => ⟨replacement, rfl, rfl⟩) fun middle => ?_
    · intro node hnode
      obtain ⟨position, inner, -, rfl⟩ := exists_of_mem_itemNodes hnode
      simp [Node.under]
    · refine (walked_walkItems stack 0 items (namesOnce_array_iff.1 hnames) middle).map ?_
      intro visits mapped hmapped
      exact (hmapped [] rfl).symm
  | object fields =>
    have hfields := namesOnce_object_iff.1 hnames
    rw [nodes, walk]
    refine .from_root ?_ (fun replacement middle => ⟨replacement, rfl, rfl⟩) fun middle => ?_
    · intro node hnode
      obtain ⟨name, -, inner, rfl⟩ := exists_of_mem_fieldNodes hnode
      simp [Node.under]
    · refine (walked_walkFields stack fields hfields.1 hfields.2 middle).map ?_
      intro visits mapped hmapped
      exact (hmapped [] (by simp)).symm
  | _ =>
    rw [nodes, walk]
    exact .from_root nofun (fun replacement middle => ⟨replacement, rfl, rfl⟩)
      fun middle => .finished (.nil middle) rfl rfl
termination_by structural value

theorem walked_walkItems (stack : Stack) (position : Nat) (items : List Json)
    (hnames : ∀ item ∈ items, item.namesOnce) (state : σ) :
    Walked visit stack (itemNodes position items)
      (fun visits mapped => ∀ done : List Json, done.length = position →
        (Json.array (done ++ items)).substitute visits = .array (done ++ mapped))
      state ((walkItems visit stack position items).run.run state) := by
  cases items with
  | nil => exact .finished (.nil state) rfl fun done _ => rfl
  | cons item rest =>
    obtain ⟨hitem, hrest⟩ := List.forall_mem_cons.1 hnames
    rw [itemNodes, walkItems]
    refine (walked_walk (stack ++ [.index position]) item hitem state).under.bind ?_ ?_
    · rintro _ mapped middle ⟨own, rfl, rfl⟩
      refine (walked_walkItems stack (position + 1) rest hrest middle).map ?_
      rintro more others hothers done rfl
      rw [substitute_append, substitute_under_index]
      have hmore := hothers (done ++ [item.substitute own]) (by simp)
      simpa using hmore
    · intro node hnode other hother
      obtain ⟨inner, -, rfl⟩ := List.mem_map.1 hnode
      obtain ⟨later, otherInner, hlater, rfl⟩ := exists_of_mem_itemNodes hother
      exact apart_under (by simp; omega) inner otherInner
termination_by structural items

theorem walked_walkFields (stack : Stack) (fields : List (String × Json))
    (hnodup : (fields.map Prod.fst).Nodup) (hnames : ∀ field ∈ fields, field.2.namesOnce)
    (state : σ) :
    Walked visit stack (fieldNodes fields)
      (fun visits mapped => ∀ done : List (String × Json),
        (∀ name ∈ done.map Prod.fst, name ∉ fields.map Prod.fst) →
        (Json.object (done ++ fields)).substitute visits = .object (done ++ mapped))
      state ((walkFields visit stack fields).run.run state) := by
  cases fields with
  | nil => exact .finished (.nil state) rfl fun done _ => rfl
  | cons field rest =>
    obtain ⟨name, value⟩ := field
    obtain ⟨hvalue, hrest⟩ := List.forall_mem_cons.1 hnames
    obtain ⟨hname, hnodupRest⟩ := List.nodup_cons.1 hnodup
    rw [fieldNodes, walkFields]
    refine (walked_walk (stack ++ [.key name]) value hvalue state).under.bind ?_ ?_
    · rintro _ mapped middle ⟨own, rfl, rfl⟩
      refine (walked_walkFields stack rest hnodupRest hrest middle).map ?_
      intro more others hothers done hdone
      have hnotDone : name ∉ done.map Prod.fst := fun hmem =>
        hdone name hmem List.mem_cons_self
      have hdoneRest : ∀ other ∈ (done ++ [(name, value.substitute own)]).map Prod.fst,
          other ∉ rest.map Prod.fst := by
        intro other hother
        rw [List.map_append, List.mem_append] at hother
        rcases hother with hother | hother
        · exact fun hmem => hdone other hother (List.mem_cons_of_mem _ hmem)
        · rwa [List.mem_singleton.1 hother]
      rw [substitute_append, substitute_under_key own value hnotDone hname]
      simpa using hothers _ hdoneRest
    · intro node hnode other hother
      obtain ⟨inner, -, rfl⟩ := List.mem_map.1 hnode
      obtain ⟨otherName, hotherName, otherInner, rfl⟩ := exists_of_mem_fieldNodes hother
      refine apart_under (fun heq => hname ?_) inner otherInner
      rwa [Segment.key.inj heq]
termination_by structural fields

end

/-- The nodes of a value are exactly the values inside it, each at one place, and a walk from any
stack, in any state, calls the visit in document order once on each of them that is not below a
replaced one, with the stack extended by its keys and indices. It returns the value with the
replacements at their places, which is the value itself when there are none; a failure ends it. -/
theorem walk_visits_in_order_and_substitutes {value : Json} (hnames : value.namesOnce)
    (stack : Stack) (state : σ) :
    (value.nodes.map Node.path).Nodup ∧
    (∀ node : Node, node ∈ value.nodes ↔ value.at? node.path = some node.value) ∧
    Walked visit stack value.nodes
      (fun visits result => result = value.substitute visits ∧
        ((∀ visit ∈ visits, visit.answer = none) → result = value))
      state ((walk visit stack value).run.run state) := by
  refine ⟨nodup_nodes hnames, fun node => mem_nodes_iff hnames, ?_⟩
  refine (walked_walk visit stack value hnames state).mono ?_
  rintro visits _ rfl
  exact ⟨rfl, substitute_of_forall_none value⟩

end Walk

/-- Replaces the objects one step below the root, fails at null, and records the stacks that it is
shown. -/
def prune (value : Json) (stack : Stack) : ExceptT String (StateM (List Stack)) (Option Json) := do
  modify fun shown => shown ++ [stack]
  match value with
  | .null => throw "null"
  | .object _ => return if stack.length = 1 then some (.string "pruned") else none
  | _ => return none

/-- A value with objects one step below the root and deeper. -/
def hedge : Json :=
  .object [("a", .object [("b", .bool true)]), ("c", .array [.object [("d", .bool false)]])]

theorem walk_visits_in_order_and_substitutes_hedge :
    hedge.namesOnce ∧
    (walk prune [] hedge).run.run [] =
      (.ok (.object [("a", .string "pruned"), ("c", .array [.object [("d", .bool false)]])]),
        [[], [.key "a"], [.key "c"], [.key "c", .index 0], [.key "c", .index 0, .key "d"]]) ∧
    (hedge.nodes.map Node.path).Nodup ∧
    (∀ node : Node, node ∈ hedge.nodes ↔ hedge.at? node.path = some node.value) ∧
    Walked prune [] hedge.nodes
      (fun visits result => result = hedge.substitute visits ∧
        ((∀ visit ∈ visits, visit.answer = none) → result = hedge))
      [] ((walk prune [] hedge).run.run []) :=
  ⟨by decide, rfl, walk_visits_in_order_and_substitutes prune (by decide) [] []⟩

end LinkedDocs.Json
