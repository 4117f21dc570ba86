import LinkedDocs.Json.Comparison

namespace LinkedDocs

/-- The name of a predicate. Predicates are the same only when they have one name. -/
abbrev PredicateName := String

inductive ObjectKey where
  | field (name : String)
  /-- Every key of the value that no other entry lists. -/
  | wildcard
deriving DecidableEq, Repr

inductive Selector where
  /-- Selects the value itself. -/
  | identity
  | field (name : String) (next : Selector)
  | index (position : Nat) (next : Selector)
  /-- Stops on null. -/
  | shortcut (next : Selector)
  /-- Maps over an array and flattens one level. -/
  | map (next : Selector)
  /-- Maps over an array. -/
  | hardMap (next : Selector)
  | filter (predicate : PredicateName) (next : Selector)
  | switch (predicate : PredicateName) (accepted otherwise : Selector)
  /-- Narrows a set of documents that is not fetched yet. -/
  | filterQuery (query : Json) (next : Selector)
  | tuple (items : List Selector)
  | object (entries : List (ObjectKey × Selector))
deriving Repr, Inhabited

namespace Selector

def isIdentity : Selector → Bool
  | .identity => true
  | _ => false

/-- Selects one field after the other. -/
def path (fields : List String) : Selector :=
  fields.foldr .field .identity

/-- Gives an entry of an object its selector: a known key keeps its position. -/
def putEntry (key : ObjectKey) (selector : Selector) :
    List (ObjectKey × Selector) → List (ObjectKey × Selector)
  | [] => [(key, selector)]
  | (first, existing) :: rest =>
    if first = key then (key, selector) :: rest
    else (first, existing) :: putEntry key selector rest

/-- The object with the given entries; of entries with one key the first position and the last
selector stay. -/
def ofEntries (entries : List (ObjectKey × Selector)) : Selector :=
  .object (entries.foldl (fun merged entry => putEntry entry.1 entry.2 merged) [])

/-- Appends a selector where another one ends. A switch continues in its last written branch, which
is the first one when there is no other; tuples and objects cannot be continued. -/
def extend (next : Selector) : Selector → Option Selector
  | .identity => some next
  | .field name inner => (extend next inner).map (.field name)
  | .index position inner => (extend next inner).map (.index position)
  | .shortcut inner => (extend next inner).map .shortcut
  | .map inner => (extend next inner).map .map
  | .hardMap inner => (extend next inner).map .hardMap
  | .filter predicate inner => (extend next inner).map (.filter predicate)
  | .switch predicate accepted otherwise =>
    if otherwise.isIdentity then
      (extend next accepted).map fun accepted => .switch predicate accepted otherwise
    else
      (extend next otherwise).map (.switch predicate accepted)
  | .filterQuery query inner => (extend next inner).map (.filterQuery query)
  | .tuple _ => none
  | .object _ => none

/-- Continues a selector by another one. Every selector can be continued by the identity. -/
def chain (first next : Selector) : Option Selector :=
  if next.isIdentity then some first else extend next first

mutual

/-- Equality of selectors, with queries compared by `Json.identical`. -/
def identical (left right : Selector) : Bool :=
  match left, right with
  | .identity, .identity => true
  | .field first left, .field second right => first == second && identical left right
  | .index first left, .index second right => first == second && identical left right
  | .shortcut left, .shortcut right => identical left right
  | .map left, .map right => identical left right
  | .hardMap left, .hardMap right => identical left right
  | .filter first left, .filter second right => first == second && identical left right
  | .switch first accepted otherwise, .switch second accepted' otherwise' =>
    first == second && identical accepted accepted' && identical otherwise otherwise'
  | .filterQuery first left, .filterQuery second right =>
    first.identical second && identical left right
  | .tuple left, .tuple right => identicalItems left right
  | .object left, .object right => identicalEntries left right
  | _, _ => false
termination_by structural left

def identicalItems (left right : List Selector) : Bool :=
  match left, right with
  | [], [] => true
  | first :: left, second :: right => identical first second && identicalItems left right
  | _, _ => false
termination_by structural left

def identicalEntries (left right : List (ObjectKey × Selector)) : Bool :=
  match left, right with
  | [], [] => true
  | (first, selector) :: left, (second, other) :: right =>
    first == second && identical selector other && identicalEntries left right
  | _, _ => false
termination_by structural left

end

end Selector

end LinkedDocs
