import LinkedDocs.Filter
import LinkedDocs.Selector.Basic

namespace LinkedDocs

variable [Platform]

/-- A test of an item, its position and the array it stands in. -/
abbrev Predicate := Json → Option Nat → List Json → Bool

/-- The meaning of the predicate names in a selector. -/
abbrev Predicates := PredicateName → Predicate

inductive Kind where
  | null
  | bool
  | number
  | string
  | array
  | object
deriving DecidableEq, Repr

namespace Kind

def of : Json → Kind
  | .null => .null
  | .bool _ => .bool
  | .number _ => .number
  | .string _ => .string
  | .array _ => .array
  | .object _ => .object

def name : Kind → String
  | .null => "null"
  | .bool => "bool"
  | .number => "number"
  | .string => "string"
  | .array => "array"
  | .object => "object"

def ofName? (name : String) : Option Kind :=
  [Kind.null, .bool, .number, .string, .array, .object].find? fun kind => kind.name = name

end Kind

namespace Predicate

def constant (verdict : Bool) : Predicate := fun _ _ _ => verdict

/-- Accepts the items that match a filter query; one that cannot be evaluated accepts nothing. -/
def accepts (filter : Json) : Predicate := fun item _ _ =>
  match Filter.accepts item filter with
  | .ok verdict => verdict
  | .error _ => false

def hasKind (kind : Kind) : Predicate := fun item _ _ => Kind.of item == kind

def indexBelow (bound : Nat) : Predicate := fun _ position _ =>
  position.any fun index => index < bound

/-- Accepts a value that is shown alone. -/
def alone : Predicate := fun _ position items => position.isNone && items.isEmpty

def arrayLength (length : Nat) : Predicate := fun _ _ items => items.length == length

/-- Accepts every item of an array but the last one. -/
def notLast : Predicate := fun _ position items =>
  position.any fun index => index + 1 < items.length

end Predicate

end LinkedDocs
