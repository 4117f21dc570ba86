import LinkedDocs.NameMap
import LinkedDocs.Number.Shortest

/-!
JSON values. An object is the list of its fields in the order in which they were written, so every
operation on objects says what it does to that order.
-/

namespace LinkedDocs

/-- A number written without point and exponent that fits 64 bits, signed or unsigned, is an
integer; any other number is a double. -/
inductive Number where
  | int (value : Int)
  | double (value : Double)
deriving DecidableEq, Repr, Inhabited

namespace Number

def toDouble : Number → Double
  | .int value => .ofInt value
  | .double value => value

/-- Equality of numbers as doubles. -/
def sameValue (left right : Number) : Bool :=
  left.toDouble.sameValue right.toDouble

/-- Equality that tells an integer from a double, and the two zeros of doubles not apart. -/
def identical : Number → Number → Bool
  | .int left, .int right => left == right
  | .double left, .double right => left.sameValue right
  | _, _ => false

def toNat? : Number → Option Nat
  | .int value => if value < 0 then none else some value.toNat
  | .double _ => none

def toChars : Number → List Char
  | .int value =>
    if value < 0 then '-' :: Nat.toDigits 10 value.natAbs else Nat.toDigits 10 value.natAbs
  | .double value => value.toChars

def toText (number : Number) : String :=
  String.ofList number.toChars

end Number

inductive Json where
  | null
  | bool (value : Bool)
  | number (value : Number)
  | string (value : String)
  | array (items : List Json)
  | object (fields : List (String × Json))
deriving Repr, Inhabited

namespace Json

def nat (value : Nat) : Json := .number (.int value)

def int (value : Int) : Json := .number (.int value)

def single (name : String) (value : Json) : Json := .object [(name, value)]

def oneOf (values : List Json) : Json := single "$in" (.array values)

def isNull : Json → Bool
  | .null => true
  | _ => false

def isObject : Json → Bool
  | .object _ => true
  | _ => false

def isArray : Json → Bool
  | .array _ => true
  | _ => false

def string? : Json → Option String
  | .string value => some value
  | _ => none

def array? : Json → Option (List Json)
  | .array items => some items
  | _ => none

def object? : Json → Option (List (String × Json))
  | .object fields => some fields
  | _ => none

def nat? : Json → Option Nat
  | .number value => value.toNat?
  | _ => none

def field? (value : Json) (name : String) : Option Json :=
  value.object?.bind (lookupName name)

/-- A field of an object, where a missing one reads as null. -/
def fieldOrNull (value : Json) (name : String) : Json :=
  (value.field? name).getD .null

end Json

/-- The object with an encoded value for each entry. -/
def NameMap.toJson {α : Type} (encode : α → Json) (map : NameMap α) : Json :=
  .object (map.entries.map fun (name, value) => (name, encode value))

/-- Gives a field a value: an existing field keeps its position, a new one comes last. -/
def putField {α : Type} (name : String) (value : α) : List (String × α) → List (String × α)
  | [] => [(name, value)]
  | (first, existing) :: rest =>
    if first = name then (name, value) :: rest else (first, existing) :: putField name value rest

/-- Puts the last of the fields in place of the first one with a name. -/
def replaceByLast {α : Type} (name : String) (last : String × α) :
    List (String × α) → List (String × α)
  | [] => []
  | field :: rest =>
    if field.1 = name then last :: rest else field :: replaceByLast name last rest

/-- Removes a field; the last field takes its position. -/
def removeField {α : Type} (name : String) (fields : List (String × α)) : List (String × α) :=
  match fields.getLast? with
  | none => []
  | some last =>
    if last.1 = name then fields.dropLast else replaceByLast name last fields.dropLast

/-- Of fields with one name the first position and the last value stay. -/
def mergeFields {α : Type} (fields : List (String × α)) : List (String × α) :=
  fields.foldl (fun merged field => putField field.1 field.2 merged) []

theorem lookupName_putField {α : Type} (name other : String) (value : α)
    (fields : List (String × α)) :
    lookupName other (putField name value fields) =
      if other = name then some value else lookupName other fields := by
  induction fields with
  | nil => simp [putField, lookupName, eq_comm]
  | cons head rest ih =>
    obtain ⟨first, existing⟩ := head
    grind [putField, lookupName]

namespace Json

mutual

/-- Merges repeated fields of every object. -/
def collapse (value : Json) : Json :=
  match value with
  | .array items => .array (collapseItems items)
  | .object fields => .object (mergeFields (collapseFields fields))
  | .null => .null
  | .bool value => .bool value
  | .number value => .number value
  | .string value => .string value
termination_by structural value

def collapseItems (items : List Json) : List Json :=
  match items with
  | [] => []
  | item :: rest => collapse item :: collapseItems rest
termination_by structural items

def collapseFields (fields : List (String × Json)) : List (String × Json) :=
  match fields with
  | [] => []
  | (name, value) :: rest => (name, collapse value) :: collapseFields rest
termination_by structural fields

end

/-- Induction on a value, where the parts of an array or object are told by membership. -/
@[elab_as_elim]
theorem induction_on {motive : Json → Prop}
    (scalar : ∀ value, value.isArray = false → value.isObject = false → motive value)
    (array : ∀ items, (∀ item ∈ items, motive item) → motive (.array items))
    (object : ∀ fields, (∀ field ∈ fields, motive field.2) → motive (.object fields))
    (value : Json) : motive value :=
  @Json.rec motive (fun items => ∀ item ∈ items, motive item)
    (fun fields => ∀ field ∈ fields, motive field.2) (fun field => motive field.2)
    (scalar .null rfl rfl) (fun flag => scalar (.bool flag) rfl rfl)
    (fun number => scalar (.number number) rfl rfl) (fun text => scalar (.string text) rfl rfl)
    array object
    (fun _ hmem => absurd hmem List.not_mem_nil)
    (fun _ _ hitem hrest => List.forall_mem_cons.2 ⟨hitem, hrest⟩)
    (fun _ hmem => absurd hmem List.not_mem_nil)
    (fun _ _ hfield hrest => List.forall_mem_cons.2 ⟨hfield, hrest⟩)
    (fun _ _ hvalue => hvalue) value

end Json

end LinkedDocs
