import LinkedDocs.Path

namespace LinkedDocs.Json

universe u

variable {m : Type → Type u} [Monad m]

mutual

def walk (visit : Json → Stack → m (Option Json)) (stack : Stack) (value : Json) : m Json := do
  match ← visit value stack with
  | some replacement => return replacement
  | none =>
    match value with
    | .array items => return .array (← walkItems visit stack 0 items)
    | .object fields => return .object (← walkFields visit stack fields)
    | .null => return .null
    | .bool value => return .bool value
    | .number value => return .number value
    | .string value => return .string value
termination_by structural value

def walkItems (visit : Json → Stack → m (Option Json)) (stack : Stack) (position : Nat)
    (items : List Json) : m (List Json) :=
  match items with
  | [] => return []
  | item :: rest => do
    let mapped ← walk visit (stack ++ [.index position]) item
    let others ← walkItems visit stack (position + 1) rest
    return mapped :: others
termination_by structural items

def walkFields (visit : Json → Stack → m (Option Json)) (stack : Stack)
    (fields : List (String × Json)) : m (List (String × Json)) :=
  match fields with
  | [] => return []
  | (name, value) :: rest => do
    let mapped ← walk visit (stack ++ [.key name]) value
    let others ← walkFields visit stack rest
    return (name, mapped) :: others
termination_by structural fields

end

end LinkedDocs.Json
