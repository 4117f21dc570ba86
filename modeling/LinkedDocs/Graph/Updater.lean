import LinkedDocs.Path

namespace LinkedDocs

structure Updater where
  target : String
  /-- Where the key stands: for a set, below the identifier of the array filter; for a pull, below
  the element, unless the element is the key. -/
  filter : Option String
deriving DecidableEq, Repr

namespace Updater

/-- The identifier that the array filter of a set binds. -/
def filterIdentifier : String := "f"

def everyElement : String := "$[]"

def filteredElement : String := "$[" ++ filterIdentifier ++ "]"

/-- The segments before and after the last wildcard. -/
def splitAtLastWildcard? : List String → Option (List String × List String)
  | [] => none
  | segment :: rest =>
    match splitAtLastWildcard? rest with
    | some (outer, inner) => some (segment :: outer, inner)
    | none => if segment = wildcard then some ([], rest) else none

def openWildcards (path : List String) : List String :=
  path.map fun segment => if segment = wildcard then everyElement else segment

/-- How `$set` and `$unset` write to a foreign key path. -/
def forSet (path : List String) : Updater :=
  match splitAtLastWildcard? path with
  | none => ⟨joinPath path, none⟩
  | some (outer, inner) =>
    ⟨joinPath (openWildcards outer ++ filteredElement :: inner),
      some (joinPath (filterIdentifier :: inner))⟩

/-- How `$pull` writes to a foreign key path, which needs a wildcard. -/
def forPull? (path : List String) : Option Updater :=
  (splitAtLastWildcard? path).map fun (outer, inner) =>
    ⟨joinPath (openWildcards outer), if inner.isEmpty then none else some (joinPath inner)⟩

end Updater

end LinkedDocs
