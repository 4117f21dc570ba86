import LinkedDocs.Path

namespace LinkedDocs

inductive IdentifierFault where
  | start
  | character
deriving DecidableEq, Repr

inductive PathFault where
  | keySegment
  | start
  | segment
deriving DecidableEq, Repr

/-- Why a name or path is not well spelled. -/
inductive SpellingError where
  | empty
  | identifier (name : String) (fault : IdentifierFault)
  | path (text : String) (fault : PathFault)
deriving DecidableEq, Repr

def IdentifierFault.message : IdentifierFault → String
  | .start => "must start with a letter, underscore, or hyphen"
  | .character =>
    "contains invalid characters (only alphanumeric, underscore, and hyphen allowed)"

def PathFault.message : PathFault → String
  | .keySegment => "segments must be identifiers"
  | .start => "must start with an identifier"
  | .segment => "segments must be identifiers or '$'"

namespace SpellingError

def message : SpellingError → String
  | .empty => "Identifier cannot be empty"
  | .identifier name fault => "Invalid identifier '" ++ name ++ "': " ++ fault.message
  | .path text fault => "Invalid path '" ++ text ++ "': " ++ fault.message

def value : SpellingError → String
  | .empty => ""
  | .identifier name _ => name
  | .path text _ => text

def reason : SpellingError → String
  | .empty => "cannot be empty"
  | .identifier _ fault => fault.message
  | .path _ fault => fault.message

end SpellingError

namespace Identifier

def isStart (character : Char) : Bool :=
  character.isAlpha || character == '_' || character == '-'

def isPart (character : Char) : Bool :=
  character.isAlphanum || character == '_' || character == '-'

/-- An identifier is a letter, underscore or hyphen, and then any of these and digits, in ASCII. -/
def check (name : String) : Except SpellingError Unit :=
  match name.toList with
  | [] => .error .empty
  | first :: rest =>
    if !isStart first then .error (.identifier name .start)
    else if !rest.all isPart then .error (.identifier name .character)
    else .ok ()

def isValid (name : String) : Bool :=
  match check name with
  | .ok _ => true
  | .error _ => false

/-- A primary key path is identifiers joined by dots. -/
def checkKeyPath (path : String) : Except SpellingError Unit :=
  if (splitPath path).all isValid then .ok () else .error (.path path .keySegment)

/-- A foreign key path is an identifier and then identifiers and array wildcards, joined by dots. -/
def checkForeignKeyPath (path : String) : Except SpellingError Unit :=
  match splitPath path with
  | [] => .error .empty
  | first :: rest =>
    if !isValid first then .error (.path path .start)
    else if rest.all fun segment => segment == wildcard || isValid segment then .ok ()
    else .error (.path path .segment)

end Identifier

end LinkedDocs
