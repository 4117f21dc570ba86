import LinkedDocs.Path

/-!
The arguments of a command: options with or without a value, spelled by a name after two dashes or
by a letter after one, and positional arguments. After two dashes alone, every argument is
positional.
-/

namespace LinkedDocs.CommandLine

structure OptionRule where
  name : String
  letter : Option Char := none
  takesValue : Bool := true
deriving DecidableEq, Repr

inductive ArgumentFault where
  | helpWanted
  | commandMissing
  | unknownCommand (name : String)
  | unexpected (argument : String)
  | repeated (name : String)
  | valueMissing (name : String)
  | invalidValue (name value : String)
  | missing (name : String)
deriving DecidableEq, Repr

def ArgumentFault.message : ArgumentFault → String
  | .helpWanted => "help is wanted"
  | .commandMissing => "a command is required"
  | .unknownCommand name => "there is no command '" ++ name ++ "'"
  | .unexpected argument => "unexpected argument '" ++ argument ++ "'"
  | .repeated name => "the option '--" ++ name ++ "' cannot be used several times"
  | .valueMissing name => "the option '--" ++ name ++ "' needs a value"
  | .invalidValue name value => "invalid value '" ++ value ++ "' for '" ++ name ++ "'"
  | .missing name => "the argument '" ++ name ++ "' is required"

structure Arguments where
  /-- The given options with their values, which are empty for options without one. -/
  options : List (String × String) := []
  positional : List String := []
deriving DecidableEq, Repr

/-- The spelling of an option, and the value attached to it. -/
structure OptionSpelling where
  rule : OptionRule
  attached : Option String
deriving Repr

def looksLikeOption (argument : String) : Bool :=
  argument.toList.head? == some '-' && argument != "-"

def spelledLong (rules : List OptionRule) (argument : String) (text : List Char) :
    Except ArgumentFault OptionSpelling :=
  let name := String.ofList (text.takeWhile (· != '='))
  let attached :=
    match text.dropWhile (· != '=') with
    | _ :: value => some (String.ofList value)
    | [] => none
  if name = "help" then .error .helpWanted
  else
    match rules.find? fun rule => rule.name = name with
    | some rule =>
      if !rule.takesValue && attached.isSome then .error (.unexpected argument)
      else .ok ⟨rule, attached⟩
    | none => .error (.unexpected argument)

def spelledShort (rules : List OptionRule) (argument : String) (letter : Char)
    (text : List Char) : Except ArgumentFault OptionSpelling :=
  let attached :=
    match text with
    | [] => none
    | '=' :: value => some (String.ofList value)
    | value => some (String.ofList value)
  if letter = 'h' then .error .helpWanted
  else
    match rules.find? fun rule => rule.letter = some letter with
    | some rule =>
      if !rule.takesValue && attached.isSome then .error (.unexpected argument)
      else .ok ⟨rule, attached⟩
    | none => .error (.unexpected argument)

/-- The option that an argument spells. -/
def spelling (rules : List OptionRule) (argument : String) :
    Except ArgumentFault OptionSpelling :=
  match argument.toList with
  | '-' :: '-' :: text => spelledLong rules argument text
  | '-' :: letter :: text => spelledShort rules argument letter text
  | _ => .error (.unexpected argument)

namespace Arguments

def addOption (given : Arguments) (name value : String) : Except ArgumentFault Arguments :=
  if (lookupName name given.options).isSome then .error (.repeated name)
  else .ok { given with options := given.options ++ [(name, value)] }

/-- Adds a positional argument, of which there may be so many. -/
def addPositional (given : Arguments) (room : Nat) (argument : String) :
    Except ArgumentFault Arguments :=
  if given.positional.length < room then
    .ok { given with positional := given.positional ++ [argument] }
  else
    .error (.unexpected argument)

/-- Reads arguments after those already given. -/
def readFrom (rules : List OptionRule) (room : Nat) (given : Arguments) :
    List String → Except ArgumentFault Arguments
  | [] => .ok given
  | argument :: rest =>
    if argument = "--" then
      rest.foldlM (fun given argument => given.addPositional room argument) given
    else if looksLikeOption argument then
      match spelling rules argument with
      | .error fault => .error fault
      | .ok ⟨rule, some value⟩ => do readFrom rules room (← given.addOption rule.name value) rest
      | .ok ⟨rule, none⟩ =>
        if rule.takesValue then
          match rest with
          | [] => .error (.valueMissing rule.name)
          | value :: rest =>
            if looksLikeOption value then .error (.valueMissing rule.name)
            else do readFrom rules room (← given.addOption rule.name value) rest
        else do
          readFrom rules room (← given.addOption rule.name "") rest
    else do
      readFrom rules room (← given.addPositional room argument) rest

def read (rules : List OptionRule) (room : Nat) (arguments : List String) :
    Except ArgumentFault Arguments :=
  readFrom rules room {} arguments

def option? (given : Arguments) (name : String) : Option String :=
  lookupName name given.options

def hasOption (given : Arguments) (name : String) : Bool :=
  (given.option? name).isSome

def option (given : Arguments) (name : String) : Except ArgumentFault String :=
  match given.option? name with
  | some value => .ok value
  | none => .error (.missing name)

/-- The positional argument at a position. -/
def positionalAt (given : Arguments) (position : Nat) (name : String) :
    Except ArgumentFault String :=
  match given.positional[position]? with
  | some argument => .ok argument
  | none => .error (.missing name)

end Arguments

/-- A path has to have a character. -/
def checkPath (name path : String) : Except ArgumentFault String :=
  if path = "" then .error (.invalidValue name path) else .ok path

end LinkedDocs.CommandLine
