import LinkedDocs.CommandLine.Arguments

namespace LinkedDocs.CommandLine

/-- The files that a command works on. -/
structure DataFiles where
  /-- A schema file or a directory of declarations. -/
  schema : String
  /-- A fixture in JSON. -/
  data : String
deriving DecidableEq, Repr

inductive Command where
  /-- Prints the graph of a schema. -/
  | graph (schema : String)
  /-- Prints the syntax tree of a selector. -/
  | parse (selector : String)
  /-- Resolves a selector against the matching documents of a collection. -/
  | select (files : DataFiles) (collection filter selector : String) (followForeignKeys : Bool)
  /-- Reports the values of foreign keys that belong to no document. -/
  | check (files : DataFiles) (batchSize : Nat)
  /-- Prints the plan of a delete and, unless it is a dry run, carries it out. -/
  | delete (files : DataFiles) (collection filter : String) (single dryRun : Bool)
deriving DecidableEq, Repr

namespace Command

def fileRules : List OptionRule :=
  [{ name := "schema", letter := some 's' }, { name := "data", letter := some 'd' }]

def collectionRule : OptionRule := { name := "collection", letter := some 'c' }

def filterRule : OptionRule := { name := "filter", letter := some 'f' }

def batchSizeRule : OptionRule := { name := "batch-size" }

def noJoinsRule : OptionRule := { name := "no-joins", takesValue := false }

def singleRule : OptionRule := { name := "single", takesValue := false }

def dryRunRule : OptionRule := { name := "dry-run", takesValue := false }

def dataFiles (given : Arguments) : Except ArgumentFault DataFiles := do
  let schema ← checkPath "schema" (← given.option "schema")
  let data ← checkPath "data" (← given.option "data")
  return { schema, data }

def readGraph (arguments : List String) : Except ArgumentFault Command := do
  let given ← Arguments.read [] 1 arguments
  return .graph (← checkPath "schema" (← given.positionalAt 0 "schema"))

def readParse (arguments : List String) : Except ArgumentFault Command := do
  let given ← Arguments.read [] 1 arguments
  return .parse (← given.positionalAt 0 "selector")

def readSelect (arguments : List String) : Except ArgumentFault Command := do
  let given ← Arguments.read (fileRules ++ [collectionRule, filterRule, noJoinsRule]) 1 arguments
  let files ← dataFiles given
  let collection ← given.option collectionRule.name
  let filter := (given.option? filterRule.name).getD "\x7b\x7d"
  let selector ← given.positionalAt 0 "selector"
  return .select files collection filter selector (!given.hasOption noJoinsRule.name)

def readCheck (arguments : List String) : Except ArgumentFault Command := do
  let given ← Arguments.read (fileRules ++ [batchSizeRule]) 0 arguments
  let files ← dataFiles given
  let size := (given.option? batchSizeRule.name).getD "100"
  match index? size with
  | some batchSize => return .check files batchSize
  | none => throw (.invalidValue batchSizeRule.name size)

def readDelete (arguments : List String) : Except ArgumentFault Command := do
  let given ← Arguments.read
    (fileRules ++ [collectionRule, filterRule, singleRule, dryRunRule]) 0 arguments
  let files ← dataFiles given
  let collection ← given.option collectionRule.name
  let filter ← given.option filterRule.name
  return .delete files collection filter (given.hasOption singleRule.name)
    (given.hasOption dryRunRule.name)

def readers : List (String × (List String → Except ArgumentFault Command)) :=
  [("graph", readGraph), ("parse", readParse), ("select", readSelect), ("check", readCheck),
    ("delete", readDelete)]

def readHelp : List String → Except ArgumentFault Command
  | [] => .error .helpWanted
  | name :: _ =>
    if (lookupName name readers).isSome || name = "help" then .error .helpWanted
    else .error (.unknownCommand name)

def ofArguments : List String → Except ArgumentFault Command
  | [] => .error .commandMissing
  | name :: arguments =>
    if name = "help" then readHelp arguments
    else if looksLikeOption name then
      if name = "--help" || name.toList.take 2 = ['-', 'h'] then .error .helpWanted
      else .error (.unexpected name)
    else
      match lookupName name readers with
      | some reader => reader arguments
      | none => .error (.unknownCommand name)

end Command

def usage : String :=
  "Usage:\n" ++
  "  graph <schema>\n" ++
  "  parse <selector>\n" ++
  "  select -s <schema> -d <data> -c <collection> [-f <filter>] [--no-joins] <selector>\n" ++
  "  check -s <schema> -d <data> [--batch-size <number>]\n" ++
  "  delete -s <schema> -d <data> -c <collection> -f <filter> [--single] [--dry-run]\n"

end LinkedDocs.CommandLine
