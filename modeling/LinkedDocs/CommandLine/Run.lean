import LinkedDocs.Collection.References
import LinkedDocs.Collection.Removal
import LinkedDocs.Collection.Selection
import LinkedDocs.CommandLine.Command
import LinkedDocs.Platform.Native
import LinkedDocs.Schema.Load
import LinkedDocs.Selector.Outline
import LinkedDocs.Selector.Parser

/-!
Running commands. A run reads files and collects what it prints; what was printed before a failure
stays printed. Wrong arguments end a run with exit code 2, any other failure ends it with 1.
-/

namespace LinkedDocs.CommandLine

structure Outcome where
  exitCode : Nat := 0
  standardOutput : String := ""
  standardError : String := ""
deriving DecidableEq, Repr

variable {m : Type → Type} [Monad m]

/-- A run of a command: it may fail, and its state is what it has printed. -/
abbrev Run (m : Type → Type) := ExceptT Error (StateT String m)

namespace Run

def print (text : String) : Run m Unit :=
  modify (· ++ text)

def printJson (value : Json) : Run m Unit :=
  print (value.toIndentedText ++ "\n")

def ofExcept {α : Type} : Except Error α → Run m α
  | .ok value => return value
  | .error error => throw error

def loadSchema (files : FileAccess m) (path : String) : Run m Schema := do
  let result ← ((Schema.load files path).run : m (Except Error Schema))
  ofExcept result

/-- Accesses a store that nothing else uses. -/
def access {α : Type} (session : Session) (access : Access α) : Run m (α × Session) := do
  let (result, session) := access.runIn session
  return (← ofExcept result, session)

def readJson (text : String) : Run m Json :=
  match Json.read? text with
  | some value => return value
  | none => throw (.json .malformed)

/-- Loads the schema and the fixture that a command works on. -/
def openFiles (files : FileAccess m) (source : DataFiles) : Run m (Graph × Session) := do
  let schema ← loadSchema files source.schema
  match ← (files.content? source.data : m (Option String)) with
  | none => throw (.unreadableFile source.data)
  | some content =>
    let store ← ofExcept (Store.ofFixtureText content)
    let graph ← ofExcept (Graph.build schema)
    return (graph, { store })

def graph (files : FileAccess m) (path : String) : Run m Unit := do
  let schema ← loadSchema files path
  let graph ← ofExcept (Graph.build schema)
  printJson graph.toJson

def select (files : FileAccess m) (source : DataFiles) (collection filter selector : String)
    (followForeignKeys : Bool) : Run m Unit := do
  let (graph, session) ← openFiles files source
  let filter ← readJson filter
  let selector ← ofExcept ((Selector.parse selector).mapError .parse)
  let (selected, _) ← access session
    ((graph.collection collection).select { followForeignKeys } filter selector)
  printJson selected

def check (files : FileAccess m) (source : DataFiles) (batchSize : Nat) : Run m Unit := do
  let (graph, session) ← openFiles files source
  let (dangling, _) ← access session (graph.findDanglingKeys { batchSize })
  if dangling.isEmpty then print "No dangling keys.\n" else printJson dangling.toJson

def delete (files : FileAccess m) (source : DataFiles) (collection filter : String)
    (single dryRun : Bool) : Run m Unit := do
  let (graph, session) ← openFiles files source
  let filter ← readJson filter
  let (plan, session) ← access session
    ((graph.collection collection).planDelete filter { single })
  printJson plan.toJson
  if !dryRun then
    let (deleted, session) ← access session plan.execute
    print ("\n" ++ toString deleted ++ " document(s) deleted from '" ++ collection ++ "'.\n\n")
    printJson session.store.dump

def outcome (run : Run m Unit) (before : String := "") : m Outcome := do
  let (result, printed) ← run.run.run ""
  match result with
  | .ok _ => return { standardOutput := printed }
  | .error error =>
    return { exitCode := 1
             standardOutput := printed
             standardError := before ++ "Error: " ++ error.message ++ "\n" }

end Run

/-- Prints the syntax tree of a selector. Where the text is no selector, it is shown with a mark
under the offending byte. -/
def parse (text : String) : m Outcome :=
  match Selector.parse text with
  | .ok selector => Run.outcome (Run.print (selector.outline ++ "\n"))
  | .error error =>
    let caret := String.ofList (List.replicate error.position ' ' ++ ['^'])
    Run.outcome (throw (.parse error)) (text ++ "\n" ++ caret ++ "\n")

def Command.run (files : FileAccess m) : Command → m Outcome
  | .graph schema => Run.outcome (Run.graph files schema)
  | .parse selector => CommandLine.parse selector
  | .select source collection filter selector followForeignKeys =>
    Run.outcome (Run.select files source collection filter selector followForeignKeys)
  | .check source batchSize => Run.outcome (Run.check files source batchSize)
  | .delete source collection filter single dryRun =>
    Run.outcome (Run.delete files source collection filter single dryRun)

def run (files : FileAccess m) (arguments : List String) : m Outcome :=
  match Command.ofArguments arguments with
  | .ok command => command.run files
  | .error .helpWanted => return { standardOutput := usage }
  | .error fault =>
    return { exitCode := 2, standardError := "error: " ++ fault.message ++ "\n\n" ++ usage }

end LinkedDocs.CommandLine
