import LinkedDocs.NameMap
import LinkedDocs.Path

namespace LinkedDocs

structure DirectoryEntry where
  name : String
  isFile : Bool
deriving DecidableEq, Repr

/-- What can be asked about a path. -/
structure FileAccess (m : Type → Type) where
  entries? : String → m (Option (List DirectoryEntry))
  content? : String → m (Option String)

/-- The segments of a path between slashes. -/
def pathSegments (path : String) : List String :=
  (splitChars '/' path.toList).map String.ofList

/-- The segments of a path that lead anywhere. -/
def pathSteps (path : String) : List String :=
  (pathSegments path).filter fun segment => segment ≠ "" && segment ≠ "."

/-- The path of an entry in a directory. -/
def joinFilePath (directory name : String) : String :=
  if directory = "" || directory.toList.getLast? = some '/' then directory ++ name
  else directory ++ "/" ++ name

/-- The last name on a path, if it names an entry of a directory. -/
def fileName? (path : String) : Option String :=
  match (pathSteps path).getLast? with
  | some name => if name = ".." then none else some name
  | none => none

/-- The parts of a name before and after its last dot. A dot at the start separates nothing. -/
def splitExtension (name : String) : String × Option String :=
  match (splitChars '.' name.toList).reverse with
  | last :: first :: others =>
    let stem := ".".intercalate ((first :: others).reverse.map String.ofList)
    if stem = "" then (name, none) else (stem, some (String.ofList last))
  | _ => (name, none)

inductive FileTree where
  | file (content : String)
  | directory (entries : List (String × FileTree))
deriving Inhabited

namespace FileTree

def entries : FileTree → List (String × FileTree)
  | .file _ => []
  | .directory entries => entries

/-- Puts a tree at a path and makes the directories on the way. -/
def insert (tree : FileTree) : List String → FileTree → FileTree
  | [], root => .directory (root.entries ++ tree.entries)
  | [name], root =>
    let entry :=
      match tree, lookupName name root.entries with
      | .directory [], some existing => existing
      | tree, _ => tree
    .directory (putField name entry root.entries)
  | name :: rest, root =>
    let child := (lookupName name root.entries).getD (.directory [])
    .directory (putField name (insert tree rest child) root.entries)

/-- The tree of files under their paths; a path without content is a directory. -/
def ofFiles (files : List (String × Option String)) : FileTree :=
  files.foldl (fun root (path, content) =>
    insert ((content.map FileTree.file).getD (.directory [])) (pathSteps path) root)
    (.directory [])

def isFile : FileTree → Bool
  | .file _ => true
  | .directory _ => false

/-- Follows the segments of a path from a tree that lies in the directories `above`, the nearest one
first. Empty segments and dots stay in a directory, and two dots lead out of it. -/
def find? (above : List FileTree) : List String → FileTree → Option FileTree
  | [], tree => some tree
  | segment :: rest, tree =>
    if tree.isFile then none
    else if segment = "" || segment = "." then find? above rest tree
    else if segment = ".." then
      match above with
      | [] => none
      | parent :: others => find? others rest parent
    else
      match lookupName segment tree.entries with
      | some child => find? (tree :: above) rest child
      | none => none

/-- The tree at a relative path; the empty path leads nowhere. -/
def at? (root : FileTree) (path : String) : Option FileTree :=
  if path = "" || path.toList.head? = some '/' then none else root.find? [] (pathSegments path)

/-- Answers questions about paths from a tree. -/
def access (root : FileTree) : FileAccess Id where
  entries? path :=
    match root.at? path with
    | some (.directory entries) => some (entries.map fun (name, tree) => ⟨name, tree.isFile⟩)
    | _ => none
  content? path :=
    match root.at? path with
    | some (.file content) => some content
    | _ => none

end FileTree

end LinkedDocs
