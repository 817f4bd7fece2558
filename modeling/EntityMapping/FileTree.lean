import EntityMapping.Entries
import EntityMapping.Malformed

/-! # Database files in a tree of folders

The search goes through the files of a folder before its folders, each in the order of their
names, and does not enter folders that hold builds, dependencies or settings.
-/
namespace EntityMapping

inductive Folder
  | node (files : List String) (folders : List (String × Folder))

/-- All files of a system, in the folder at its top. A path is taken from there or from the working
folder. Some systems follow no path of more bytes than a bound. -/
structure FileTree where
  top : Folder
  current : List String
  longest : Option Nat := none

/-- The least of some entries by their names. -/
def leastBy {α : Type} (name : α → String) : List α → Option α
  | [] => none
  | a :: as => match leastBy name as with
    | none => some a
    | some b => if name b < name a then some b else some a

def pathParts (path : String) : List String := (path.toList.splitOn '/').map String.ofList

def isAbsolute (path : String) : Bool := path.toList.head? = some '/'

def isHere (part : String) : Bool := part.isEmpty || part = "."

def isUp (part : String) : Bool := part = ".."

def joinPath (path name : String) : String :=
  if path.isEmpty || path.toList.getLast? = some '/' then path ++ name
  else path ++ "/" ++ name

def skippedFolders : List String := [
  "__pycache__", ".git", ".venv", "venv", "env", "node_modules", ".pytest_cache", ".tox", "dist",
  "build", ".eggs", "vendor", "bin", "obj", "target", "out", ".idea", ".vscode"]

def databaseEndings : List String := [".db", ".sqlite", ".sqlite3"]

def isDatabaseName (name : String) : Bool :=
  databaseEndings.any fun e => e.toList.isSuffixOf name.toList

namespace Folder

def empty : Folder := .node [] []

def files : Folder → List String
  | node fs _ => fs

def folders : Folder → List (String × Folder)
  | node _ ds => ds

def folder? (d : Folder) (name : String) : Option Folder := Entries.get? d.folders name

def setFolder (d : Folder) (name : String) (child : Folder) : Folder :=
  if (d.folder? name).isSome then
    .node d.files (d.folders.map fun f => if f.1 = name then (name, child) else f)
  else .node d.files (d.folders ++ [(name, child)])

def addFolder : List String → Folder → Folder
  | [], d => d
  | name :: path, d => d.setFolder name (addFolder path ((d.folder? name).getD empty))

def addFile : List String → Folder → Folder
  | [], d => d
  | [name], d => if name ∈ d.files then d else .node (d.files ++ [name]) d.folders
  | name :: path, d => d.setFolder name (addFile path ((d.folder? name).getD empty))

/-- Makes the folders on a path one after the other, and tells where the path ends. -/
def visit : List String → List String → Folder → List String × Folder
  | here, [], d => (here, d)
  | here, part :: parts, d =>
    if isHere part then visit here parts d
    else if isUp part then visit here.dropLast parts d
    else visit (here ++ [part]) parts (d.addFolder (here ++ [part]))

/-- Follows the parts of a path from a folder, with those above it on the way back to the top. The
way up ends at the top. -/
def follow : Folder → List Folder → List String → Option Folder
  | here, _, [] => some here
  | here, above, part :: parts =>
    if isHere part then follow here above parts
    else if isUp part then match above with
      | [] => follow here [] parts
      | up :: above => follow up above parts
    else match here.folder? part with
      | some child => follow child (here :: above) parts
      | none => none

mutual

/-- The folder at a path without those below whose own paths are not followed. -/
def within (follows : String → Bool) (path : String) : Folder → Folder
  | .node files folders => .node files (foldersWithin follows path folders)

def foldersWithin (follows : String → Bool) (path : String) :
    List (String × Folder) → List (String × Folder)
  | [] => []
  | (name, d) :: rest =>
    let below := joinPath path name
    if follows below then (name, within follows below d) :: foldersWithin follows path rest
    else foldersWithin follows path rest

end

mutual

def search : Folder → Option (List String)
  | .node files folders => match leastBy id (files.filter isDatabaseName) with
    | some name => some [name]
    | none => leastBy (fun parts => parts.headD "") (searchFolders folders)

/-- The path in every folder that is entered and has a database file. -/
def searchFolders : List (String × Folder) → List (List String)
  | [] => []
  | (name, d) :: rest =>
    if name ∈ skippedFolders then searchFolders rest
    else match search d with
      | some parts => (name :: parts) :: searchFolders rest
      | none => searchFolders rest

end

end Folder

namespace FileTree

def follows (t : FileTree) (path : String) : Bool :=
  t.longest.all fun bound => path.utf8ByteSize ≤ bound

def start (t : FileTree) (path : String) : List String :=
  if isAbsolute path then [] else t.current

def visit (t : FileTree) (start parts : List String) : List String × FileTree :=
  let (here, top) := t.top.visit start parts
  (here, { t with top })

def makeFolder (t : FileTree) (path : String) : FileTree :=
  (t.visit (t.start path) (pathParts path)).2

def makeFile (t : FileTree) (path : String) : FileTree :=
  match (pathParts path).reverse with
  | [] => t
  | name :: up =>
    let (here, t) := t.visit (t.start path) up.reverse
    { t with top := t.top.addFile (here ++ [name]) }

def blank : FileTree where
  top := Folder.empty.addFolder ["work"]
  current := ["work"]
  longest := some 4095

def ofPaths (folders files : List String) : Answer FileTree := do
  let folders ← folders.mapM Text.nulFree
  let files ← files.mapM Text.nulFree
  pure (files.foldl makeFile (folders.foldl makeFolder blank))

def folderAt? (t : FileTree) (path : String) : Option Folder :=
  if path.isEmpty then none else t.top.follow [] (t.start path ++ pathParts path)

def isFolder (t : FileTree) (path : String) : Bool := t.follows path && (t.folderAt? path).isSome

def hasFile (t : FileTree) (path : String) : Bool :=
  match (pathParts path).reverse with
  | [] => false
  | name :: up =>
    t.follows path && (t.top.follow [] (t.start path ++ up.reverse)).any fun d => name ∈ d.files

/-- The first database file in the folder at a path, as a path that starts with the given one. -/
def database? (t : FileTree) (path : String) : Option String :=
  if t.follows path then
    ((t.folderAt? path).bind fun d => (d.within t.follows path).search).map fun parts =>
      parts.foldl joinPath path
  else none

/-- The search below a path that the system takes. -/
def database (t : FileTree) (path : String) : Answer (Option String) := do
  pure (t.database? (← Text.nulFree path))

end FileTree
end EntityMapping
