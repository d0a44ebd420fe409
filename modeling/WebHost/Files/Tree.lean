import WebHost.Text.Cut
import WebHost.Text.Utf8
import WebHost.Time.HttpDate

/-!
# File trees

A file tree maps absolute paths to directories, files and symbolic links. Resolving a path follows
every link on the way and ends at the path, free of links, of what the path names.
-/

set_option autoImplicit false

namespace WebHost

/-- What stands at a path of a file tree. -/
inductive FileNode where
  | directory
  | file (data : Bytes) (modified : HttpDate.Timestamp)
  /-- A symbolic link with the text of its target. -/
  | link (target : String)
  deriving DecidableEq, Repr

/-- A file tree and the directory that relative paths start from. -/
structure FileTree where
  nodes : List (List String × FileNode) := []
  workingDirectory : List String := []
  deriving Repr, Inhabited

/-- Why a path names nothing that can be reached. -/
inductive FileFault where
  | missing
  | notDirectory
  | tooManyLinks
  | nameTooLong
  | invalid
  | isDirectory
  deriving DecidableEq, Repr

namespace FileTree

/-- The parts of a path between its slashes. -/
def parts (path : String) : List String := (Text.split '/' path.toList).map String.ofList

/-- Whether a path starts at the root. -/
def isAbsolute (path : String) : Bool := path.toList.head? = some '/'

/-- What stands at an absolute path, without following a link. The root is always there. -/
def lookup (t : FileTree) (path : List String) : Option FileNode :=
  if path.isEmpty then some .directory
  else (t.nodes.find? (·.1 = path)).map (·.2)

/-- Whether a directory stands at an absolute path. -/
def isDirectory (t : FileTree) (path : List String) : Bool := t.lookup path = some .directory

/-- The longest name that an entry may have, in bytes. -/
def maxName : Nat := 255

/-- Where a walk along the parts of a path came to. -/
inductive Walk where
  | arrived (path : List String)
  | failed (fault : FileFault)
  /-- The walk met a link in a directory and has parts left. -/
  | atLink (directory : List String) (target : String) (rest : List String)

/-- Walks along parts up to the first link. Every part but the last has to name a directory. -/
def walk (t : FileTree) : List String → List String → Walk
  | at_, [] => .arrived at_
  | at_, part :: rest =>
    if !t.isDirectory at_ then .failed .notDirectory
    else if part.isEmpty || part = "." then walk t at_ rest
    else if part = ".." then walk t at_.dropLast rest
    else if maxName < part.utf8ByteSize then .failed .nameTooLong
    else
      match t.lookup (at_ ++ [part]) with
      | none => .failed .missing
      | some (.link target) => .atLink at_ target rest
      | some _ => walk t (at_ ++ [part]) rest

/-- Walks along parts, following at most the given number of links. -/
def follow (t : FileTree) : Nat → List String → List String → Except FileFault (List String)
  | links, start, rest =>
    match t.walk start rest with
    | .arrived path => .ok path
    | .failed fault => .error fault
    | .atLink directory target rest =>
      match links with
      | 0 => .error .tooManyLinks
      | links + 1 =>
        follow t links (if isAbsolute target then [] else directory) (parts target ++ rest)

/-- How many links a path may lead through. -/
def maxLinks : Nat := 40

/-- The longest path, in bytes. -/
def maxPath : Nat := 4095

/-- The path, free of links, of what a path names. -/
def resolve (t : FileTree) (path : String) : Except FileFault (List String) :=
  if path.isEmpty then .error .missing
  else if path.toList.any (·.toNat = 0) then .error .invalid
  else if maxPath < path.utf8ByteSize then .error .nameTooLong
  else t.follow maxLinks (if isAbsolute path then [] else t.workingDirectory) (parts path)

/-- The text of an absolute path. -/
def pathText (path : List String) : String := "/" ++ Text.joinWith "/" path

/-- The contents of the file that a path names, and when they were last changed. -/
def read (t : FileTree) (path : String) : Except FileFault (Bytes × HttpDate.Timestamp) :=
  match t.resolve path with
  | .error fault => .error fault
  | .ok path =>
    match t.lookup path with
    | some (.file data modified) => .ok (data, modified)
    | some _ => .error .isDirectory
    | none => .error .missing

/-- The absolute path that a path names when no link is followed. -/
def absolute (t : FileTree) (path : String) : List String :=
  let own := (parts path).filter fun part => !part.isEmpty && part ≠ "."
  let start := if isAbsolute path then [] else t.workingDirectory
  own.foldl (fun at_ part => if part = ".." then at_.dropLast else at_ ++ [part]) start

/-- Puts a node at an absolute path, in place of what was there. -/
def put (t : FileTree) (path : List String) (node : FileNode) : FileTree :=
  { t with nodes := t.nodes.filter (·.1 ≠ path) ++ [(path, node)] }

/-- Makes the directories that lead to an absolute path. -/
def makeParents (t : FileTree) (path : List String) : FileTree :=
  (List.range path.length).foldl (fun t n =>
    let parent := path.take n
    if (t.lookup parent).isSome then t else t.put parent .directory) t

/-- The place of a path: its name in the directory, free of links, that the rest of it names. Where
there is no such directory yet, no link is followed. -/
def place (t : FileTree) (path : String) : List String :=
  let own := t.absolute path
  match t.resolve (pathText own.dropLast) with
  | .ok directory => directory ++ own.getLast?.toList
  | .error _ => own

/-- Puts a node at a path, with the directories that lead there. -/
def insert (t : FileTree) (path : String) (node : FileNode) : FileTree :=
  let target := t.place path
  (t.makeParents target).put target node

/-- Takes away the file or link at a path, if one stands there. -/
def erase? (t : FileTree) (path : String) : Option FileTree :=
  let target := t.place path
  match t.lookup target with
  | some (.file ..) | some (.link _) =>
    some { t with nodes := t.nodes.filter (·.1 ≠ target) }
  | _ => none

/-- A tree with nothing but its working directory. -/
def empty (workingDirectory : List String) : FileTree :=
  let t : FileTree := { workingDirectory }
  (t.makeParents workingDirectory).put workingDirectory .directory

end FileTree

end WebHost
