import WebHost.Encoding.Percent
import WebHost.Files.ContentType
import WebHost.Files.Tree
import WebHost.Handler.Chain

/-!
# Serving files

A file server answers `GET` and `HEAD` requests with the files below a root. A path that goes up,
or names something hidden, is forbidden before the tree is looked at; a path that a link leads out
of the root is forbidden after. A directory is answered with its index file. The answer with a file
carries the date of the file, and a file whose date has no written form is not answered with at all:
serving breaks down over it.
-/

set_option autoImplicit false

namespace WebHost

/-- What a file server serves. -/
structure FileServer where
  root : String
  serveHidden : Bool := false
  deriving DecidableEq, Repr

/-- Why a file is not served. -/
inductive FileError where
  | notFound (path : String)
  | forbidden (path : String)
  | methodNotAllowed
  | unreadable (fault : FileFault)
  deriving DecidableEq, Repr

namespace FileError

/-- The status of the answer. -/
def status : FileError → Nat
  | notFound _ => 404
  | forbidden _ => 403
  | methodNotAllowed => 405
  | unreadable _ => 500

/-- The wording of the error, where it is this library's own. -/
def message? : FileError → Option String
  | notFound path => some ("file not found: " ++ path)
  | forbidden path => some ("forbidden path: " ++ path)
  | methodNotAllowed => some "method not allowed"
  | unreadable _ => none

/-- The answer to a request that cannot be served. -/
def response : FileError → Response
  | notFound _ => Response.notFound
  | forbidden _ => Response.text 403 "Forbidden\n"
  | methodNotAllowed =>
    let r := Response.text 405 "Method Not Allowed\n"
    { r with headers := r.headers.setText "allow" "GET, HEAD" }
  | unreadable _ => Response.text 500 "Internal Server Error\n"

end FileError

/-- Why a request comes to nothing: it is answered with an error, or serving breaks down over a date
that has no written form. -/
inductive FileFailure where
  | refused (error : FileError)
  | brokenDown (fault : HttpDate.Fault)
  deriving DecidableEq, Repr

namespace FileServer

/-- The name of the file that answers for a directory. -/
def indexFile : String := "index.html"

/-- Whether a part of a path is hidden. -/
def isHidden (part : String) : Bool := part ≠ "." && part.toList.head? = some '.'

/-- Whether a part of a path may not be served, whatever the tree holds. -/
def isForbidden (s : FileServer) (part : String) : Bool :=
  part = ".." || (!s.serveHidden && isHidden part)

/-- The path, below the root, that the path of a request names. -/
def relativePath (s : FileServer) (requestPath : String) : Except FileError String :=
  match Percent.decode? requestPath with
  | none => .error (.notFound requestPath)
  | some decoded =>
    let relative := decoded.toList.dropWhile (· = '/')
    let text := String.ofList relative
    if (FileTree.parts text).any s.isForbidden then .error (.forbidden requestPath)
    else .ok text

/-- Whether a path lies at or below another. -/
def isBelow (root path : List String) : Bool := root.isPrefixOf path

/-- Where in the tree the path of a request leads. -/
def locate (s : FileServer) (t : FileTree) (requestPath : String) :
    Except FileError (List String) := do
  let relative ← s.relativePath requestPath
  let root ← (t.resolve s.root).mapError FileError.unreadable
  match t.resolve (FileTree.pathText root ++ "/" ++ relative) with
  | .error _ => .error (.notFound requestPath)
  | .ok path => if isBelow root path then .ok path else .error (.forbidden requestPath)

/-- Whether a file has not changed, in whole seconds, since the date that a request names. -/
def notModified (headers : Headers) (modified : HttpDate.Timestamp) : Bool :=
  match (headers.text? "if-modified-since").bind HttpDate.parse? with
  | some since => 0 ≤ modified.seconds && modified.seconds ≤ since
  | none => false

/-- The answer that sends a request to the directory with a slash at its end. -/
def redirectToDirectory (request : Request) : Response :=
  let target := request.uri.path ++ "/" ++ match request.uri.query with
    | some query => "?" ++ query
    | none => ""
  let r := Response.empty 301
  let value := Utf8.encode target
  if isHeaderValue value then { r with headers := r.headers.set "location" value } else r

/-- The answer with a file, whose date is written. The path gives its media type. -/
def fileResponse (request : Request) (path : String) (data : Bytes)
    (modified : HttpDate.Timestamp) (date : String) : Response :=
  if notModified request.headers modified then
    { Response.empty 304 with headers := Headers.empty.setText "last-modified" date }
  else
    let h := Headers.empty.setText "content-type" (ContentType.of path)
    let h := h.setText "content-length" (toString data.length)
    { status := 200
      headers := h.setText "last-modified" date
      body := if request.method = "HEAD" then [] else data }

/-- Answers with a file, unless its date has no written form. -/
def answerFile (request : Request) (path : String) (data : Bytes)
    (modified : HttpDate.Timestamp) : Except FileFailure Response :=
  match HttpDate.text modified with
  | .ok date => .ok (fileResponse request path data modified date)
  | .error fault => .error (.brokenDown fault)

/-- Serves a request from a tree. -/
def serve (s : FileServer) (t : FileTree) (request : Request) : Except FileFailure Response := do
  if request.method ≠ "GET" ∧ request.method ≠ "HEAD" then throw (.refused .methodNotAllowed)
  let requestPath := request.uri.path
  let path ← (s.locate t requestPath).mapError FileFailure.refused
  match t.lookup path with
  | some (.file data modified) => answerFile request (FileTree.pathText path) data modified
  | some .directory =>
    if requestPath.toList.getLast? ≠ some '/' then return redirectToDirectory request
    let index := FileTree.pathText (path ++ [indexFile])
    match t.read index with
    | .ok (data, modified) => answerFile request index data modified
    | .error _ => throw (.refused (.notFound requestPath))
  | _ => throw (.refused (.notFound requestPath))

/-- A file server as a handler. -/
def handle (s : FileServer) (t : FileTree) : Handler := fun request =>
  match s.serve t request with
  | .ok response => pure response
  | .error (.refused e) => pure e.response
  | .error (.brokenDown fault) => .breakDown fault.message

end FileServer

end WebHost
