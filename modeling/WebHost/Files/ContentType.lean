import WebHost.Text.Cut

/-!
# Media types by file extension

The media type of a file is read off the extension of its name, whatever the case of its letters.
-/

set_option autoImplicit false

namespace WebHost.ContentType

/-- The media types of known extensions. -/
def table : List (List String × String) :=
  [(["html", "htm"], "text/html; charset=utf-8"),
    (["css"], "text/css; charset=utf-8"),
    (["js", "mjs"], "text/javascript; charset=utf-8"),
    (["json", "map"], "application/json"),
    (["txt", "md"], "text/plain; charset=utf-8"),
    (["xml"], "text/xml; charset=utf-8"),
    (["csv"], "text/csv; charset=utf-8"),
    (["svg"], "image/svg+xml"),
    (["png"], "image/png"),
    (["jpg", "jpeg"], "image/jpeg"),
    (["gif"], "image/gif"),
    (["webp"], "image/webp"),
    (["avif"], "image/avif"),
    (["ico"], "image/x-icon"),
    (["woff"], "font/woff"),
    (["woff2"], "font/woff2"),
    (["ttf"], "font/ttf"),
    (["otf"], "font/otf"),
    (["pdf"], "application/pdf"),
    (["wasm"], "application/wasm"),
    (["zip"], "application/zip"),
    (["gz"], "application/gzip"),
    (["mp4"], "video/mp4"),
    (["webm"], "video/webm"),
    (["mp3"], "audio/mpeg"),
    (["wav"], "audio/wav")]

/-- The media type of a file of unknown kind. -/
def unknown : String := "application/octet-stream"

/-- The name at the end of a path; none when the path has no name or goes up at its end. -/
def fileName? (path : String) : Option String :=
  let parts := (Text.split '/' path.toList).filter fun part => part ≠ [] && part ≠ ['.']
  match parts.getLast? with
  | some part => if part = ['.', '.'] then none else some (String.ofList part)
  | none => none

/-- The extension of a file name: what follows its last dot, unless the dot comes first. -/
def extension? (name : String) : Option String :=
  match Text.cutLast '.' name.toList with
  | some (stem, extension) => if stem.isEmpty then none else some (String.ofList extension)
  | none => none

/-- The media type of the file at a path. -/
def of (path : String) : String :=
  match (fileName? path).bind extension? with
  | none => unknown
  | some extension =>
    ((table.find? (·.1.contains (Text.lower extension))).map (·.2)).getD unknown

end WebHost.ContentType
