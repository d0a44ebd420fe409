import WebHost.Files.Server
import WebHost.Proofs.Control.Except
import WebHost.Proofs.Files.Resolution

/-!
# Where served files come from

Every answer of 200 to a `GET` request carries the bytes of one file. A file that the request names
itself lies inside the root: its canonical path was compared with that of the root. The index file
of a directory is not compared again, so the answer may come from outside, and it does exactly when
the index file is a link that leads out of the root.
-/

set_option autoImplicit false

namespace WebHost.FileServer

open FileTree

variable {s : FileServer} {t : FileTree} {request : Request} {response : Response}

/-- The canonical path of the file that answers for a path: of the path itself, or of the index
file where the path names a directory. -/
def source? (s : FileServer) (t : FileTree) (requestPath : String) : Option (List String) :=
  match s.locate t requestPath with
  | .error _ => none
  | .ok path =>
    if t.isDirectory path then (t.resolve (pathText (path ++ [indexFile]))).toOption else some path

/-- A path names a directory whose index file is a link that leads out of the root. -/
def IndexLeavesRoot (s : FileServer) (t : FileTree) (requestPath : String) : Prop :=
  ∃ root directory target path, t.resolve s.root = .ok root ∧
    s.locate t requestPath = .ok directory ∧ t.isDirectory directory = true ∧
    t.lookup (directory ++ [indexFile]) = some (.link target) ∧
    t.linkEnd directory target = .ok path ∧ ¬ IsInside root path

/-- The name of the index file is the name of an entry. -/
theorem isName_indexFile : IsName indexFile := by
  constructor <;> decide +kernel

/-- What a located path has been compared with: the canonical path of the root, which is a
directory. -/
theorem locate_eq_ok {requestPath : String} {path : List String}
    (h : s.locate t requestPath = .ok path) :
    ∃ root, t.resolve s.root = .ok root ∧ t.isDirectory root = true ∧ root <+: path ∧
      t.IsCanonical path := by
  unfold locate at h
  obtain ⟨relative, -, h⟩ := Except.bind_eq_ok_iff.mp h
  obtain ⟨root, hroot, h⟩ := Except.bind_eq_ok_iff.mp h
  have hroot : t.resolve s.root = .ok root := Except.mapError_eq_ok_iff.mp hroot
  split at h
  · simp at h
  rename_i found hfound
  split_ifs at h with hbelow
  obtain rfl : found = path := by simpa using h
  have habsolute : isAbsolute (pathText root ++ "/" ++ relative) = true := by
    rw [String.append_assoc]; exact isAbsolute_pathText_append _ _
  have hcanonical : t.IsCanonical found := resolve_isCanonical habsolute hfound
  have hbeginning : root <+: found := List.isPrefixOf_iff_prefix.mp hbelow
  refine ⟨root, hroot, ?_, hbeginning, hcanonical⟩
  -- the parts after the root were walked from the root, so the root is a directory
  have hfollow := resolve_eq_ok habsolute hfound
  rw [parts_append_slash, (hcanonical.of_front hbeginning).follow_parts_pathText] at hfollow
  cases hparts : parts relative with
  | nil => simp [parts, Text.split_ne_nil] at hparts
  | cons part rest =>
    rw [hparts] at hfollow
    exact isDirectory_of_follow hfollow

/-- A file below a directory is inside it: it cannot be the directory itself. -/
theorem isInside_of_file {root path : List String} {data : Bytes}
    {modified : HttpDate.Timestamp} (hroot : t.isDirectory root = true) (hp : root <+: path)
    (hfile : t.lookup path = some (.file data modified)) : IsInside root path := by
  obtain ⟨rest, rfl⟩ := hp
  cases rest with
  | nil =>
    rw [List.append_nil] at hfile
    simp [isDirectory, hfile] at hroot
  | cons part rest => exact ⟨part, rest, rfl⟩

/-- The answer with a file is one of 200 with the bytes of the file, or one of 304 without. -/
theorem body_fileResponse {path date : String} {data : Bytes} {modified : HttpDate.Timestamp}
    (hm : request.method = "GET")
    (h : (fileResponse request path data modified date).status = 200) :
    (fileResponse request path data modified date).body = data := by
  by_cases hn : notModified request.headers modified = true
  · simp [fileResponse, hn, Response.empty] at h
  · simp [fileResponse, hn, hm]

/-- A file is answered with exactly if its date has a written form. -/
theorem answerFile_eq_ok {path : String} {data : Bytes} {modified : HttpDate.Timestamp}
    (h : answerFile request path data modified = .ok response) :
    ∃ date, HttpDate.text modified = .ok date ∧
      response = fileResponse request path data modified date := by
  unfold answerFile at h
  split at h
  · rename_i date hdate
    exact ⟨date, hdate, (Except.ok.inj h).symm⟩
  · simp at h

/-- A request for a directory is sent on for good. -/
theorem status_redirectToDirectory (request : Request) :
    (redirectToDirectory request).status = 301 := by
  simp only [redirectToDirectory]
  split_ifs <;> rfl

/-- What a read file is: a file at the canonical path of what the path names. -/
theorem read_eq_ok {text : String} {data : Bytes} {modified : HttpDate.Timestamp}
    (h : t.read text = .ok (data, modified)) :
    ∃ path, t.resolve text = .ok path ∧ t.lookup path = some (.file data modified) := by
  unfold FileTree.read at h
  cases hr : t.resolve text with
  | error fault => simp [hr] at h
  | ok path =>
    refine ⟨path, rfl, ?_⟩
    cases hl : t.lookup path with
    | none => simp [hr, hl] at h
    | some node => cases node <;> simp_all

/-- What is served: the file that answers for the path of the request, or the way to a directory whose
path was asked for without a slash at its end. -/
theorem serve_cases (h : s.serve t request = .ok response) :
    (∃ path text data modified date, s.source? t request.uri.path = some path ∧
      t.lookup path = some (.file data modified) ∧
      response = fileResponse request text data modified date) ∨
    ((∃ path, s.locate t request.uri.path = .ok path ∧ t.isDirectory path = true) ∧
      request.uri.path.toList.getLast? ≠ some '/' ∧ response = redirectToDirectory request) := by
  unfold serve at h
  simp only [bind, Except.bind, pure, Except.pure, throw, throwThe, MonadExceptOf.throw] at h
  by_cases hmethod : request.method ≠ "GET" ∧ request.method ≠ "HEAD"
  · simp [if_pos hmethod] at h
  rw [if_neg hmethod] at h
  cases hlocate : s.locate t request.uri.path with
  | error e => simp [hlocate, Except.mapError] at h
  | ok located =>
    simp only [hlocate, Except.mapError] at h
    cases hl : t.lookup located with
    | none => simp [hl] at h
    | some node =>
      cases node with
      | link target => simp [hl] at h
      | file data modified =>
        simp only [hl] at h
        obtain ⟨date, -, hresponse⟩ := answerFile_eq_ok h
        refine .inl ⟨located, pathText located, data, modified, date, ?_, hl, hresponse⟩
        simp [source?, hlocate, isDirectory, hl]
      | directory =>
        have hdir : t.isDirectory located = true := by simp [isDirectory, hl]
        simp only [hl] at h
        split_ifs at h with hslash
        · obtain rfl : redirectToDirectory request = response := by simpa using h
          exact .inr ⟨⟨located, rfl, hdir⟩, hslash, rfl⟩
        · cases hread : t.read (pathText (located ++ [indexFile])) with
          | error fault => simp [hread] at h
          | ok found =>
            obtain ⟨data, modified⟩ := found
            simp only [hread] at h
            obtain ⟨date, -, hresponse⟩ := answerFile_eq_ok h
            obtain ⟨path, hresolve, hfile⟩ := read_eq_ok hread
            refine .inl ⟨path, pathText (located ++ [indexFile]), data, modified, date, ?_, hfile,
              hresponse⟩
            simp [source?, hlocate, hdir, hresolve, Except.toOption]

/-- An answer of 200 is the answer with the file that answers for the path of the request. -/
theorem serve_eq_ok (h : s.serve t request = .ok response) (h200 : response.status = 200) :
    ∃ path text data modified date, s.source? t request.uri.path = some path ∧
      t.lookup path = some (.file data modified) ∧
      response = fileResponse request text data modified date := by
  obtain hfile | ⟨-, -, rfl⟩ := serve_cases h
  · exact hfile
  · rw [status_redirectToDirectory] at h200
    omega

/-- The index file of a located directory lies inside the root, unless it is a link that leads out
of it. -/
theorem isInside_index {root directory path : List String} {requestPath : String} {data : Bytes}
    {modified : HttpDate.Timestamp} (hroot : t.resolve s.root = .ok root)
    (hlocate : s.locate t requestPath = .ok directory) (hdir : t.isDirectory directory = true)
    (hresolve : t.resolve (pathText (directory ++ [indexFile])) = .ok path)
    (hfile : t.lookup path = some (.file data modified)) :
    IsInside root path ↔ ¬ s.IndexLeavesRoot t requestPath := by
  obtain ⟨root', hroot', hrootdir, hbeginning, hcanonical⟩ := locate_eq_ok hlocate
  obtain rfl : root = root' := by simpa [hroot] using hroot'
  rcases hcanonical.resolve_entry isName_indexFile hresolve with ⟨target, hlink, hend⟩ | ⟨rfl, hno⟩
  · constructor
    · rintro hin ⟨root₂, directory₂, target₂, path₂, hroot₂, hlocate₂, -, hlink₂, hend₂, hout⟩
      obtain rfl : root = root₂ := by simpa [hroot] using hroot₂
      obtain rfl : directory = directory₂ := by simpa [hlocate] using hlocate₂
      obtain rfl : target = target₂ := by simpa [hlink] using hlink₂
      obtain rfl : path = path₂ := by simpa [hend] using hend₂
      exact hout hin
    · intro hstays
      by_contra hout
      exact hstays ⟨root, directory, target, path, hroot, hlocate, hdir, hlink, hend, hout⟩
  · constructor
    · rintro - ⟨root₂, directory₂, target₂, path₂, -, hlocate₂, -, hlink₂, -, -⟩
      obtain rfl : directory = directory₂ := by simpa [hlocate] using hlocate₂
      exact hno target₂ hlink₂
    · intro _
      exact isInside_of_file hrootdir (hbeginning.trans (List.prefix_append _ _)) hfile

/-- Where the file is that answers a `GET` request with 200. It is inside the root exactly when the
request does not name a directory whose index file is a link out of the root. -/
theorem isInside_source_iff (hm : request.method = "GET") (h : s.serve t request = .ok response)
    (h200 : response.status = 200) :
    ∃ root path data modified, t.resolve s.root = .ok root ∧
      s.source? t request.uri.path = some path ∧ t.IsCanonical path ∧
      t.lookup path = some (.file data modified) ∧ response.body = data ∧
      (IsInside root path ↔ ¬ s.IndexLeavesRoot t request.uri.path) := by
  obtain ⟨path, text, data, modified, date, hsource, hfile, rfl⟩ := serve_eq_ok h h200
  have hbody := body_fileResponse hm h200
  cases hlocate : s.locate t request.uri.path with
  | error e => simp [source?, hlocate] at hsource
  | ok located =>
    obtain ⟨root, hroot, hrootdir, hbeginning, hcanonical⟩ := locate_eq_ok hlocate
    by_cases hdir : t.isDirectory located = true
    · have hresolve : t.resolve (pathText (located ++ [indexFile])) = .ok path := by
        cases hr : t.resolve (pathText (located ++ [indexFile])) with
        | error fault => simp [source?, hlocate, hdir, hr, Except.toOption] at hsource
        | ok found => simpa [source?, hlocate, hdir, hr, Except.toOption] using hsource
      exact ⟨root, path, data, modified, hroot, hsource,
        resolve_isCanonical (isAbsolute_pathText _) hresolve, hfile, hbody,
        isInside_index hroot hlocate hdir hresolve hfile⟩
    · obtain rfl : located = path := by simpa [source?, hlocate, hdir] using hsource
      refine ⟨root, located, data, modified, hroot, hsource, hcanonical, hfile, hbody, ?_⟩
      have hstays : ¬ s.IndexLeavesRoot t request.uri.path := by
        rintro ⟨_, directory, _, _, -, hlocate₂, hdir₂, -, -, -⟩
        obtain rfl : located = directory := by simpa [hlocate] using hlocate₂
        exact hdir hdir₂
      exact iff_of_true (isInside_of_file hrootdir hbeginning hfile) hstays

/-- A site with two index files that are links. That of the root leads out of the site, that of the
directory below it stays inside. -/
def linkedSite : FileTree where
  nodes := [(["srv"], .directory), (["srv", "secret.txt"], .file [83] ⟨0, 0⟩),
    (["srv", "site"], .directory), (["srv", "site", "page.html"], .file [80] ⟨0, 0⟩),
    (["srv", "site", "index.html"], .link "../secret.txt"), (["srv", "site", "docs"], .directory),
    (["srv", "site", "docs", "index.html"], .link "../page.html")]
  workingDirectory := ["srv"]

/-- A request for a path. -/
def requestFor (path : String) : Request := { uri := ⟨none, none, path, none⟩ }

/-- The answer with the page of the directory below the root. -/
def docsAnswer : Response :=
  fileResponse (requestFor "/docs/") "/srv/site/docs/index.html" [80] ⟨0, 0⟩
    "Thu, 01 Jan 1970 00:00:00 GMT"

/-- The index file of the directory below the root is a link that stays inside. -/
theorem isInside_source_docs :
    (requestFor "/docs/").method = "GET" ∧
    serve ⟨"site", false⟩ linkedSite (requestFor "/docs/") = .ok docsAnswer ∧
    docsAnswer.status = 200 ∧
    ∃ root path data modified, linkedSite.resolve "site" = .ok root ∧
      source? ⟨"site", false⟩ linkedSite "/docs/" = some path ∧ linkedSite.IsCanonical path ∧
      linkedSite.lookup path = some (.file data modified) ∧ [80] = data ∧
      (IsInside root path ↔ ¬ IndexLeavesRoot ⟨"site", false⟩ linkedSite "/docs/") := by
  have hserve : serve ⟨"site", false⟩ linkedSite (requestFor "/docs/") = .ok docsAnswer := by
    decide +kernel
  have hstatus : docsAnswer.status = 200 := by
    decide +kernel
  exact ⟨rfl, hserve, hstatus, isInside_source_iff rfl hserve hstatus⟩

/-- The index file of a root need not be inside it: a link is followed out of the root, and the
bytes from there are the answer. -/
theorem source_outside_root :
    ∃ response, serve ⟨"site", false⟩ linkedSite (requestFor "/") = .ok response ∧
      response.status = 200 ∧ response.body = [83] ∧
      linkedSite.resolve "site" = .ok ["srv", "site"] ∧
      source? ⟨"site", false⟩ linkedSite "/" = some ["srv", "secret.txt"] ∧
      linkedSite.lookup ["srv", "secret.txt"] = some (.file [83] ⟨0, 0⟩) ∧
      ¬ IsInside ["srv", "site"] ["srv", "secret.txt"] := by
  refine ⟨fileResponse (requestFor "/") "/srv/site/index.html" [83] ⟨0, 0⟩
      "Thu, 01 Jan 1970 00:00:00 GMT", by decide +kernel, by decide +kernel, by decide +kernel,
    by decide +kernel, by decide +kernel, by decide +kernel, ?_⟩
  rintro ⟨part, rest, h⟩
  simp at h

end WebHost.FileServer
