import WebHost.Proofs.Encoding.Percent
import WebHost.Proofs.Files.Answers
import WebHost.Proofs.Text.Parts

/-!
# Forbidden paths tell nothing of the tree

Whether a path is forbidden is decided on its parts, after its escapes have been replaced once and
before the tree is looked at. The answer to a request for a forbidden path is therefore the same over
every tree and every root, however the path is spelled. The converse holds too: a path with no
barred part has another answer over some tree, that of a root with nothing above it.
-/

set_option autoImplicit false

namespace WebHost.FileServer

open FileTree

variable {s : FileServer} {t : FileTree} {request : Request} {requestPath : String}

/-- A part that no request may name: the way up, and a hidden name where hidden files are not
served. -/
def IsBarred (serveHidden : Bool) (part : List Char) : Prop :=
  part = ['.', '.'] ∨ serveHidden = false ∧ part ≠ ['.'] ∧ part.head? = some '.'

/-- The text that the path of a request spells has a barred part. -/
def NamesBarred (serveHidden : Bool) (requestPath : String) : Prop :=
  ∃ decoded : String, Percent.Spells requestPath.toList (Utf8.encode decoded) ∧
    ∃ part, Text.HoldsPart '/' decoded.toList part ∧ IsBarred serveHidden part

/-- The answer to a request that is turned away unseen. -/
def refusal (method : String) : Response :=
  if method = "GET" ∨ method = "HEAD" then Response.text 403 "Forbidden\n"
  else
    let r := Response.text 405 "Method Not Allowed\n"
    { r with headers := r.headers.setText "allow" "GET, HEAD" }

/-! ## Barred parts -/

/-- The check of a part agrees with what is barred. -/
theorem isForbidden_iff {part : List Char} :
    s.isForbidden (String.ofList part) = true ↔ IsBarred s.serveHidden part := by
  have hup : String.ofList part = ".." ↔ part = ['.', '.'] := by
    rw [← String.toList_inj, String.toList_ofList]
    rfl
  have hself : String.ofList part = "." ↔ part = ['.'] := by
    rw [← String.toList_inj, String.toList_ofList]
    rfl
  simp [isForbidden, isHidden, IsBarred, hup, hself, String.toList_ofList]

/-- A test that the empty part fails does not see the slashes that a text begins with. -/
theorem any_split_dropWhile {p : List Char → Bool} (hp : p [] = false) (text : List Char) :
    (Text.split '/' (text.dropWhile (· = '/'))).any p = (Text.split '/' text).any p := by
  induction text with
  | nil => rfl
  | cons c rest ih =>
    by_cases hc : c = '/'
    · have hdrop : (c :: rest).dropWhile (· = '/') = rest.dropWhile (· = '/') :=
        List.dropWhile_cons_of_pos (by simpa using hc)
      rw [hdrop, ih, Text.split, if_pos hc, List.any_cons, hp, Bool.false_or]
    · rw [List.dropWhile_cons_of_neg (by simpa using hc)]

/-- An empty part is not forbidden. -/
theorem isForbidden_empty : s.isForbidden "" = false := by
  simp [isForbidden, isHidden]

/-- A decoded path is forbidden exactly if it holds a barred part. -/
theorem any_isForbidden_iff (decoded : String) :
    (parts (String.ofList (decoded.toList.dropWhile (· = '/')))).any s.isForbidden = true ↔
      ∃ part, Text.HoldsPart '/' decoded.toList part ∧ IsBarred s.serveHidden part := by
  rw [parts, String.toList_ofList, List.any_map, any_split_dropWhile isForbidden_empty,
    List.any_eq_true]
  apply exists_congr
  intro part
  rw [Text.mem_split_iff, Function.comp_apply, isForbidden_iff]

/-- A path that names something barred is refused. -/
theorem relativePath_of_namesBarred (h : NamesBarred s.serveHidden requestPath) :
    s.relativePath requestPath = .error (.forbidden requestPath) := by
  obtain ⟨decoded, hspells, hbarred⟩ := h
  have hdecode : Percent.decode? requestPath = some decoded :=
    Percent.decode?_eq_some_iff.mpr hspells
  simp only [relativePath, hdecode]
  exact if_pos ((any_isForbidden_iff decoded).mpr hbarred)

/-- A path that is refused names something barred. -/
theorem namesBarred_of_relativePath {refused : String}
    (h : s.relativePath requestPath = .error (.forbidden refused)) :
    NamesBarred s.serveHidden requestPath := by
  unfold relativePath at h
  split at h
  · simp at h
  · rename_i decoded hdecode
    by_cases hbarred :
        (parts (String.ofList (decoded.toList.dropWhile (· = '/')))).any s.isForbidden = true
    · exact ⟨decoded, Percent.decode?_eq_some_iff.mp hdecode,
        (any_isForbidden_iff decoded).mp hbarred⟩
    · rw [if_neg hbarred] at h
      simp at h

/-- Escaped dots name the way up between escaped slashes as well, but an escape that was escaped is
text: its percent sign begins nothing. -/
example :
    ["/a%2f%2E%2e//b", "/%2e./", "/%252e%252e/b"].map (relativePath ⟨"/srv", true⟩) =
      [.error (.forbidden "/a%2f%2E%2e//b"), .error (.forbidden "/%2e./"),
        .ok "%2e%2e/b"] := by
  decide +kernel

/-! ## Answers -/

/-- To `GET` and `HEAD` a refusal says that the path is forbidden. -/
theorem refusal_of_retrieval (h : IsRetrieval request) :
    refusal request.method = Response.text 403 "Forbidden\n" := by
  exact if_pos h

/-- To other methods a refusal says that they are not allowed. -/
theorem refusal_of_not_retrieval (h : ¬ IsRetrieval request) :
    refusal request.method = FileError.methodNotAllowed.response := by
  exact if_neg h

/-- Other methods are refused at every path. -/
theorem handle_of_not_retrieval (h : ¬ IsRetrieval request) :
    s.handle t request = pure (refusal request.method) := by
  rw [handle, serve_of_not_retrieval h, refusal_of_not_retrieval h]

/-- A path that names something barred is refused. -/
theorem handle_of_namesBarred (hm : IsRetrieval request)
    (h : NamesBarred s.serveHidden request.uri.path) :
    s.handle t request = pure (refusal request.method) := by
  have hlocate : s.locate t request.uri.path = .error (.forbidden request.uri.path) := by
    rw [locate, relativePath_of_namesBarred h]
    rfl
  have hserve : s.serve t request = .error (.refused (.forbidden request.uri.path)) := by
    rw [serve_of_retrieval hm, hlocate]
    rfl
  rw [handle, hserve, refusal_of_retrieval hm]
  rfl

/-- Nothing lies outside the root of a whole tree, so what is forbidden there is forbidden for its
parts. -/
theorem namesBarred_of_locate {serveHidden : Bool} {refused : String}
    (h : locate ⟨"/", serveHidden⟩ {} requestPath = .error (.forbidden refused)) :
    NamesBarred serveHidden requestPath := by
  have hroot : FileTree.resolve {} "/" = .ok [] := by decide +kernel
  simp only [locate, bind, Except.bind, hroot, Except.mapError] at h
  split at h
  · rename_i e hrelative
    obtain rfl : e = .forbidden refused := by simpa using h
    exact namesBarred_of_relativePath hrelative
  · split at h
    · simp at h
    · simp [isBelow] at h

/-- There is no file in a tree without nodes. -/
theorem isDated_of_no_nodes (s : FileServer) (requestPath : String) : s.IsDated {} requestPath := by
  intro text data modified hoffers
  obtain ⟨path, -, hfile⟩ := hoffers.source
  cases path <;> simp [lookup] at hfile

/-- A path without a barred part is not forbidden below the root of a whole tree. -/
theorem exists_handle_of_not_namesBarred {serveHidden : Bool} (hm : IsRetrieval request)
    (h : ¬ NamesBarred serveHidden request.uri.path) :
    ∃ response, handle ⟨"/", serveHidden⟩ {} request = pure response ∧ response.status ≠ 403 := by
  obtain ⟨text, data, modified, hoffers⟩ | hredirects | ⟨e, he, hfails⟩ :=
    offers_or_redirects_or_fails ⟨"/", serveHidden⟩ {} request.uri.path
  · have hwritable := isDated_of_no_nodes _ _ text data modified hoffers
    refine ⟨_, hoffers.handle hwritable hm rfl, ?_⟩
    rw [status_fileResponse]
    split_ifs <;> omega
  · refine ⟨redirectToDirectory request, ?_, ?_⟩
    · rw [handle, hredirects _ hm rfl]
    · rw [status_redirectToDirectory]
      omega
  · refine ⟨e.response, ?_, ?_⟩
    · rw [handle, hfails _ hm rfl]
    · intro h403
      cases e with
      | forbidden refused =>
        rcases he with hlocate | hmissing
        · exact h (namesBarred_of_locate hlocate)
        · exact absurd hmissing (by simp)
      | notFound _ =>
        exact absurd h403 (by simp [FileError.response, Response.notFound, Response.text])
      | methodNotAllowed => exact absurd h403 (by simp [FileError.response, Response.text])
      | unreadable _ => exact absurd h403 (by simp [FileError.response, Response.text])

/-- The answer to a request is that of a request turned away, over every tree and every root, exactly
when its path has a barred part, or when it asks for something else than a file. -/
theorem handle_eq_refusal_iff (serveHidden : Bool) (request : Request) :
    (∀ root t, handle ⟨root, serveHidden⟩ t request = pure (refusal request.method)) ↔
      (IsRetrieval request → NamesBarred serveHidden request.uri.path) := by
  constructor
  · intro h hm
    by_contra hno
    obtain ⟨response, hhandle, hstatus⟩ := exists_handle_of_not_namesBarred hm hno
    obtain rfl : response = refusal request.method :=
      Job.done.inj (hhandle.symm.trans (h "/" {}))
    rw [refusal_of_retrieval hm] at hstatus
    exact hstatus rfl
  · intro h root t
    by_cases hm : IsRetrieval request
    · exact handle_of_namesBarred hm (h hm)
    · exact handle_of_not_retrieval hm

end WebHost.FileServer
