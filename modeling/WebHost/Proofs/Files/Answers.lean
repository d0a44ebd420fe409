import WebHost.Proofs.Files.Confinement
import WebHost.Proofs.Time.HttpDate

/-!
# What a path leads to

A request to see a file is answered by what its path leads to: a file, with the text whose ending
gives the media type, the way to a directory, or an error. Which of these it is depends on the tree
and the path alone. The method and the headers of the request come in later, where the answer with
the file is written, so requests that differ in nothing else lead to the same file.

The answer with a file carries its date. A file that was last changed before 1970, or will be after
9999, has a date without a written form, and every request that leads to it breaks down.
-/

set_option autoImplicit false

namespace WebHost.FileServer

open FileTree

open HttpDate (IsWritable textOfSeconds)

variable {s : FileServer} {t : FileTree} {request : Request} {requestPath text date : String}
  {data : Bytes} {modified : HttpDate.Timestamp}

/-- A request for a file, or for what its answer would say of it. -/
def IsRetrieval (request : Request) : Prop := request.method = "GET" ∨ request.method = "HEAD"

/-- The path of a request leads to a file: by itself, or as the path of a directory with an index
file. -/
inductive Offers (s : FileServer) (t : FileTree) (requestPath : String) :
    String → Bytes → HttpDate.Timestamp → Prop
  | file {path : List String} {data : Bytes} {modified : HttpDate.Timestamp}
      (hlocate : s.locate t requestPath = .ok path)
      (hfile : t.lookup path = some (.file data modified)) :
      Offers s t requestPath (pathText path) data modified
  | index {path : List String} {data : Bytes} {modified : HttpDate.Timestamp}
      (hlocate : s.locate t requestPath = .ok path) (hdir : t.lookup path = some .directory)
      (hslash : requestPath.toList.getLast? = some '/')
      (hread : t.read (pathText (path ++ [indexFile])) = .ok (data, modified)) :
      Offers s t requestPath (pathText (path ++ [indexFile])) data modified

/-- The file that a path leads to is the one that answers for the path. -/
theorem Offers.source (h : s.Offers t requestPath text data modified) :
    ∃ path, s.source? t requestPath = some path ∧ t.lookup path = some (.file data modified) := by
  cases h with
  | @file path _ _ hlocate hfile =>
    refine ⟨path, ?_, hfile⟩
    simp [source?, hlocate, isDirectory, hfile]
  | index hlocate hdir hslash hread =>
    obtain ⟨path, hresolve, hfile⟩ := read_eq_ok hread
    refine ⟨path, ?_, hfile⟩
    simp [source?, hlocate, isDirectory, hdir, hresolve, Except.toOption]

/-- A request for anything else is refused, wherever its path leads. -/
theorem serve_of_not_retrieval (h : ¬ IsRetrieval request) :
    s.serve t request = .error (.refused .methodNotAllowed) := by
  have hmethod : request.method ≠ "GET" ∧ request.method ≠ "HEAD" := not_or.mp h
  rw [serve, if_pos hmethod]
  rfl

/-- A request that may be answered is answered by what is found at its path. -/
theorem serve_of_retrieval (h : IsRetrieval request) :
    s.serve t request = ((s.locate t request.uri.path).mapError FileFailure.refused).bind fun path =>
      match t.lookup path with
      | some (.file data modified) => answerFile request (pathText path) data modified
      | some .directory =>
        if request.uri.path.toList.getLast? ≠ some '/' then .ok (redirectToDirectory request)
        else
          match t.read (pathText (path ++ [indexFile])) with
          | .ok (data, modified) =>
            answerFile request (pathText (path ++ [indexFile])) data modified
          | .error _ => .error (.refused (.notFound request.uri.path))
      | _ => .error (.refused (.notFound request.uri.path)) := by
  have hmethod : ¬ (request.method ≠ "GET" ∧ request.method ≠ "HEAD") := by
    rw [← not_or, not_not]
    exact h
  rw [serve, if_neg hmethod]
  rfl

/-- A directory that is asked for without a slash at its end is answered with the way to it. -/
theorem serve_of_directory {path : List String} (hm : IsRetrieval request)
    (hlocate : s.locate t request.uri.path = .ok path) (hdir : t.lookup path = some .directory)
    (hslash : request.uri.path.toList.getLast? ≠ some '/') :
    s.serve t request = .ok (redirectToDirectory request) := by
  rw [serve_of_retrieval hm, hlocate]
  simp [Except.mapError, Except.bind, hdir, hslash]

/-- Whatever asks for a file is answered with it. -/
theorem Offers.serve (h : s.Offers t requestPath text data modified)
    (hm : IsRetrieval request) (hpath : request.uri.path = requestPath) :
    s.serve t request = answerFile request text data modified := by
  subst hpath
  rw [serve_of_retrieval hm]
  cases h with
  | file hlocate hfile => simp [hlocate, hfile, Except.mapError, Except.bind]
  | index hlocate hdir hslash hread =>
    simp [hlocate, hdir, hslash, hread, Except.mapError, Except.bind]

/-- The answer with a file whose date can be written. -/
theorem Offers.handle (h : s.Offers t requestPath text data modified)
    (hwritable : IsWritable modified.seconds) (hm : IsRetrieval request)
    (hpath : request.uri.path = requestPath) :
    s.handle t request =
      pure (fileResponse request text data modified (textOfSeconds modified.seconds)) := by
  rw [FileServer.handle, h.serve hm hpath, answerFile, HttpDate.text_of_isWritable hwritable]

/-- A file whose date cannot be written breaks every request for it down, in one way. -/
theorem Offers.handle_of_not_isWritable (h : s.Offers t requestPath text data modified)
    (hno : ¬ IsWritable modified.seconds) :
    ∃ fault : HttpDate.Fault, ∀ request, IsRetrieval request → request.uri.path = requestPath →
      s.handle t request = .breakDown fault.message := by
  obtain ⟨fault, hfault⟩ := HttpDate.text_of_not_isWritable hno
  refine ⟨fault, fun request hm hpath => ?_⟩
  rw [FileServer.handle, h.serve hm hpath, answerFile, hfault]

/-- A path leads to a file, or to a directory, or to an error that was found on the way or says that
nothing is there. -/
theorem offers_or_redirects_or_fails (s : FileServer) (t : FileTree) (requestPath : String) :
    (∃ text data modified, s.Offers t requestPath text data modified) ∨
    (∀ request, IsRetrieval request → request.uri.path = requestPath →
      s.serve t request = .ok (redirectToDirectory request)) ∨
    ∃ e, (s.locate t requestPath = .error e ∨ e = .notFound requestPath) ∧
      ∀ request, IsRetrieval request → request.uri.path = requestPath →
        s.serve t request = .error (.refused e) := by
  cases hlocate : s.locate t requestPath with
  | error e =>
    refine .inr (.inr ⟨e, .inl rfl, ?_⟩)
    rintro request hm rfl
    rw [serve_of_retrieval hm, hlocate]
    rfl
  | ok path =>
    cases hl : t.lookup path with
    | none =>
      refine .inr (.inr ⟨_, .inr rfl, ?_⟩)
      rintro request hm rfl
      rw [serve_of_retrieval hm, hlocate]
      simp [Except.mapError, Except.bind, hl]
    | some node =>
      cases node with
      | link target =>
        refine .inr (.inr ⟨_, .inr rfl, ?_⟩)
        rintro request hm rfl
        rw [serve_of_retrieval hm, hlocate]
        simp [Except.mapError, Except.bind, hl]
      | file data modified => exact .inl ⟨_, _, _, .file hlocate hl⟩
      | directory =>
        by_cases hslash : requestPath.toList.getLast? = some '/'
        · cases hread : t.read (pathText (path ++ [indexFile])) with
          | ok found => exact .inl ⟨_, _, _, .index hlocate hl hslash hread⟩
          | error fault =>
            refine .inr (.inr ⟨_, .inr rfl, ?_⟩)
            rintro request hm rfl
            rw [serve_of_retrieval hm, hlocate]
            simp [Except.mapError, Except.bind, hl, hslash, hread]
        · refine .inr (.inl ?_)
          rintro request hm rfl
          exact serve_of_directory hm hlocate hl hslash

/-! ## The answer with a file -/

/-- The status tells whether the file has changed. -/
theorem status_fileResponse (request : Request) (text : String) (data : Bytes)
    (modified : HttpDate.Timestamp) (date : String) :
    (fileResponse request text data modified date).status =
      if notModified request.headers modified then 304 else 200 := by
  rw [fileResponse]
  split_ifs <;> rfl

/-- The data of the file is sent unless it has not changed or only its head was asked for. -/
theorem fileResponse_body (request : Request) (text : String) (data : Bytes)
    (modified : HttpDate.Timestamp) (date : String) :
    (fileResponse request text data modified date).body =
      if notModified request.headers modified ∨ request.method = "HEAD" then [] else data := by
  by_cases hn : notModified request.headers modified = true
  · simp [fileResponse, hn, Response.empty]
  · simp [fileResponse, hn]

/-- The method decides nothing about the headers of the answer. -/
theorem headers_fileResponse_withMethod (request : Request) (method text : String) (data : Bytes)
    (modified : HttpDate.Timestamp) (date : String) :
    (fileResponse { request with method := method } text data modified date).headers =
      (fileResponse request text data modified date).headers := by
  by_cases hn : notModified request.headers modified = true
  · simp only [fileResponse, hn, if_true]
  · simp only [fileResponse, if_neg hn]

/-- An answer with the file tells the length of its data. -/
theorem values_contentLength_fileResponse
    (h : (fileResponse request text data modified date).status = 200) :
    (fileResponse request text data modified date).headers.values "content-length" =
      [Utf8.encode (toString data.length)] := by
  have hn : ¬ notModified request.headers modified = true := by
    intro hn
    rw [status_fileResponse, if_pos hn] at h
    omega
  simp [fileResponse, hn, Headers.setText]

/-! ## Two methods, one answer -/

/-- The answers to `GET` and `HEAD` at the same path and with the same headers: alike but for the data
of a file, which only the first one carries while both tell its length. -/
structure IsMirrored (s : FileServer) (t : FileTree) (requestPath : String)
    (get head : Response) : Prop where
  status : head.status = get.status
  headers : head.headers = get.headers
  empty : get.status = 200 → head.body = []
  length : get.status = 200 →
    head.headers.values "content-length" = [Utf8.encode (toString get.body.length)]
  data : get.status = 200 → ∃ path modified, s.source? t requestPath = some path ∧
    t.lookup path = some (.file get.body modified)
  otherwise : get.status ≠ 200 → head.body = get.body

/-- The answers with one file mirror each other. -/
theorem Offers.isMirrored (h : s.Offers t requestPath text data modified) (request : Request)
    (date : String) :
    s.IsMirrored t requestPath
      (fileResponse { request with method := "GET" } text data modified date)
      (fileResponse { request with method := "HEAD" } text data modified date) where
  status := by simp only [status_fileResponse]
  headers := by simp only [headers_fileResponse_withMethod request]
  empty := by
    intro _
    rw [fileResponse_body]
    exact if_pos (.inr rfl)
  length := by
    intro h200
    rw [body_fileResponse rfl h200]
    apply values_contentLength_fileResponse
    rw [status_fileResponse] at h200 ⊢
    exact h200
  data := by
    intro h200
    obtain ⟨path, hsource, hfile⟩ := h.source
    rw [body_fileResponse rfl h200]
    exact ⟨path, modified, hsource, hfile⟩
  otherwise := by
    intro hother
    rw [status_fileResponse] at hother
    by_cases hn : notModified request.headers modified = true
    · simp [fileResponse_body, hn]
    · exact absurd (if_neg hn) hother

/-- An answer without a file is its own mirror image. -/
theorem isMirrored_self {response : Response} (h : response.status ≠ 200) :
    s.IsMirrored t requestPath response response where
  status := rfl
  headers := rfl
  empty := fun h200 => absurd h200 h
  length := fun h200 => absurd h200 h
  data := fun h200 => absurd h200 h
  otherwise := fun _ => rfl

/-- No error is answered with 200. -/
theorem status_errorResponse_ne (e : FileError) : e.response.status ≠ 200 := by
  cases e <;> simp [FileError.response, Response.notFound, Response.text]

/-- What a path leads to has a date that can be written, if it is a file. -/
def IsDated (s : FileServer) (t : FileTree) (requestPath : String) : Prop :=
  ∀ text data modified, s.Offers t requestPath text data modified → IsWritable modified.seconds

/-- `GET` and `HEAD` at a path are both answered, and the answers mirror each other. -/
def AnswersAlike (s : FileServer) (t : FileTree) (request : Request) : Prop :=
  ∃ get head, s.handle t { request with method := "GET" } = pure get ∧
    s.handle t { request with method := "HEAD" } = pure head ∧
    s.IsMirrored t request.uri.path get head

/-- Where no file without a written date is found, `HEAD` is answered as `GET` is. -/
theorem answersAlike_of_isDated (h : s.IsDated t request.uri.path) : s.AnswersAlike t request := by
  have hget : IsRetrieval { request with method := "GET" } := .inl rfl
  have hhead : IsRetrieval { request with method := "HEAD" } := .inr rfl
  obtain ⟨text, data, modified, hoffers⟩ | hredirects | ⟨e, -, hfails⟩ :=
    s.offers_or_redirects_or_fails t request.uri.path
  · have hwritable := h text data modified hoffers
    exact ⟨_, _, hoffers.handle hwritable hget rfl, hoffers.handle hwritable hhead rfl,
      hoffers.isMirrored request _⟩
  · refine ⟨redirectToDirectory request, redirectToDirectory request, ?_, ?_, isMirrored_self ?_⟩
    · rw [handle, hredirects _ hget rfl]
      rfl
    · rw [handle, hredirects _ hhead rfl]
      rfl
    · rw [status_redirectToDirectory]
      omega
  · refine ⟨e.response, e.response, ?_, ?_, isMirrored_self (status_errorResponse_ne e)⟩
    · rw [handle, hfails _ hget rfl]
    · rw [handle, hfails _ hhead rfl]

/-- Where a file without a written date is found, both break down, and in one way. -/
theorem breaksDown_of_not_isDated (h : ¬ s.IsDated t requestPath) :
    ∃ fault : HttpDate.Fault, ∀ request, IsRetrieval request → request.uri.path = requestPath →
      s.handle t request = .breakDown fault.message := by
  simp only [IsDated, not_forall] at h
  obtain ⟨text, data, modified, hoffers, hno⟩ := h
  exact hoffers.handle_of_not_isWritable hno

/-- What is answered has a date that can be written, if it is a file. -/
theorem isDated_of_handle {response : Response} (hm : IsRetrieval request)
    (h : s.handle t request = pure response) : s.IsDated t request.uri.path := by
  by_contra hno
  obtain ⟨fault, hbreaks⟩ := breaksDown_of_not_isDated hno
  rw [hbreaks request hm rfl] at h
  injection h

/-- A request is answered with what is served or with an error, unless it leads to a file without a
written date. -/
theorem handle_cases (s : FileServer) (t : FileTree) (request : Request) :
    (∃ response, s.handle t request = pure response ∧
      (s.serve t request = .ok response ∨ ∃ e : FileError, response = e.response)) ∨
    (IsRetrieval request ∧ ¬ s.IsDated t request.uri.path ∧
      ∃ fault : HttpDate.Fault, s.handle t request = .breakDown fault.message) := by
  by_cases hm : IsRetrieval request
  · by_cases hdated : s.IsDated t request.uri.path
    · refine .inl ?_
      obtain ⟨text, data, modified, hoffers⟩ | hredirects | ⟨e, -, hfails⟩ :=
        s.offers_or_redirects_or_fails t request.uri.path
      · have hwritable := hdated text data modified hoffers
        refine ⟨_, hoffers.handle hwritable hm rfl, .inl ?_⟩
        rw [hoffers.serve hm rfl, answerFile, HttpDate.text_of_isWritable hwritable]
      · exact ⟨redirectToDirectory request, by rw [handle, hredirects _ hm rfl],
          .inl (hredirects _ hm rfl)⟩
      · exact ⟨e.response, by rw [handle, hfails _ hm rfl], .inr ⟨e, rfl⟩⟩
    · obtain ⟨fault, hbreaks⟩ := breaksDown_of_not_isDated hdated
      exact .inr ⟨hm, hdated, fault, hbreaks _ hm rfl⟩
  · exact .inl ⟨FileError.methodNotAllowed.response, by rw [handle, serve_of_not_retrieval hm],
      .inr ⟨_, rfl⟩⟩

/-- `HEAD` is answered as `GET` is, over every tree, at every path and with all headers, exactly where
the path does not lead to a file whose date cannot be written. There, neither is answered: both break
down with one message. -/
theorem head_mirrors_get_iff (s : FileServer) (t : FileTree) (request : Request) :
    (s.AnswersAlike t request ↔ s.IsDated t request.uri.path) ∧
    (¬ s.AnswersAlike t request → ∃ fault : HttpDate.Fault,
      s.handle t { request with method := "GET" } = .breakDown fault.message ∧
      s.handle t { request with method := "HEAD" } = .breakDown fault.message) := by
  have hget : IsRetrieval { request with method := "GET" } := .inl rfl
  have hhead : IsRetrieval { request with method := "HEAD" } := .inr rfl
  refine ⟨⟨?_, answersAlike_of_isDated⟩, fun hno => ?_⟩
  · rintro ⟨get, -, hanswer, -, -⟩
    have hdated : s.IsDated t ({ request with method := "GET" } : Request).uri.path :=
      isDated_of_handle hget hanswer
    exact hdated
  · obtain ⟨fault, hbreaks⟩ := breaksDown_of_not_isDated fun hdated =>
      hno (answersAlike_of_isDated hdated)
    exact ⟨fault, hbreaks _ hget rfl, hbreaks _ hhead rfl⟩

/-- A site with one page, last changed at a time. -/
def datedSite (modified : HttpDate.Timestamp) : FileTree where
  nodes := [(["srv"], .directory), (["srv", "page.html"], .file [80] modified)]
  workingDirectory := []

/-- A page that was last changed in the second before 1970 is neither sent nor described. -/
theorem not_answersAlike_before_epoch :
    ¬ AnswersAlike ⟨"/srv", false⟩ (datedSite ⟨-1, 0⟩) (requestFor "/page.html") ∧
    handle ⟨"/srv", false⟩ (datedSite ⟨-1, 0⟩) (requestFor "/page.html") =
      .breakDown "all times should be after the epoch: SystemTimeError(1s)" := by
  have hserve : serve ⟨"/srv", false⟩ (datedSite ⟨-1, 0⟩) (requestFor "/page.html") =
      .error (.brokenDown (.beforeEpoch (.ofSeconds 1))) := by
    decide +kernel
  have hmessage : (HttpDate.Fault.beforeEpoch (.ofSeconds 1)).message =
      "all times should be after the epoch: SystemTimeError(1s)" := by
    decide +kernel
  have hhandle : handle ⟨"/srv", false⟩ (datedSite ⟨-1, 0⟩) (requestFor "/page.html") =
      .breakDown "all times should be after the epoch: SystemTimeError(1s)" := by
    rw [handle, hserve, ← hmessage]
  refine ⟨?_, hhandle⟩
  rintro ⟨get, -, hget, -, -⟩
  exact absurd (hhandle.symm.trans hget) (by simp [pure])

end WebHost.FileServer
