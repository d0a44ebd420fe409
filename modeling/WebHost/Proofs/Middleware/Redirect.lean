import WebHost.Middleware.Redirect
import WebHost.Proofs.Files.Answers
import WebHost.Proofs.Http.Reference
import WebHost.Proofs.Http.Target

/-!
# Where redirects lead

Two answers send a client to another path of the same place: the one that takes the slashes at the
end of a path away, and the one that puts a slash behind the path of a directory. Both write the path
and the query of the request, changed at the end of the path, into the location. The client reads the
location as a reference, so it arrives at that path exactly when the path is literal; a path that
begins with two slashes takes it to another host.
-/

set_option autoImplicit false

namespace WebHost

open Reference

/-- The address of a request, at the scheme and authority that it came to. -/
def Uri.address (u : Uri) (scheme authority : List Char) : Reference :=
  { scheme := some scheme
    authority := some authority
    path := u.path.toList
    query := u.query.map String.toList }

namespace Response

variable {method location : String}

/-- A redirect answers GET by 301 and any other method by 307. -/
theorem status_redirect (h : isHeaderValue (Utf8.encode location) = true) :
    (redirect method location).status = if method = "GET" then 301 else 307 := by
  simp only [redirect, h, if_true, redirectStatus]

/-- A redirect names its target and no other one. -/
theorem values_location_redirect (h : isHeaderValue (Utf8.encode location) = true) :
    (redirect method location).headers.values "location" = [Utf8.encode location] := by
  simp [redirect, h]

end Response

/-- A response has one location, which takes a client from one address to another. -/
def Response.LeadsTo (r : Response) (own target : Reference) : Prop :=
  ∃ location text, r.headers.values "location" = [location] ∧
    Utf8.decode? location = some text ∧ own.resolve (read text.toList) = target

/-- The location of a path at the place of a request: the path with the query of the request. -/
def Uri.locationOf (u : Uri) (path : List Char) : String :=
  String.ofList (path ++ querySuffix (u.query.map String.toList))

/-- A location is a path and, where there is one, the query of the request. -/
theorem Uri.locationOf_eq (u : Uri) (path : List Char) :
    u.locationOf path = String.ofList path ++ match u.query with
      | some query => "?" ++ query
      | none => "" := by
  apply String.toList_inj.mp
  cases hq : u.query <;> simp [locationOf, querySuffix, hq]

section Location

variable {u : Uri} {path : List Char}

/-- A response with one location leads to what that resolves to. -/
theorem leadsTo_iff {r : Response} {text : String}
    (h : r.headers.values "location" = [Utf8.encode text]) {own target : Reference} :
    r.LeadsTo own target ↔ own.resolve (read text.toList) = target := by
  constructor
  · rintro ⟨location, found, hvalues, hdecode, hresolve⟩
    rw [h, List.cons.injEq] at hvalues
    rw [← hvalues.1, Utf8.decode?_eq_some_iff.mpr rfl, Option.some_inj] at hdecode
    rwa [hdecode]
  · intro hresolve
    exact ⟨_, text, h, Utf8.decode?_eq_some_iff.mpr rfl, hresolve⟩

/-- A path without gaps and the query of a target that was read may stand in a header value. -/
theorem isHeaderValue_locationOf (hquery : ∀ q ∈ u.query, Text.IsWord q)
    (hpath : ∀ c ∈ path, ¬ IsGap c) :
    isHeaderValue (Utf8.encode (u.locationOf path)) = true := by
  have hmark : ¬ IsControl '?' := by decide
  apply isHeaderValue_of_no_control
  intro c hc
  rw [Uri.locationOf, String.toList_ofList, List.mem_append] at hc
  rcases hc with hc | hc
  · exact not_control_of_not_gap (hpath c hc)
  · cases hq : u.query with
    | none => simp [hq, querySuffix] at hc
    | some q =>
      obtain rfl | hc : c = '?' ∨ c ∈ q.toList := by simpa [hq, querySuffix] using hc
      · exact hmark
      · exact not_control_of_not_gap (hquery q hq c hc)

/-- A location that writes a path from the root leads to it exactly when the path is literal. -/
theorem leadsTo_locationOf_iff {r : Response} (hform : u.IsOriginForm)
    (hslash : path.head? = some '/') (hpath : ∀ c ∈ path, Uri.isPathChar c = true)
    (h : r.headers.values "location" = [Utf8.encode (u.locationOf path)])
    (scheme authority : List Char) :
    r.LeadsTo (u.address scheme authority) { u.address scheme authority with path } ↔
      IsLiteral path := by
  have hquery : ∀ q ∈ u.query.map String.toList, '#' ∉ q := by
    intro q hq hmem
    obtain ⟨text, htext, rfl⟩ := Option.map_eq_some_iff.mp hq
    exact Uri.ne_of_isQueryChar (hform.query text htext _ hmem) rfl
  rw [leadsTo_iff h, Uri.locationOf, String.toList_ofList]
  exact resolve_read_rooted_iff hslash (fun c hc => Uri.ne_of_isPathChar (hpath c hc)) hquery
    (some scheme) (some authority) u.path.toList

end Location

namespace Redirect

/-! ## Without the slashes at the end -/

/-- A path before the slashes at its end; what is left of slashes alone is the root. -/
def beforeSlashes (front : List Char) : List Char := if front = [] then ['/'] else front

variable {request : Request} {front : List Char} {slashes : ℕ}

/-- The root and a path without a trailing slash are not redirected. -/
theorem slashlessLocation?_eq_none
    (h : request.uri.path.toList = ['/'] ∨ request.uri.path.toList.getLast? ≠ some '/') :
    slashlessLocation? request = none := by
  simp only [slashlessLocation?]
  rw [if_pos (by simpa using h)]

/-- Any other path is redirected to what comes before its trailing slashes. -/
theorem slashlessLocation?_eq_some
    (hpath : request.uri.path.toList = front ++ List.replicate slashes '/')
    (hfront : front.getLast? ≠ some '/') (hslashes : slashes ≠ 0)
    (hroot : request.uri.path.toList ≠ ['/']) :
    slashlessLocation? request = some (request.uri.locationOf (beforeSlashes front)) := by
  have hlast : (front ++ List.replicate slashes '/').getLast? = some '/' := by
    obtain ⟨n, rfl⟩ := Nat.exists_eq_succ_of_ne_zero hslashes
    simp [List.replicate_succ']
  have htarget : (if front.isEmpty then "/" else String.ofList front) =
      String.ofList (beforeSlashes front) := by
    cases front <;> rfl
  rw [hpath] at hroot
  simp only [slashlessLocation?, hpath, Text.dropTrailing_append_replicate hfront, htarget,
    Uri.locationOf_eq]
  rw [if_neg (by simp [hroot, hlast])]
  cases request.uri.query <;> simp [String.append_assoc]

/-- What comes before the trailing slashes of a rooted path is rooted. -/
theorem head?_beforeSlashes (h : (front ++ List.replicate slashes '/').head? = some '/') :
    (beforeSlashes front).head? = some '/' := by
  cases front with
  | nil => rfl
  | cons c front => simpa [beforeSlashes] using h

/-- What is left of a path without the slashes at its end comes out of it. -/
theorem beforeSlashes_sublist (hslashes : slashes ≠ 0) :
    (beforeSlashes front).Sublist (front ++ List.replicate slashes '/') := by
  unfold beforeSlashes
  split_ifs with hfront
  · rw [List.singleton_sublist]
    simp [hslashes]
  · exact List.sublist_append_left _ _

/-- The answer to a path with slashes at its end. -/
theorem removeTrailingSlash_answers (hword : Text.IsWord request.uri.path)
    (hquery : ∀ q ∈ request.uri.query, Text.IsWord q)
    (hpath : request.uri.path.toList = front ++ List.replicate slashes '/')
    (hfront : front.getLast? ≠ some '/') (hslashes : slashes ≠ 0)
    (hroot : request.uri.path.toList ≠ ['/']) :
    ∃ response, (∀ next, removeTrailingSlash.around next request = pure response) ∧
      response.status = (if request.method = "GET" then 301 else 307) ∧
      response.headers.values "location" =
        [Utf8.encode (request.uri.locationOf (beforeSlashes front))] := by
  have hgap : ∀ c ∈ beforeSlashes front, ¬ IsGap c := fun c hc =>
    hword c (hpath ▸ (beforeSlashes_sublist hslashes).subset hc)
  have hvalue := isHeaderValue_locationOf hquery hgap
  refine ⟨Response.redirect request.method (request.uri.locationOf (beforeSlashes front)), ?_,
    Response.status_redirect hvalue, Response.values_location_redirect hvalue⟩
  intro next
  simp only [removeTrailingSlash, slashlessLocation?_eq_some hpath hfront hslashes hroot]

/-- Slashes at the end of a path are answered with a location that leads to the path without them
exactly when that path is literal. -/
theorem removeTrailingSlash_leadsTo_iff (hform : request.uri.IsOriginForm)
    (hpath : request.uri.path.toList = front ++ List.replicate slashes '/')
    (hfront : front.getLast? ≠ some '/') (hslashes : slashes ≠ 0)
    (hroot : request.uri.path.toList ≠ ['/']) :
    ∃ response, (∀ next, removeTrailingSlash.around next request = pure response) ∧
      ∀ scheme authority,
        response.LeadsTo (request.uri.address scheme authority)
          { request.uri.address scheme authority with path := beforeSlashes front } ↔
        IsLiteral (beforeSlashes front) := by
  have hslash : (beforeSlashes front).head? = some '/' :=
    head?_beforeSlashes (hpath ▸ hform.slash)
  have hchars : ∀ c ∈ beforeSlashes front, Uri.isPathChar c = true := fun c hc =>
    hform.path c (hpath ▸ (beforeSlashes_sublist hslashes).subset hc)
  obtain ⟨hword, hquery⟩ := hform.isPlace.isWord
  obtain ⟨response, haround, -, hlocation⟩ :=
    removeTrailingSlash_answers hword hquery hpath hfront hslashes hroot
  exact ⟨response, haround, leadsTo_locationOf_iff hform hslash hchars hlocation⟩

/-- Any other path is handed on. -/
theorem removeTrailingSlash_around_eq_run
    (h : request.uri.path.toList = ['/'] ∨ request.uri.path.toList.getLast? ≠ some '/')
    (next : Next) : removeTrailingSlash.around next request = next.run request := by
  simp only [removeTrailingSlash, slashlessLocation?_eq_none h]

end Redirect

/-! ## With a slash at the end -/

namespace FileServer

variable {request : Request}

/-- The answer with a file names no location. -/
theorem values_location_fileResponse (path : String) (data : Bytes)
    (modified : HttpDate.Timestamp) (date : String) :
    (fileResponse request path data modified date).headers.values "location" = [] := by
  have hempty : Headers.empty.values "location" = [] := rfl
  unfold fileResponse
  split_ifs <;> simp [Headers.setText, hempty]

/-- A response to an error of the files names no location. -/
theorem values_location_errorResponse (e : FileError) :
    e.response.headers.values "location" = [] := by
  have hempty : Headers.empty.values "location" = [] := rfl
  cases e <;> simp [FileError.response, Response.notFound, Response.text, Headers.setText, hempty]

/-- A path with a slash behind it consists of the signs of a path. -/
theorem isPathChar_append_slash {u : Uri} (hform : u.IsOriginForm) :
    ∀ c ∈ u.path.toList ++ ['/'], Uri.isPathChar c = true := by
  intro c hc
  rcases List.mem_append.mp hc with hc | hc
  · exact hform.path c hc
  · obtain rfl : c = '/' := by simpa using hc
    rfl

/-- The redirect of a directory names its path with a slash behind it. -/
theorem values_location_redirectToDirectory (hform : request.uri.IsOriginForm) :
    (redirectToDirectory request).headers.values "location" =
      [Utf8.encode (request.uri.locationOf (request.uri.path.toList ++ ['/']))] := by
  have hvalue := isHeaderValue_locationOf hform.isPlace.isWord.2 fun c hc =>
    Uri.not_gap_of_isPathChar (isPathChar_append_slash hform c hc)
  have htext := request.uri.locationOf_eq (request.uri.path.toList ++ ['/'])
  have hfront : String.ofList (request.uri.path.toList ++ ['/']) = request.uri.path ++ "/" := by
    rw [String.ofList_append, String.ofList_toList]
  rw [hfront] at htext
  cases hq : request.uri.query <;>
  · simp only [hq] at htext
    simp only [redirectToDirectory, hq]
    rw [← htext, if_pos hvalue, Headers.values_set, if_pos rfl]

/-- A directory that is asked for without a slash at the end is answered with a location that leads to
the path with the slash exactly when that path is literal. No other answer has a location, and only a
file without a written date gets none. -/
theorem handle_leadsTo_iff (hform : request.uri.IsOriginForm) (s : FileServer) (t : FileTree) :
    (∃ response, s.handle t request = pure response ∧
      (response.headers.values "location" ≠ [] → ∀ scheme authority,
        (response.LeadsTo (request.uri.address scheme authority)
          { request.uri.address scheme authority with path := request.uri.path.toList ++ ['/'] } ↔
        IsLiteral (request.uri.path.toList ++ ['/'])))) ∨
    (¬ s.IsDated t request.uri.path ∧
      ∃ fault : HttpDate.Fault, s.handle t request = .breakDown fault.message) := by
  obtain ⟨response, hhandle, hserve | ⟨e, rfl⟩⟩ | ⟨-, hundated⟩ := s.handle_cases t request
  · refine .inl ⟨response, hhandle, fun hlocation => ?_⟩
    obtain ⟨-, text, data, modified, date, -, -, rfl⟩ | ⟨-, -, rfl⟩ := serve_cases hserve
    · exact absurd (values_location_fileResponse text data modified date) hlocation
    · have hchars := isPathChar_append_slash hform
      have hslash : (request.uri.path.toList ++ ['/']).head? = some '/' := by
        rw [List.head?_append, hform.slash]
        rfl
      exact leadsTo_locationOf_iff hform hslash hchars (values_location_redirectToDirectory hform)
  · exact .inl ⟨e.response, hhandle, fun hlocation =>
      absurd (values_location_errorResponse e) hlocation⟩
  · exact .inr hundated

end FileServer

/-- Requests whose target begins with a slash. A path with slashes at its end is answered with the way
to the path without them, one without a slash at its end, where it names a directory, with the way to
the path with one; from wherever the request came, that way keeps the scheme, the authority and the
query and leads to that path exactly when that path is literal. Only a file without a written date gets
no answer. -/
theorem pathRedirects_leadsTo_iff {s : String} {request : Request}
    (hparse : Uri.parse? s = some request.uri) (hslash : s.toList.head? = some '/') :
    (∀ front slashes, request.uri.path.toList = front ++ List.replicate slashes '/' →
      front.getLast? ≠ some '/' → slashes ≠ 0 → request.uri.path.toList ≠ ['/'] →
      ∃ response, (∀ next, Redirect.removeTrailingSlash.around next request = pure response) ∧
        ∀ scheme authority,
          (response.LeadsTo (request.uri.address scheme authority)
            { request.uri.address scheme authority with path := Redirect.beforeSlashes front } ↔
          IsLiteral (Redirect.beforeSlashes front))) ∧
    (request.uri.path.toList = ['/'] ∨ request.uri.path.toList.getLast? ≠ some '/' →
      ∀ next, Redirect.removeTrailingSlash.around next request = next.run request) ∧
    ∀ (server : FileServer) (tree : FileTree),
      (∃ response, server.handle tree request = pure response ∧
        (response.headers.values "location" ≠ [] → ∀ scheme authority,
          (response.LeadsTo (request.uri.address scheme authority)
            { request.uri.address scheme authority with path := request.uri.path.toList ++ ['/'] } ↔
          IsLiteral (request.uri.path.toList ++ ['/'])))) ∨
      (¬ server.IsDated tree request.uri.path ∧
        ∃ fault : HttpDate.Fault, server.handle tree request = .breakDown fault.message) := by
  have hform := Uri.isOriginForm_of_parse hparse hslash
  refine ⟨?_, Redirect.removeTrailingSlash_around_eq_run, FileServer.handle_leadsTo_iff hform⟩
  intro front slashes hpath hfront hslashes hroot
  exact Redirect.removeTrailingSlash_leadsTo_iff hform hpath hfront hslashes hroot

/-- The directory of the linked site is asked for without a slash. -/
theorem FileServer.handle_docs :
    FileServer.handle ⟨"site", false⟩ FileServer.linkedSite (FileServer.requestFor "/docs") =
      pure (FileServer.redirectToDirectory (FileServer.requestFor "/docs")) := by
  have hserve : FileServer.serve ⟨"site", false⟩ FileServer.linkedSite
      (FileServer.requestFor "/docs") =
        .ok (FileServer.redirectToDirectory (FileServer.requestFor "/docs")) := by
    decide +kernel
  rw [FileServer.handle, hserve]

/-- The target of a directory, with slashes at its end and a query. -/
def docsTarget : Uri := ⟨none, none, "/docs//", some "page=2"⟩

/-- A path with two slashes behind it leads to the path without them, with its query. -/
theorem docsTarget_leadsTo :
    (Uri.parse? "/docs//?page=2" = some docsTarget ∧ "/docs//?page=2".toList.head? = some '/' ∧
      ∃ response,
        (∀ next, Redirect.removeTrailingSlash.around next { uri := docsTarget } = pure response) ∧
        ∀ scheme authority, response.LeadsTo (docsTarget.address scheme authority)
          { docsTarget.address scheme authority with path := "/docs".toList }) ∧
    Uri.parse? "/docs" = some (FileServer.requestFor "/docs").uri ∧
      "/docs".toList.head? = some '/' ∧
      ∃ response, FileServer.handle ⟨"site", false⟩ FileServer.linkedSite
          (FileServer.requestFor "/docs") = pure response ∧
        response.headers.values "location" ≠ [] ∧
        ∀ scheme authority,
          response.LeadsTo ((FileServer.requestFor "/docs").uri.address scheme authority)
            { (FileServer.requestFor "/docs").uri.address scheme authority with
              path := "/docs/".toList } := by
  constructor
  · have hparse : Uri.parse? "/docs//?page=2" = some docsTarget := by decide +kernel
    have hslash : "/docs//?page=2".toList.head? = some '/' := by decide
    have hredirect := @pathRedirects_leadsTo_iff _ { uri := docsTarget } hparse hslash
    obtain ⟨response, haround, hleads⟩ := hredirect.1 "/docs".toList 2 (by decide +kernel)
      (by decide) (by decide) (by decide +kernel)
    have hliteral : IsLiteral (Redirect.beforeSlashes "/docs".toList) := by decide
    exact ⟨hparse, hslash, response, haround, fun scheme authority =>
      (hleads scheme authority).mpr hliteral⟩
  · have hparse : Uri.parse? "/docs" = some (FileServer.requestFor "/docs").uri := by decide +kernel
    have hslash : "/docs".toList.head? = some '/' := by decide
    have hsent := FileServer.handle_docs
    obtain ⟨response, hhandle, hleads⟩ | ⟨-, fault, hbroken⟩ :=
      (pathRedirects_leadsTo_iff hparse hslash).2.2 ⟨"site", false⟩ FileServer.linkedSite
    case inr =>
      rw [hbroken] at hsent
      injection hsent
    have hredirect : FileServer.redirectToDirectory (FileServer.requestFor "/docs") = response :=
      Job.done.inj (hsent.symm.trans hhandle)
    have hlocation : response.headers.values "location" ≠ [] := by
      rw [← hredirect]
      decide +kernel
    have hliteral : IsLiteral ((FileServer.requestFor "/docs").uri.path.toList ++ ['/']) := by
      decide +kernel
    exact ⟨hparse, hslash, response, hhandle, hlocation, fun scheme authority =>
      (hleads hlocation scheme authority).mpr hliteral⟩

/-- A target with two slashes at its beginning. -/
def networkTarget : Uri := ⟨none, none, "//example.com/", none⟩

/-- Two slashes at the beginning of a path are taken for those of an authority: the client is sent to
another host. -/
theorem networkTarget_leads_elsewhere :
    Uri.parse? "//example.com/" = some networkTarget ∧
    ∃ response,
      (∀ next, Redirect.removeTrailingSlash.around next { uri := networkTarget } = pure response) ∧
      response.LeadsTo (networkTarget.address "http".toList "localhost".toList)
        (read "http://example.com".toList) ∧
      ¬ response.LeadsTo (networkTarget.address "http".toList "localhost".toList)
        { networkTarget.address "http".toList "localhost".toList with
          path := "//example.com".toList } := by
  have hvalues : (Response.redirect "GET" "//example.com").headers.values "location" =
      [Utf8.encode "//example.com"] := by
    decide +kernel
  refine ⟨by decide +kernel, Response.redirect "GET" "//example.com", fun next => rfl, ?_, ?_⟩
  · rw [leadsTo_iff hvalues]
    decide +kernel
  · rw [leadsTo_iff hvalues]
    decide +kernel

end WebHost
