import Mathlib.Data.String.Basic
import WebHost.Proofs.Files.Answers
import WebHost.Proofs.Middleware.Redirect

/-!
# Redirects that settle

A client that is sent to another path asks for what the location says. The location of either redirect
is the path and the query of the request, changed at the end of the path, and it is read as these
again. A path without slashes at its end is handed on and one with a slash at its end is never that of
a directory that has to be asked for otherwise, so the second request is not sent on by the one who
sent the first. A location that grows beyond the longest target is not read at all.
-/

set_option autoImplicit false

namespace WebHost

open Reference

/-- A response that a client may take for a redirect, by its status or because it has a location. -/
def Response.IsRedirect (r : Response) : Prop :=
  r.status ∈ [301, 302, 303, 307, 308] ∨ r.headers.values "location" ≠ []

/-- Middleware that only hands a request on. -/
def Middleware.PassesOn (m : Middleware) (request : Request) : Prop :=
  ∀ next, m.around next request = next.run request

section Location

variable {s : String} {u : Uri} {path : List Char}

/-- A location that writes a path from the root is read as this path, with the same query. -/
theorem parse?_locationOf (hform : u.IsOriginForm) (hslash : path.head? = some '/')
    (hpath : ∀ c ∈ path, Uri.isPathChar c = true) :
    Uri.parse? (u.locationOf path) =
      if Uri.maxLength < (u.locationOf path).utf8ByteSize then none
      else some ⟨none, none, String.ofList path, u.query⟩ := by
  have hplace : Uri.IsPlace (String.ofList path) u.query := ⟨by simpa using hpath, hform.query⟩
  exact Uri.parse?_written (by simpa using hslash) hplace (by simp [Uri.locationOf])

/-- A location whose path comes out of that of a target that was read is no longer than the target. -/
theorem utf8ByteSize_locationOf_le (hparse : Uri.parse? s = some u)
    (hslash : s.toList.head? = some '/') (hpath : path.Sublist u.path.toList) :
    (u.locationOf path).utf8ByteSize ≤ Uri.maxLength := by
  have hwritten : (path ++ querySuffix (u.query.map String.toList)).Sublist s.toList :=
    (hpath.append_right _).trans (Uri.prefix_of_parse hparse hslash).sublist
  have hsize : (u.locationOf path).utf8ByteSize ≤ s.utf8ByteSize := by
    rw [← String.ofList_toList (s := s), Uri.locationOf, String.utf8ByteSize_ofList,
      String.utf8ByteSize_ofList]
    exact String.utf8Len_le_of_sublist hwritten
  exact hsize.trans (Uri.readPath_of_parse hparse hslash).1

end Location

namespace Redirect

variable {s : String} {request : Request} {front : List Char} {slashes : ℕ}

/-- A path that ends with a slash is a path that does not, with slashes behind it. -/
theorem exists_beforeSlashes {path : List Char} (h : path.getLast? = some '/') :
    ∃ front slashes, path = front ++ List.replicate slashes '/' ∧ front.getLast? ≠ some '/' ∧
      slashes ≠ 0 := by
  obtain ⟨front, slashes, hpath, hfront⟩ := Text.exists_trailing '/' path
  refine ⟨front, slashes, hpath, hfront, ?_⟩
  rintro rfl
  rw [List.replicate_zero, List.append_nil] at hpath
  exact hfront (hpath ▸ h)

/-- Without its trailing slashes a path is the root or does not end with one. -/
theorem beforeSlashes_settled (hfront : front.getLast? ≠ some '/') :
    beforeSlashes front = ['/'] ∨ (beforeSlashes front).getLast? ≠ some '/' := by
  unfold beforeSlashes
  split_ifs
  · exact .inl rfl
  · exact .inr hfront

/-- The location for a path from the root is read as a target that is handed on. -/
theorem removeTrailingSlash_settles (hparse : Uri.parse? s = some request.uri)
    (hslash : s.toList.head? = some '/')
    (hpath : request.uri.path.toList = front ++ List.replicate slashes '/')
    (hfront : front.getLast? ≠ some '/') (hslashes : slashes ≠ 0) :
    ∃ target, Uri.parse? (request.uri.locationOf (beforeSlashes front)) = some target ∧
      target.query = request.uri.query ∧
      ∀ further : Request, further.uri = target → removeTrailingSlash.PassesOn further := by
  have hform := Uri.isOriginForm_of_parse hparse hslash
  have hsub : (beforeSlashes front).Sublist request.uri.path.toList :=
    hpath ▸ beforeSlashes_sublist hslashes
  have hhead : (beforeSlashes front).head? = some '/' := head?_beforeSlashes (hpath ▸ hform.slash)
  have hread := parse?_locationOf hform hhead fun c hc => hform.path c (hsub.subset hc)
  rw [if_neg (Nat.not_lt.mpr (utf8ByteSize_locationOf_le hparse hslash hsub))] at hread
  refine ⟨_, hread, rfl, fun further hfurther => ?_⟩
  have hend : further.uri.path.toList = beforeSlashes front := by
    rw [hfurther, Uri.path_of_slash (by simpa using hhead), String.toList_ofList]
  apply removeTrailingSlash_around_eq_run
  rw [hend]
  exact beforeSlashes_settled hfront

end Redirect

namespace FileServer

variable {s : FileServer} {t : FileTree} {request : Request}

/-- The answer with a file is no redirect. -/
theorem not_isRedirect_fileResponse (path : String) (data : Bytes)
    (modified : HttpDate.Timestamp) (date : String) :
    ¬ (fileResponse request path data modified date).IsRedirect := by
  rw [Response.IsRedirect, values_location_fileResponse, status_fileResponse]
  split_ifs <;> simp

/-- No error is answered with a redirect. -/
theorem not_isRedirect_errorResponse (e : FileError) : ¬ e.response.IsRedirect := by
  rw [Response.IsRedirect, values_location_errorResponse]
  cases e <;> simp [FileError.response, Response.notFound, Response.text]

/-- The only redirect is that to a directory, and no path that ends in a slash is answered with it. -/
theorem eq_redirectToDirectory_of_isRedirect {response : Response}
    (hhandle : s.handle t request = pure response) (hredirect : response.IsRedirect) :
    request.uri.path.toList.getLast? ≠ some '/' ∧ response = redirectToDirectory request := by
  obtain ⟨answer, hanswer, hserve | ⟨e, rfl⟩⟩ | ⟨-, -, fault, hbroken⟩ := s.handle_cases t request
  · obtain rfl : answer = response := Job.done.inj (hanswer.symm.trans hhandle)
    obtain ⟨-, text, data, modified, date, -, -, rfl⟩ | ⟨-, hlast, hresponse⟩ := serve_cases hserve
    · exact absurd hredirect (not_isRedirect_fileResponse text data modified date)
    · exact ⟨hlast, hresponse⟩
  · obtain rfl : e.response = response := Job.done.inj (hanswer.symm.trans hhandle)
    exact absurd hredirect (not_isRedirect_errorResponse e)
  · rw [hbroken] at hhandle
    injection hhandle

/-- A path that ends in a slash, and does not lead to a file without a written date, is answered, and
not with a redirect. -/
theorem exists_handle_of_slash (hlast : request.uri.path.toList.getLast? = some '/')
    (hdated : s.IsDated t request.uri.path) :
    ∃ answer, s.handle t request = pure answer ∧ ¬ answer.IsRedirect := by
  obtain ⟨answer, hanswer, -⟩ | ⟨-, hundated, -⟩ := s.handle_cases t request
  · exact ⟨answer, hanswer, fun hredirect =>
      (eq_redirectToDirectory_of_isRedirect hanswer hredirect).1 hlast⟩
  · exact absurd hdated hundated

/-- The location of a redirect is read as a target with a slash at its end, unless it has become too
long. -/
theorem redirect_settles (hform : request.uri.IsOriginForm) {response : Response}
    (hhandle : s.handle t request = pure response) (hredirect : response.IsRedirect) :
    ∃ location, response.headers.values "location" = [Utf8.encode location] ∧
      (Uri.parse? location = none ↔ Uri.maxLength < location.utf8ByteSize) ∧
      ∀ target, Uri.parse? location = some target → target.query = request.uri.query ∧
        (s.IsDated t target.path → ∀ further : Request, further.uri = target →
          ∃ answer, s.handle t further = pure answer ∧ ¬ answer.IsRedirect) := by
  obtain ⟨-, rfl⟩ := eq_redirectToDirectory_of_isRedirect hhandle hredirect
  have hhead : (request.uri.path.toList ++ ['/']).head? = some '/' := by
    rw [List.head?_append, hform.slash]
    rfl
  have hread := parse?_locationOf hform hhead (isPathChar_append_slash hform)
  refine ⟨_, values_location_redirectToDirectory hform, ?_, fun target htarget => ?_⟩
  · rw [hread]
    split_ifs with hlong <;> simp [hlong]
  · rw [hread, Option.ite_none_left_eq_some] at htarget
    obtain ⟨-, rfl⟩ := htarget.imp_right Option.some.inj
    refine ⟨rfl, fun hdated further hfurther => exists_handle_of_slash ?_ (hfurther ▸ hdated)⟩
    rw [hfurther, Uri.path_of_slash (by simpa using hhead), String.toList_ofList,
      List.getLast?_append]
    rfl

end FileServer

/-- A path without slashes at its end is handed on. One with slashes is answered with a location, and
never refused; where the target begins with a slash, the location is read as a target with the same
query that is handed on. The location of a directory is read, unless it has become too long, as a target
with the same query; if no file without a written date answers for the directory, the answer to that
target, from the same tree, is no redirect. -/
theorem pathRedirects_settle {s : String} {request : Request}
    (hparse : Uri.parse? s = some request.uri) :
    (request.uri.path.toList = ['/'] ∨ request.uri.path.toList.getLast? ≠ some '/' →
      Redirect.removeTrailingSlash.PassesOn request) ∧
    (request.uri.path.toList ≠ ['/'] → request.uri.path.toList.getLast? = some '/' →
      ∃ response location, (∀ next, Redirect.removeTrailingSlash.around next request = pure response) ∧
        response.status = (if request.method = "GET" then 301 else 307) ∧
        response.headers.values "location" = [Utf8.encode location] ∧
        (s.toList.head? = some '/' → ∃ target, Uri.parse? location = some target ∧
          target.query = request.uri.query ∧
          ∀ further : Request, further.uri = target →
            Redirect.removeTrailingSlash.PassesOn further)) ∧
    (s.toList.head? = some '/' → ∀ (server : FileServer) (tree : FileTree) (response : Response),
      server.handle tree request = pure response → response.IsRedirect →
        ∃ location, response.headers.values "location" = [Utf8.encode location] ∧
          (Uri.parse? location = none ↔ Uri.maxLength < location.utf8ByteSize) ∧
          ∀ target, Uri.parse? location = some target → target.query = request.uri.query ∧
            (server.IsDated tree target.path → ∀ further : Request, further.uri = target →
              ∃ answer, server.handle tree further = pure answer ∧ ¬ answer.IsRedirect)) := by
  refine ⟨Redirect.removeTrailingSlash_around_eq_run, fun hroot hlast => ?_,
    fun hslash _ _ _ hhandle hredirect => FileServer.redirect_settles
      (Uri.isOriginForm_of_parse hparse hslash) hhandle hredirect⟩
  have hu := Uri.isUnbroken_of_parse hparse
  obtain ⟨front, slashes, hpath, hfront, hslashes⟩ := Redirect.exists_beforeSlashes hlast
  obtain ⟨response, haround, hstatus, hlocation⟩ :=
    Redirect.removeTrailingSlash_answers hu.path hu.query hpath hfront hslashes hroot
  exact ⟨response, _, haround, hstatus, hlocation, fun hslash =>
    Redirect.removeTrailingSlash_settles hparse hslash hpath hfront hslashes⟩

/-- The location of the directory of the linked site is read as its path with a slash behind it. -/
theorem path_of_docs_location {location : String} {target : Uri}
    (hlocation : (FileServer.redirectToDirectory
      (FileServer.requestFor "/docs")).headers.values "location" = [Utf8.encode location])
    (htarget : Uri.parse? location = some target) : target.path = "/docs/" := by
  have hvalues : (FileServer.redirectToDirectory
      (FileServer.requestFor "/docs")).headers.values "location" = [Utf8.encode "/docs/"] := by
    decide +kernel
  have hread : Uri.parse? "/docs/" = some ⟨none, none, "/docs/", none⟩ := by decide +kernel
  have hwritten := List.singleton_inj.mp (hlocation.symm.trans hvalues)
  rw [Utf8.encode_inj.mp hwritten, hread, Option.some_inj] at htarget
  subst htarget
  rfl

/-- The page of the directory of the linked site has a time that can be written. -/
theorem FileServer.isDated_docs : IsDated ⟨"site", false⟩ linkedSite "/docs/" := by
  have hserve : serve ⟨"site", false⟩ linkedSite (requestFor "/docs/") = .ok docsAnswer := by
    decide +kernel
  have hanswer : handle ⟨"site", false⟩ linkedSite (requestFor "/docs/") = pure docsAnswer := by
    rw [handle, hserve]
  exact isDated_of_handle (.inl rfl) hanswer

/-- Both redirects at the path of a directory: the slashes behind it are taken away, and the one that it
needs is put there. -/
theorem docs_settle :
    Uri.parse? "/docs//?page=2" = some docsTarget ∧ "/docs//?page=2".toList.head? = some '/' ∧
      Uri.parse? "/docs" = some (FileServer.requestFor "/docs").uri ∧
      "/docs".toList.head? = some '/' ∧
      (∃ response location target,
        (∀ next, Redirect.removeTrailingSlash.around next { uri := docsTarget } = pure response) ∧
        response.headers.values "location" = [Utf8.encode location] ∧
        Uri.parse? location = some target ∧ target.query = some "page=2" ∧
        Redirect.removeTrailingSlash.PassesOn { uri := target }) ∧
      ∃ response location,
        FileServer.handle ⟨"site", false⟩ FileServer.linkedSite (FileServer.requestFor "/docs") =
          pure response ∧
        response.IsRedirect ∧ response.headers.values "location" = [Utf8.encode location] ∧
        ∀ target, Uri.parse? location = some target → ∃ answer,
          FileServer.handle ⟨"site", false⟩ FileServer.linkedSite { uri := target } = pure answer ∧
            ¬ answer.IsRedirect := by
  have hlong : Uri.parse? "/docs//?page=2" = some docsTarget := by decide +kernel
  have hshort : Uri.parse? "/docs" = some (FileServer.requestFor "/docs").uri := by decide +kernel
  have hslashes : "/docs//?page=2".toList.head? = some '/' := by decide
  have hslash : "/docs".toList.head? = some '/' := by decide
  refine ⟨hlong, hslashes, hshort, hslash, ?_, ?_⟩
  · obtain ⟨response, location, haround, -, hlocation, hsettles⟩ :=
      (@pathRedirects_settle _ { uri := docsTarget } hlong).2.1 (by decide +kernel)
        (by decide +kernel)
    obtain ⟨target, hread, hquery, hfurther⟩ := hsettles hslashes
    exact ⟨response, location, target, haround, hlocation, hread, hquery, hfurther _ rfl⟩
  · have hredirect : (FileServer.redirectToDirectory (FileServer.requestFor "/docs")).IsRedirect :=
      .inl (by decide +kernel)
    obtain ⟨location, hlocation, -, hfurther⟩ := (pathRedirects_settle hshort).2.2 hslash
      ⟨"site", false⟩ FileServer.linkedSite _ FileServer.handle_docs hredirect
    refine ⟨_, location, FileServer.handle_docs, hredirect, hlocation, fun target htarget => ?_⟩
    have hpath := path_of_docs_location hlocation htarget
    exact (hfurther target htarget).2 (hpath ▸ FileServer.isDated_docs) _ rfl

/-! ## Locations that do not settle -/

namespace FileServer

/-- Where a request is sent on, the location is read as a target, and the request for it is answered
and not sent on again. -/
def SettlesAt (s : FileServer) (t : FileTree) (request : Request) : Prop :=
  ∀ response, s.handle t request = pure response → response.IsRedirect →
    ∃ location target answer, response.headers.values "location" = [Utf8.encode location] ∧
      Uri.parse? location = some target ∧ s.handle t { uri := target } = pure answer ∧
      ¬ answer.IsRedirect

/-- A request does not settle that is sent to a location for which there is no answer. -/
theorem not_settlesAt {s : FileServer} {t : FileTree} {request : Request} {response : Response}
    {location : String} (hhandle : s.handle t request = pure response)
    (hredirect : response.IsRedirect)
    (hlocation : response.headers.values "location" = [Utf8.encode location])
    (hno : ∀ target, Uri.parse? location = some target →
      ∀ answer, s.handle t { uri := target } ≠ pure answer) : ¬ s.SettlesAt t request := by
  intro hsettles
  obtain ⟨other, target, answer, hother, htarget, hanswer, -⟩ :=
    hsettles response hhandle hredirect
  have hsame := Utf8.encode_inj.mp (List.singleton_inj.mp (hother.symm.trans hlocation))
  exact hno target (hsame ▸ htarget) answer hanswer

end FileServer

/-- The target of a directory, with a query of some letters. -/
def longTarget (letters : ℕ) : Uri :=
  ⟨none, none, "/docs", some (String.ofList (List.replicate letters 'a'))⟩

/-- Every letter of the query lengthens a location by one. -/
theorem utf8ByteSize_locationOf_longTarget (letters : ℕ) (path : List Char) :
    ((longTarget letters).locationOf path).utf8ByteSize = String.utf8Len path + (letters + 1) := by
  have hletters : ∀ n, String.utf8Len (List.replicate n 'a') = n := by
    intro n
    induction n with
    | zero => rfl
    | succ n ih =>
      have hletter : Char.utf8Size 'a' = 1 := rfl
      rw [List.replicate_succ, String.utf8Len_cons, ih, hletter]
  have hmark : Char.utf8Size '?' = 1 := rfl
  simp only [Uri.locationOf, longTarget, querySuffix, Option.map_some, String.toList_ofList,
    String.utf8ByteSize_ofList, String.utf8Len_append, String.utf8Len_cons, hletters, hmark]

/-- However long, the target has the form that a request may have. -/
theorem isOriginForm_longTarget (letters : ℕ) : (longTarget letters).IsOriginForm where
  scheme := rfl
  authority := rfl
  slash := (by decide : "/docs".toList.head? = some '/')
  path := List.all_eq_true.mp (by decide : "/docs".toList.all Uri.isPathChar = true)
  query := by
    intro q hq c hc
    obtain rfl : String.ofList (List.replicate letters 'a') = q := by
      simpa only [longTarget, Option.mem_def, Option.some_inj] using hq
    rw [String.toList_ofList] at hc
    rw [List.eq_of_mem_replicate hc]
    rfl

/-- The directory of the linked site is asked for without a slash, and with a query. -/
theorem handle_longTarget (letters : ℕ) :
    FileServer.handle ⟨"site", false⟩ FileServer.linkedSite { uri := longTarget letters } =
      pure (FileServer.redirectToDirectory { uri := longTarget letters }) := by
  have hlocate : FileServer.locate ⟨"site", false⟩ FileServer.linkedSite "/docs" =
      .ok ["srv", "site", "docs"] := by
    decide +kernel
  have hserve : FileServer.serve ⟨"site", false⟩ FileServer.linkedSite
      { uri := longTarget letters } =
        .ok (FileServer.redirectToDirectory { uri := longTarget letters }) :=
    FileServer.serve_of_directory (.inl rfl) hlocate (by decide +kernel)
      (by decide : "/docs".toList.getLast? ≠ some '/')
  rw [FileServer.handle, hserve]

/-- The way to a directory may be longer than any target: where the target is as long as a target may
be, the client is sent to a place that it cannot ask for. -/
theorem longTarget_does_not_settle :
    ¬ FileServer.SettlesAt ⟨"site", false⟩ FileServer.linkedSite { uri := longTarget 65528 } := by
  have hform := isOriginForm_longTarget 65528
  have hlong := parse?_locationOf hform (by decide : "/docs/".toList.head? = some '/')
    (List.all_eq_true.mp (by decide : "/docs/".toList.all Uri.isPathChar = true))
  rw [utf8ByteSize_locationOf_longTarget, if_pos (by decide)] at hlong
  refine FileServer.not_settlesAt (handle_longTarget 65528) (.inl ?_)
    (FileServer.values_location_redirectToDirectory hform) fun target htarget => ?_
  · rw [FileServer.status_redirectToDirectory]
    simp
  · exact absurd (hlong.symm.trans htarget) (by simp)

/-- A directory whose page was last changed in the second before 1970. -/
def undatedSite : FileTree where
  nodes := [(["srv"], .directory), (["srv", "docs"], .directory),
    (["srv", "docs", "index.html"], .file [80] ⟨-1, 0⟩)]
  workingDirectory := []

/-- The way to a directory may end at a page without a written date, which is not answered with. -/
theorem undatedSite_does_not_settle :
    ¬ FileServer.SettlesAt ⟨"/srv", false⟩ undatedSite (FileServer.requestFor "/docs") := by
  have hserve : FileServer.serve ⟨"/srv", false⟩ undatedSite (FileServer.requestFor "/docs") =
      .ok (FileServer.redirectToDirectory (FileServer.requestFor "/docs")) := by
    decide +kernel
  have hpage : FileServer.serve ⟨"/srv", false⟩ undatedSite (FileServer.requestFor "/docs/") =
      .error (.brokenDown (.beforeEpoch (.ofSeconds 1))) := by
    decide +kernel
  have hread : Uri.parse? "/docs/" = some (FileServer.requestFor "/docs/").uri := by decide +kernel
  refine FileServer.not_settlesAt (by rw [FileServer.handle, hserve]) (.inl (by decide +kernel))
    (by decide +kernel : _ = [Utf8.encode "/docs/"]) fun target htarget answer hanswer => ?_
  obtain rfl := Option.some.inj (hread.symm.trans htarget)
  have hbroken : FileServer.handle ⟨"/srv", false⟩ undatedSite (FileServer.requestFor "/docs/") =
      .breakDown (HttpDate.Fault.beforeEpoch (.ofSeconds 1)).message := by
    rw [FileServer.handle, hpage]
  exact absurd (hbroken.symm.trans hanswer) (by simp [pure])

/-- Not every target settles: the location may be longer than any target, and what it leads to may be a
page that is not answered with. -/
theorem redirects_need_not_settle :
    (Uri.parse? ((longTarget 65528).locationOf "/docs".toList) = some (longTarget 65528) ∧
      ((longTarget 65528).locationOf "/docs".toList).toList.head? = some '/' ∧
      ¬ FileServer.SettlesAt ⟨"site", false⟩ FileServer.linkedSite { uri := longTarget 65528 }) ∧
    Uri.parse? "/docs" = some (FileServer.requestFor "/docs").uri ∧
      "/docs".toList.head? = some '/' ∧
      ¬ FileServer.SettlesAt ⟨"/srv", false⟩ undatedSite (FileServer.requestFor "/docs") := by
  have hshort := parse?_locationOf (isOriginForm_longTarget 65528)
    (by decide : "/docs".toList.head? = some '/')
    (List.all_eq_true.mp (by decide : "/docs".toList.all Uri.isPathChar = true))
  rw [utf8ByteSize_locationOf_longTarget, if_neg (by decide)] at hshort
  refine ⟨⟨hshort, ?_, longTarget_does_not_settle⟩, by decide +kernel, by decide,
    undatedSite_does_not_settle⟩
  rw [Uri.locationOf, String.toList_ofList, List.head?_append]
  rfl

end WebHost
