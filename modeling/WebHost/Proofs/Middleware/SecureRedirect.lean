import WebHost.Proofs.Http.Target
import WebHost.Proofs.Middleware.Redirect

/-!
# The way to the secure scheme

A request that did not come over a secure connection is sent to the same place there: to its host,
without user information and port, and to its path and query. The location is a text that is put
together from these, and it is read as they were meant only if they can be told apart in it. A path that
begins with a slash and a query can be told from the host before them; an asterisk cannot, and becomes
part of it. The host itself has to be one that can stand alone.
-/

set_option autoImplicit false

namespace WebHost

open Reference (querySuffix)

namespace Uri

/-- The target of a request that is for a whole server. -/
def asterisk : Uri := ⟨none, none, "*", none⟩

/-- The path that a target names at its host. The asterisk and a bare authority name none, so that it is
the root. -/
def placePath (u : Uri) : String := if u.path.toList.head? = some '/' then u.path else "/"

/-- A secure target at a host, with the path and the query of another one. -/
structure IsSecured (u : Uri) (host : String) (target : Uri) : Prop where
  scheme : target.scheme = some "https"
  authority : target.authority = some host
  host : target.host? = some host
  path : target.path = u.placePath
  query : target.query = u.query

/-- A host that is an authority by itself. -/
def StandsAlone (host : String) : Prop := host ≠ "" ∧ IsPaired host.toList

/-- A host that stands in an authority is as undivided as that. -/
theorem IsHostIn.subset {authority host : List Char} (h : IsHostIn authority host) :
    host ⊆ authority := by
  intro c hc
  cases h with
  | bracketed hfront hat hinside => exact List.mem_append_right _ (List.mem_append_left _ hc)
  | plain hfront hat hhead hcolon hrest =>
    exact List.mem_append_right _ (List.mem_append_left _ hc)

/-- The path that is written behind a host: the root where nothing is to be written. -/
def writtenPath (u : Uri) : String := if u.rawPath = "" ∧ u.query = none then "/" else u.rawPath

/-- Path and query are written as the path, or a slash, and the query behind a question mark. -/
theorem pathAndQuery_eq (u : Uri) : (u.pathAndQuery?.getD "/").toList =
    u.writtenPath.toList ++ querySuffix (u.query.map String.toList) := by
  by_cases hblank : u.rawPath = "" ∧ u.query = none
  · cases hscheme : u.scheme <;> simp [pathAndQuery?, writtenPath, hblank, hscheme, querySuffix]
  · cases hquery : u.query with
    | none =>
      have hraw : u.rawPath ≠ "" := fun hraw => hblank ⟨hraw, hquery⟩
      simp [pathAndQuery?, writtenPath, hquery, hraw, querySuffix]
    | some query => simp [pathAndQuery?, writtenPath, hquery, querySuffix]

/-- What a target other than the asterisk writes behind a host can be read again. -/
theorem isPlace_writtenPath {u : Uri} (h : u.IsTarget) (hne : u ≠ asterisk) :
    (u.writtenPath = "" ∨ u.writtenPath.toList.head? = some '/') ∧
      IsPlace u.writtenPath u.query := by
  have hslash : isPathChar '/' = true := by decide
  have hroot : IsPlace "/" none := ⟨by simpa using hslash, by simp⟩
  cases h with
  | asterisk => exact absurd rfl hne
  | origin hslash hplace =>
    simp only [writtenPath, ne_empty_of_slash hslash, false_and, if_false]
    exact ⟨.inr hslash, hplace⟩
  | authority hauthority =>
    simp only [writtenPath, and_self, if_true]
    exact ⟨.inr rfl, hroot⟩
  | @absolute _ _ path query hscheme hauthority hstart hplace =>
    by_cases hblank : path = "" ∧ query = none
    · simp only [writtenPath, hblank, and_self, if_true]
      exact ⟨.inr rfl, hroot⟩
    · simp only [writtenPath, if_neg hblank]
      exact ⟨hstart, hplace⟩

/-- A written path is read as the path that the target names. -/
theorem path_written {u : Uri} (h : u.IsTarget) (hne : u ≠ asterisk) (host : String) :
    path ⟨some "https", some host, u.writtenPath, u.query⟩ = u.placePath := by
  cases h with
  | asterisk => exact absurd rfl hne
  | origin hslash hplace =>
    simp [Uri.path, placePath, writtenPath, ne_empty_of_slash hslash, hslash]
  | authority hauthority => simp [Uri.path, placePath, writtenPath]
  | @absolute _ _ path query hscheme hauthority hstart hplace =>
    by_cases hraw : path = ""
    · cases query <;> simp [Uri.path, placePath, writtenPath, hraw]
    · have hslash := hstart.resolve_left hraw
      simp [Uri.path, placePath, writtenPath, hraw, hslash]

/-- The authority of a target that was read is one. -/
theorem isAuthorityText_of_parse {s : String} {u : Uri} (h : parse? s = some u) :
    ∀ authority ∈ u.authority, IsAuthorityText authority.toList := by
  intro authority hauthority
  cases isTarget_of_parse h with
  | asterisk | origin => simp at hauthority
  | authority htext | absolute _ htext =>
    obtain rfl := Option.some.inj hauthority
    exact htext

/-- The host of an authority is the one that its grammar names. -/
theorem hostOf_eq_iff {authority host : String} (h : IsAuthorityText authority.toList) :
    hostOf authority = host ↔ IsHostIn authority.toList host.toList := by
  constructor
  · rintro rfl
    exact isHostIn_hostOf h.reads
  · intro hhost
    rw [hostOf_of_isHostIn hhost, String.ofList_toList]

/-- The host field names a host exactly if it is an authority with that host. -/
theorem hostOfField?_eq_some_iff {text host : String} : hostOfField? text = some host ↔
    IsAuthorityText text.toList ∧ IsHostIn text.toList host.toList := by
  unfold hostOfField?
  simp only
  constructor
  · intro h
    split_ifs at h with hreads
    have htext : IsAuthorityText text.toList := by
      simp only [Bool.and_eq_true, Bool.not_eq_true', List.any_eq_false, Bool.not_eq_true,
        List.isEmpty_eq_false_iff] at hreads
      exact ⟨hreads.1.1, hreads.1.2, hreads.2⟩
    exact ⟨htext, (hostOf_eq_iff htext).mp (Option.some.inj h)⟩
  · rintro ⟨htext, hhost⟩
    have hreads : (!text.toList.isEmpty && !text.toList.any endsAuthority &&
        isAuthority text.toList) = true := by
      simp only [Bool.and_eq_true, Bool.not_eq_true', List.any_eq_false, Bool.not_eq_true,
        List.isEmpty_eq_false_iff]
      exact ⟨⟨htext.ne_nil, htext.undivided⟩, htext.reads⟩
    rw [if_pos hreads, (hostOf_eq_iff htext).mpr hhost]

end Uri

namespace Request

/-- The notes of a request, which are blank if it has none. -/
def notesIn (request : Request) (l : Ledger) : Notes :=
  match request.notes with
  | some handle => l.notesAt handle
  | none => {}

/-- Whether the notes of a request say that it came over a secure connection. -/
def isSecure (request : Request) (l : Ledger) : Bool := (request.notesIn l).secure

/-- What is read off the notes of a request is what they say in the ledger. -/
theorem run_readNotes {α β : Type} (request : Request) (f : Notes → α) (job : α → Job β)
    (through : Bool) (duties : List Change) (l : Ledger) :
    ((request.readNotes f).bind job).run through duties l =
      (job (f (request.notesIn l))).run through duties l := by
  unfold readNotes notesIn
  cases request.notes <;> rfl

/-- The host that a request is for: that of its target, or, where the target has no authority, that of
its host field, as far as the field can be read as one. -/
inductive IsFor (request : Request) (host : String) : Prop
  | target {authority : String} (hauthority : request.uri.authority = some authority)
    (hhost : Uri.IsHostIn authority.toList host.toList)
  | field {text : String} (hauthority : request.uri.authority = none)
    (htext : request.headers.text? "host" = some text) (hreads : Uri.IsAuthorityText text.toList)
    (hhost : Uri.IsHostIn text.toList host.toList)

end Request

namespace Redirect

variable {s host : String} {request : Request}

/-- The host that a request is redirected with is the one it is for. -/
theorem host?_eq_some_iff (hparse : Uri.parse? s = some request.uri) :
    host? request = some host ↔ request.IsFor host := by
  unfold host? Uri.host?
  cases hauthority : request.uri.authority with
  | none =>
    simp only [Option.map_none, Option.bind_eq_some_iff, Uri.hostOfField?_eq_some_iff]
    constructor
    · rintro ⟨text, htext, hreads, hhost⟩
      exact .field hauthority htext hreads hhost
    · intro h
      cases h with
      | target hsome => simp [hauthority] at hsome
      | field _ htext hreads hhost => exact ⟨_, htext, hreads, hhost⟩
  | some authority =>
    have hreads := Uri.isAuthorityText_of_parse hparse authority hauthority
    simp only [Option.map_some, Option.some_inj, Uri.hostOf_eq_iff hreads]
    constructor
    · exact .target hauthority
    · intro h
      cases h with
      | target hsome hhost =>
        obtain rfl := Option.some.inj (hauthority.symm.trans hsome)
        exact hhost
      | field hnone => simp [hauthority] at hnone

end Redirect

/-! ## The location -/

namespace Uri

/-- The secure location of a target at a host. -/
def secureText (u : Uri) (host : String) : String := "https://" ++ host ++ u.pathAndQuery?.getD "/"

section SecureText

variable {u target : Uri} {host : String} {authority : List Char}

/-- A secure location is the scheme, the host, the path and the query in a row. -/
theorem secureText_toList (u : Uri) (host : String) :
    (u.secureText host).toList = "https://".toList ++
      (host.toList ++ (u.writtenPath.toList ++ querySuffix (u.query.map String.toList))) := by
  rw [secureText, String.toList_append, String.toList_append, pathAndQuery_eq, List.append_assoc]

/-- The location has neither spaces nor control characters. -/
theorem isWord_secureText (hu : u.IsUnbroken) (hhost : Text.IsWord host) :
    Text.IsWord (u.secureText host) := by
  have hscheme : Text.IsWord "https://" := by decide
  have hroot : Text.IsWord "/" := by decide
  have hmark : Text.IsWord "?" := by decide
  have hempty : Text.IsWord "" := by decide
  refine (hscheme.append hhost).append ?_
  unfold pathAndQuery?
  split_ifs
  · exact hroot
  · exact hroot
  · refine hu.rawPath.append ?_
    split
    · rename_i q hq
      exact hmark.append (hu.query q hq)
    · exact hempty

/-- The location of a target with a path is read as that path at the host, if the host can stand alone. -/
theorem parse?_secureText (htarget : u.IsTarget) (hne : u ≠ asterisk)
    (htext : IsAuthorityText authority) (hhost : IsHostIn authority host.toList) :
    parse? (u.secureText host) = some target ↔
      (StandsAlone host ∧ (u.secureText host).utf8ByteSize ≤ maxLength) ∧
        ⟨some "https", some host, u.writtenPath, u.query⟩ = target := by
  obtain ⟨hstart, hplace⟩ := isPlace_writtenPath htarget hne
  have hundivided : ∀ c ∈ host.toList, endsAuthority c = false := fun c hc =>
    htext.undivided c (hhost.subset hc)
  rw [parse?_https_written hundivided hstart hplace (secureText_toList u host),
    Option.ite_none_right_eq_some, Option.some_inj, isAuthority_host_iff htext.reads hhost]
  simp only [StandsAlone, and_assoc]

/-- Behind a host the asterisk is read as a part of it. -/
theorem authority_of_secureText_asterisk (htext : IsAuthorityText authority)
    (hhost : IsHostIn authority host.toList)
    (h : parse? (asterisk.secureText host) = some target) : target.authority = some (host ++ "*") := by
  have hplace : IsPlace "" none := ⟨by simp, by simp⟩
  have hundivided : ∀ c ∈ (host ++ "*").toList, endsAuthority c = false := by
    intro c hc
    rw [String.toList_append, List.mem_append] at hc
    rcases hc with hc | hc
    · exact htext.undivided c (hhost.subset hc)
    · obtain rfl : c = '*' := by simpa using hc
      rfl
  have hwritten : (asterisk.secureText host).toList = "https://".toList ++
      ((host ++ "*").toList ++ ("".toList ++ querySuffix (none.map String.toList))) := by
    rw [secureText_toList, String.toList_append, List.append_assoc]
    rfl
  rw [parse?_https_written hundivided (.inl rfl) hplace hwritten] at h
  split_ifs at h
  rw [← Option.some.inj h]

/-- The location of a target is read as a secure target with the same path and query exactly if the
target is not the asterisk, the host can stand alone and the location is not too long. -/
theorem isSecured_secureText_iff (htarget : u.IsTarget) (htext : IsAuthorityText authority)
    (hhost : IsHostIn authority host.toList) :
    (∃ target, parse? (u.secureText host) = some target ∧ u.IsSecured host target) ↔
      u ≠ asterisk ∧ StandsAlone host ∧ (u.secureText host).utf8ByteSize ≤ maxLength := by
  by_cases hne : u = asterisk
  · subst hne
    refine iff_of_false ?_ (fun h => h.1 rfl)
    rintro ⟨target, hread, hsecured⟩
    have hauthority := authority_of_secureText_asterisk htext hhost hread
    rw [hsecured.authority, Option.some_inj] at hauthority
    have hlength := congrArg String.length hauthority
    simp at hlength
  · have hown : hostOf host = host := by
      rw [hostOf_of_isHostIn (isHostIn_self hhost), String.ofList_toList]
    simp only [parse?_secureText htarget hne htext hhost]
    constructor
    · rintro ⟨target, ⟨halone, -⟩, -⟩
      exact ⟨hne, halone⟩
    · rintro ⟨-, halone⟩
      exact ⟨_, ⟨halone, rfl⟩, rfl, rfl, congrArg some hown, path_written htarget hne host, rfl⟩

end SecureText

end Uri

namespace Redirect

variable {s host : String} {request : Request}

/-- The host that a request is for stands in some authority. -/
theorem exists_authority_of_isFor (hparse : Uri.parse? s = some request.uri)
    (h : request.IsFor host) : ∃ authority, Uri.IsAuthorityText authority ∧
      Uri.IsHostIn authority host.toList := by
  cases h with
  | target hauthority hhost => exact ⟨_, Uri.isAuthorityText_of_parse hparse _ hauthority, hhost⟩
  | field _ _ hreads hhost => exact ⟨_, hreads, hhost⟩

section Run

variable {next : Next} {through : Bool} {duties : List Change} {l : Ledger}

/-- What the notes say is read first, and decides what becomes of a request with a secure location. -/
theorem run_toHttps : (toHttps.around next request).run through duties l =
    Job.run through (match secureLocation? request with
      | some location =>
        if request.isSecure l then next.run request
        else .done (Response.redirect request.method location)
      | none => next.run request) duties l :=
  request.run_readNotes (·.secure) (fun secure => match secureLocation? request with
    | some location =>
      if secure then next.run request else .done (Response.redirect request.method location)
    | none => next.run request) through duties l

/-- A request that is not secure and has a secure location is redirected there. -/
theorem run_toHttps_of_location {location : String} (hsecure : request.isSecure l = false)
    (hlocation : secureLocation? request = some location) :
    (toHttps.around next request).run through duties l =
      (.ended (Response.redirect request.method location), l) := by
  rw [run_toHttps, hlocation, hsecure]
  rfl

/-- A request that is secure or has no secure location is handed on. -/
theorem run_toHttps_of_passes
    (h : request.isSecure l = true ∨ secureLocation? request = none) :
    (toHttps.around next request).run through duties l = (next.run request).run through duties l := by
  rw [run_toHttps]
  rcases h with hsecure | hnone
  · rw [hsecure]
    cases secureLocation? request <;> rfl
  · rw [hnone]

end Run

/-- A request of another scheme for a host has its secure text as its location. -/
theorem secureLocation?_of_isFor (hparse : Uri.parse? s = some request.uri)
    (hscheme : request.uri.scheme ≠ some "https") (h : request.IsFor host) :
    secureLocation? request = some (request.uri.secureText host) := by
  rw [secureLocation?, if_neg hscheme, (host?_eq_some_iff hparse).mpr h]
  rfl

/-- A request of the secure scheme, or for no host, has no secure location. -/
theorem secureLocation?_eq_none (hparse : Uri.parse? s = some request.uri)
    (h : request.uri.scheme = some "https" ∨ ∀ host, ¬ request.IsFor host) :
    secureLocation? request = none := by
  rw [secureLocation?]
  split_ifs with hscheme
  · rfl
  · have hnone : host? request = none := Option.eq_none_iff_forall_ne_some.mpr fun host hhost =>
      h.resolve_left hscheme host ((host?_eq_some_iff hparse).mp hhost)
    rw [hnone, Option.map_none]

end Redirect

/-- A request that did not come over a secure connection and is for a host, but not for the secure
scheme, is answered with a location. It is read as a secure target at the host, with the path and the
query of the request, exactly if the request is not for the asterisk, the host can stand alone and the
location is not too long. Every other request is handed on. -/
theorem toHttps_leads_to_secured_iff {s : String} {request : Request}
    (hparse : Uri.parse? s = some request.uri) (next : Next) (through : Bool) (duties : List Change)
    (l : Ledger) :
    (∀ host, request.isSecure l = false → request.uri.scheme ≠ some "https" → request.IsFor host →
      ∃ response location,
        (Redirect.toHttps.around next request).run through duties l = (.ended response, l) ∧
        response.status = (if request.method = "GET" then 301 else 307) ∧
        response.headers.values "location" = [Utf8.encode location] ∧
        ((∃ target, Uri.parse? location = some target ∧ request.uri.IsSecured host target) ↔
          request.uri ≠ Uri.asterisk ∧ Uri.StandsAlone host ∧
            location.utf8ByteSize ≤ Uri.maxLength)) ∧
    (request.isSecure l = true ∨ request.uri.scheme = some "https" ∨ (∀ host, ¬ request.IsFor host) →
      (Redirect.toHttps.around next request).run through duties l =
        (next.run request).run through duties l) := by
  constructor
  · intro host hsecure hscheme hfor
    obtain ⟨authority, htext, hhost⟩ := Redirect.exists_authority_of_isFor hparse hfor
    have hword : Text.IsWord host := fun c hc => htext.not_gap c (hhost.subset hc)
    have hvalue : isHeaderValue (Utf8.encode (request.uri.secureText host)) = true :=
      isHeaderValue_of_no_control fun c hc => not_control_of_not_gap
        (Uri.isWord_secureText (Uri.isUnbroken_of_parse hparse) hword c hc)
    refine ⟨Response.redirect request.method (request.uri.secureText host),
      request.uri.secureText host, ?_, Response.status_redirect hvalue,
      Response.values_location_redirect hvalue, ?_⟩
    · exact Redirect.run_toHttps_of_location hsecure
        (Redirect.secureLocation?_of_isFor hparse hscheme hfor)
    · exact Uri.isSecured_secureText_iff (Uri.isTarget_of_parse hparse) htext hhost
  · rintro (hsecure | hother)
    · exact Redirect.run_toHttps_of_passes (.inl hsecure)
    · exact Redirect.run_toHttps_of_passes (.inr (Redirect.secureLocation?_eq_none hparse hother))

/-- A request for a page on a server that listens on a port of its own. -/
def pageRequest : Request where
  uri := ⟨none, none, "/a", some "b=c"⟩
  headers := Headers.empty.setText "host" "example.com:8080"

/-- A page with a query is led to the same page under the secure scheme. -/
theorem page_leads_to_secured :
    Uri.parse? "/a?b=c" = some pageRequest.uri ∧ pageRequest.isSecure {} = false ∧
      pageRequest.uri.scheme ≠ some "https" ∧ pageRequest.IsFor "example.com" ∧
      ∃ response location,
        (Redirect.toHttps.around ⟨none, Handler.noContent⟩ pageRequest).run false [] {} =
          (.ended response, {}) ∧
        response.status = 301 ∧ response.headers.values "location" = [Utf8.encode location] ∧
        ∃ target, Uri.parse? location = some target ∧
          pageRequest.uri.IsSecured "example.com" target := by
  have hparse : Uri.parse? "/a?b=c" = some pageRequest.uri := by decide +kernel
  have hhost : Redirect.host? pageRequest = some "example.com" := by decide +kernel
  have hfor := (Redirect.host?_eq_some_iff hparse).mp hhost
  have hscheme : pageRequest.uri.scheme ≠ some "https" := by decide
  obtain ⟨response, location, hrun, hstatus, hlocation, hsecured⟩ :=
    (toHttps_leads_to_secured_iff hparse ⟨none, Handler.noContent⟩ false [] {}).1 "example.com" rfl
      hscheme hfor
  have hresponse : Response.redirect "GET" "https://example.com/a?b=c" = response := by
    have hlocation : Redirect.secureLocation? pageRequest = some "https://example.com/a?b=c" := by
      decide +kernel
    rw [Redirect.run_toHttps_of_location rfl hlocation] at hrun
    exact Progress.ended.inj (congrArg Prod.fst hrun)
  have htext : location = "https://example.com/a?b=c" := by
    have hvalues : (Response.redirect "GET" "https://example.com/a?b=c").headers.values "location" =
        [Utf8.encode "https://example.com/a?b=c"] := by
      decide +kernel
    rw [hresponse, hlocation, List.cons.injEq] at hvalues
    exact Utf8.encode_inj.mp hvalues.1
  have hshort : location.utf8ByteSize ≤ Uri.maxLength := by
    rw [htext]
    decide
  have hother : pageRequest.uri ≠ Uri.asterisk := by decide
  exact ⟨hparse, rfl, hscheme, hfor, response, location, hrun, hstatus, hlocation,
    hsecured.mpr ⟨hother, ⟨by decide, by decide⟩, hshort⟩⟩

/-- A request for what a server as a whole can do. -/
def optionsRequest : Request where
  method := "OPTIONS"
  uri := Uri.asterisk
  headers := Headers.empty.setText "host" "example.com"

/-- The location of the asterisk names another host. -/
theorem asterisk_leads_to_other_host :
    Uri.parse? "*" = some optionsRequest.uri ∧ (∀ l, optionsRequest.isSecure l = false) ∧
      optionsRequest.uri.scheme ≠ some "https" ∧ optionsRequest.IsFor "example.com" ∧
      (∀ next through duties l,
        (Redirect.toHttps.around next optionsRequest).run through duties l =
          (.ended (Response.redirect "OPTIONS" "https://example.com*"), l)) ∧
      (Response.redirect "OPTIONS" "https://example.com*").headers.values "location" =
        [Utf8.encode "https://example.com*"] ∧
      ∃ target, Uri.parse? "https://example.com*" = some target ∧
        target.host? = some "example.com*" ∧
        ¬ optionsRequest.uri.IsSecured "example.com" target := by
  have hparse : Uri.parse? "*" = some optionsRequest.uri := by decide +kernel
  have hhost : Redirect.host? optionsRequest = some "example.com" := by decide +kernel
  have hlocation : Redirect.secureLocation? optionsRequest = some "https://example.com*" := by
    decide +kernel
  refine ⟨hparse, fun l => rfl, by decide, (Redirect.host?_eq_some_iff hparse).mp hhost,
    fun next through duties l => Redirect.run_toHttps_of_location rfl hlocation, by decide +kernel,
    ⟨some "https", some "example.com*", "", none⟩, by decide +kernel, by decide +kernel, ?_⟩
  intro hsecured
  exact absurd hsecured.authority (by decide)

end WebHost
