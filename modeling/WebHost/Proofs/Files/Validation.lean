import WebHost.Proofs.Files.Answers

/-!
# Files that have not changed

Every answer with a file carries the second in which the file was last changed, and a request that
presents a date gets the file only if it was changed in a later second. The fraction of a second is
dropped both where the date is written and where it is compared. A date that was sent is read again as
the second it was written for, so presenting it gets the answer that nothing has changed until the file
is changed in a later second.
-/

set_option autoImplicit false

namespace WebHost

namespace FileServer

open HttpDate (IsWritable Timestamp textOfSeconds)

variable {s : FileServer} {t : FileTree} {request : Request} {requestPath text : String}
  {data : Bytes} {modified : Timestamp}

/-- The date of a file as answers carry it. -/
def validator (modified : Timestamp) : Bytes :=
  Utf8.encode (HttpDate.textOfSeconds modified.seconds)

/-- The date that a request presents, where its header holds one. -/
def presented? (request : Request) : Option Int :=
  (request.headers.text? "if-modified-since").bind HttpDate.parse?

/-- The answer that a file has not changed. -/
def unchanged (modified : Timestamp) : Response :=
  { status := 304, headers := Headers.empty.set "last-modified" (validator modified), body := [] }

/-- A date that was handed out is read as the second that it was written for. -/
theorem presented?_validator (h : IsWritable modified.seconds)
    (hget : request.headers.get? "if-modified-since" = some (validator modified)) :
    presented? request = some modified.seconds := by
  have htext : request.headers.text? "if-modified-since" =
      some (HttpDate.textOfSeconds modified.seconds) := by
    rw [Headers.text?, hget, Option.bind_some, validator]
    exact headerText?_of_visible (HttpDate.areVisible_textOfSeconds h)
  rw [presented?, htext, Option.bind_some, HttpDate.parse?_textOfSeconds h]

/-- A file counts as unchanged exactly if a date is presented that is no earlier than its own. -/
theorem notModified_iff (h : IsWritable modified.seconds) :
    notModified request.headers modified = true ↔
      ∃ since, presented? request = some since ∧ modified.seconds ≤ since := by
  unfold notModified presented?
  have hsince : 0 ≤ modified.seconds := h.1
  cases (request.headers.text? "if-modified-since").bind HttpDate.parse? with
  | none => simp
  | some since => simp [hsince]

/-! ## Answers with a file -/

/-- The answer that a file has not changed is the same for all files of one date. -/
theorem fileResponse_of_notModified (hn : notModified request.headers modified = true) :
    fileResponse request text data modified (textOfSeconds modified.seconds) =
      unchanged modified := by
  rw [fileResponse, if_pos hn]
  rfl

/-- Every answer with a file carries the date of the file. -/
theorem values_lastModified_fileResponse :
    (fileResponse request text data modified (textOfSeconds modified.seconds)).headers.values
      "last-modified" = [validator modified] := by
  by_cases hn : notModified request.headers modified = true
  · rw [fileResponse_of_notModified hn]
    rfl
  · simp [fileResponse, hn, Headers.setText, validator]

/-- A date that is presented is compared with that of the file. -/
theorem status_fileResponse_of_presented {since : Int} {date : String}
    (h : IsWritable modified.seconds) (hsince : presented? request = some since) :
    (fileResponse request text data modified date).status =
      if modified.seconds ≤ since then 304 else 200 := by
  have hn : notModified request.headers modified = true ↔ modified.seconds ≤ since := by
    rw [notModified_iff h, hsince]
    simp
  rw [status_fileResponse]
  exact if_congr hn rfl rfl

/-- Without a date the file is sent. -/
theorem status_fileResponse_of_no_date {date : String} (h : IsWritable modified.seconds)
    (hnone : presented? request = none) :
    (fileResponse request text data modified date).status = 200 := by
  have hn : ¬ notModified request.headers modified = true := by
    rw [notModified_iff h, hnone]
    simp
  rw [status_fileResponse, if_neg hn]

/-- What the answers to requests for a path say of the file there, last changed at a time, and how they
take up the date that a request presents. -/
structure IsRevalidated (s : FileServer) (t : FileTree) (requestPath : String)
    (modified : Timestamp) : Prop where
  sent : ∀ request, IsRetrieval request → request.uri.path = requestPath →
    ∃ response, s.handle t request = pure response ∧
      response.headers.values "last-modified" = [validator modified]
  returned : ∀ request, IsRetrieval request → request.uri.path = requestPath →
    request.headers.get? "if-modified-since" = some (validator modified) →
    s.handle t request = pure (unchanged modified)
  compared : ∀ request since, IsRetrieval request → request.uri.path = requestPath →
    presented? request = some since → ∃ response, s.handle t request = pure response ∧
      response.status = if modified.seconds ≤ since then 304 else 200
  undated : ∀ request, IsRetrieval request → request.uri.path = requestPath →
    presented? request = none → ∃ response, s.handle t request = pure response ∧
      response.status = 200
  renewed : ∀ later text data modified', s.Offers later requestPath text data modified' →
    IsWritable modified'.seconds → modified.seconds < modified'.seconds →
    ∀ request, IsRetrieval request → request.uri.path = requestPath →
    request.headers.get? "if-modified-since" = some (validator modified) →
    ∃ response, s.handle later request = pure response ∧ response.status = 200 ∧
      response.headers.values "last-modified" = [validator modified']

/-- Requests for a file that was last changed in the years 1970 to 9999 are answered by its date. -/
theorem Offers.isRevalidated (h : s.Offers t requestPath text data modified)
    (hwritable : IsWritable modified.seconds) : s.IsRevalidated t requestPath modified where
  sent := by
    intro request hm hpath
    exact ⟨_, h.handle hwritable hm hpath, values_lastModified_fileResponse⟩
  returned := by
    intro request hm hpath hget
    have hn : notModified request.headers modified = true :=
      (notModified_iff hwritable).mpr ⟨_, presented?_validator hwritable hget, Int.le_refl _⟩
    rw [h.handle hwritable hm hpath, fileResponse_of_notModified hn]
  compared := by
    intro request since hm hpath hsince
    exact ⟨_, h.handle hwritable hm hpath, status_fileResponse_of_presented hwritable hsince⟩
  undated := by
    intro request hm hpath hnone
    exact ⟨_, h.handle hwritable hm hpath, status_fileResponse_of_no_date hwritable hnone⟩
  renewed := by
    intro later text' data' modified' hlater hwritable' hchanged request hm hpath hget
    refine ⟨_, hlater.handle hwritable' hm hpath, ?_, values_lastModified_fileResponse⟩
    rw [status_fileResponse_of_presented hwritable' (presented?_validator hwritable hget)]
    exact if_neg (Int.not_le.mpr hchanged)

/-- The page was last changed on 6 November 1994, a quarter of a second after a second, and then again
a second later. -/
theorem isRevalidated_datedSite :
    Offers ⟨"/srv", false⟩ (datedSite ⟨784111777, 250000000⟩) "/page.html" "/srv/page.html" [80]
      ⟨784111777, 250000000⟩ ∧
    IsWritable 784111777 ∧
    IsRevalidated ⟨"/srv", false⟩ (datedSite ⟨784111777, 250000000⟩) "/page.html"
      ⟨784111777, 250000000⟩ ∧
    Offers ⟨"/srv", false⟩ (datedSite ⟨784111778, 250000000⟩) "/page.html" "/srv/page.html" [80]
      ⟨784111778, 250000000⟩ := by
  have hoffers : ∀ seconds ∈ [784111777, 784111778],
      Offers ⟨"/srv", false⟩ (datedSite ⟨seconds, 250000000⟩) "/page.html" "/srv/page.html" [80]
        ⟨seconds, 250000000⟩ := by
    have hlocate : ∀ seconds ∈ [784111777, 784111778],
        locate ⟨"/srv", false⟩ (datedSite ⟨seconds, 250000000⟩) "/page.html" =
          .ok ["srv", "page.html"] := by
      decide +kernel
    intro seconds hseconds
    exact .file (hlocate seconds hseconds) rfl
  have hbefore := hoffers 784111777 (by simp)
  have hwritable : IsWritable 784111777 := by
    constructor <;> decide
  exact ⟨hbefore, hwritable, hbefore.isRevalidated hwritable, hoffers 784111778 (by simp)⟩

end FileServer

end WebHost
