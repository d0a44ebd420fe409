import Mathlib.Data.List.TakeWhile
import WebHost.Proofs.Http.Authority
import WebHost.Proofs.Http.Reference

/-!
# The forms of a request target

A target is an asterisk, a path with an optional query, an authority, or an address with a scheme. The
reader lets no space and no control character pass in any part of it, and a path or a query that it has
read holds none of the marks that end it. So a path and a query that are written one behind the other
are read as they were, and so is an address that is written with the scheme `https`, as far as its
authority can be read and the whole is not too long.
-/

set_option autoImplicit false

namespace WebHost.Uri

open Reference (querySuffix takeWhile_querySuffix dropWhile_querySuffix)

/-! ## Character classes -/

/-- What may stand in a path neither breaks a line nor separates words. -/
theorem not_gap_of_isPathChar {c : Char} (h : isPathChar c = true) : ¬ IsGap c :=
  not_gap_of_class (by decide) h

/-- What may stand in a query neither breaks a line nor separates words. -/
theorem not_gap_of_isQueryChar {c : Char} (h : isQueryChar c = true) : ¬ IsGap c :=
  not_gap_of_class (by decide) h

/-- What may stand in a scheme neither breaks a line nor separates words. -/
theorem not_gap_of_isSchemeChar {c : Char} (h : isSchemeChar c = true) : ¬ IsGap c :=
  not_gap_of_class (by decide) h

/-- A path holds no mark that begins a query or a fragment. -/
theorem ne_of_isPathChar {c : Char} (h : isPathChar c = true) : c ≠ '?' ∧ c ≠ '#' := by
  constructor <;>
  · rintro rfl
    exact absurd h (by decide)

/-- A query holds no mark that begins a fragment. -/
theorem ne_of_isQueryChar {c : Char} (h : isQueryChar c = true) : c ≠ '#' := by
  rintro rfl
  exact absurd h (by decide)

/-! ## Paths and queries -/

/-- A path that begins with a slash is not empty. -/
theorem ne_empty_of_slash {path : String} (h : path.toList.head? = some '/') : path ≠ "" := by
  rintro rfl
  simp at h

/-- A path that begins with a slash is read as it is written. -/
theorem path_of_slash {u : Uri} (h : u.rawPath.toList.head? = some '/') : u.path = u.rawPath := by
  simp [Uri.path, ne_empty_of_slash h]

/-- A path and a query that may stand in a target. -/
structure IsPlace (path : String) (query : Option String) : Prop where
  path : ∀ c ∈ path.toList, isPathChar c = true
  query : ∀ q ∈ query, ∀ c ∈ q.toList, isQueryChar c = true

section Place

variable {path : String} {query : Option String}

/-- A place is written in words. -/
theorem IsPlace.isWord (h : IsPlace path query) :
    Text.IsWord path ∧ ∀ q ∈ query, Text.IsWord q :=
  ⟨fun c hc => not_gap_of_isPathChar (h.path c hc),
    fun q hq c hc => not_gap_of_isQueryChar (h.query q hq c hc)⟩

/-- A place has no sign that begins a fragment. -/
theorem IsPlace.no_fragment (h : IsPlace path query) :
    ∀ c ∈ path.toList ++ querySuffix (query.map String.toList), c ≠ '#' := by
  intro c hc
  rcases List.mem_append.mp hc with hc | hc
  · exact (ne_of_isPathChar (h.path c hc)).2
  · cases query with
    | none => simp [querySuffix] at hc
    | some q =>
      obtain rfl | hc : c = '?' ∨ c ∈ q.toList := by simpa [querySuffix] using hc
      · decide
      · exact ne_of_isQueryChar (h.query q rfl c hc)

/-- A path and a query are read from a text without its fragment. -/
theorem readPath_eq_some_iff {text : List Char} :
    readPath text = some (path, query) ↔ IsPlace path query ∧
      text.takeWhile (· ≠ '#') = path.toList ++ querySuffix (query.map String.toList) := by
  unfold readPath
  generalize text.takeWhile (· ≠ '#') = text
  constructor
  · intro h
    simp only [Bool.not_eq_true'] at h
    split_ifs at h with hpath
    have hall : ∀ c ∈ text.takeWhile (· ≠ '?'), isPathChar c = true := by simpa using hpath
    have htext : text = text.takeWhile (· ≠ '?') ++ text.dropWhile (· ≠ '?') :=
      List.takeWhile_append_dropWhile.symm
    split at h
    · rename_i hrest
      obtain ⟨rfl, rfl⟩ : String.ofList _ = path ∧ none = query := by simpa using h
      rw [hrest] at htext
      exact ⟨⟨by simpa using hall, by simp⟩, by simpa [querySuffix] using htext⟩
    · rename_i mark rest hrest
      obtain rfl : mark = '?' := by
        have hmark := List.head?_dropWhile_not (· ≠ '?') text
        rw [hrest] at hmark
        simpa using hmark
      split_ifs at h with hquery
      obtain ⟨rfl, rfl⟩ : String.ofList _ = path ∧ some (String.ofList _) = query := by
        simpa using h
      rw [hrest] at htext
      exact ⟨⟨by simpa using hall, by simpa using hquery⟩, by simpa [querySuffix] using htext⟩
  · rintro ⟨⟨hpath, hquery⟩, rfl⟩
    have hall : ∀ c ∈ path.toList, decide (c ≠ '?') = true := fun c hc =>
      decide_eq_true (ne_of_isPathChar (hpath c hc)).1
    have htake : (path.toList ++ querySuffix (query.map String.toList)).takeWhile (· ≠ '?') =
        path.toList := by
      rw [takeWhile_querySuffix (by decide), List.takeWhile_eq_self_iff.mpr hall]
    have hdrop : (path.toList ++ querySuffix (query.map String.toList)).dropWhile (· ≠ '?') =
        querySuffix (query.map String.toList) := by
      rw [dropWhile_querySuffix (by decide), List.dropWhile_eq_nil_iff.mpr hall, List.nil_append]
    have hread : path.toList.all isPathChar = true := List.all_eq_true.mpr hpath
    simp only [htake, hdrop, hread, Bool.not_true, Bool.false_eq_true, if_false]
    cases query with
    | none => simp [querySuffix]
    | some q =>
      have hread : q.toList.all isQueryChar = true := List.all_eq_true.mpr (hquery q rfl)
      simp [querySuffix, hread]

/-- A path and a query that are written one behind the other are read again. -/
theorem readPath_written (h : IsPlace path query) :
    readPath (path.toList ++ querySuffix (query.map String.toList)) = some (path, query) := by
  refine readPath_eq_some_iff.mpr ⟨h, List.takeWhile_eq_self_iff.mpr fun c hc => ?_⟩
  exact decide_eq_true (h.no_fragment c hc)

end Place

/-! ## Authorities and schemes -/

/-- A text that can be read as an authority to its end. -/
structure IsAuthorityText (text : List Char) : Prop where
  ne_nil : text ≠ []
  undivided : ∀ c ∈ text, endsAuthority c = false
  reads : isAuthority text = true

/-- The text of an authority is a word. -/
theorem IsAuthorityText.not_gap {text : List Char} (h : IsAuthorityText text) :
    ∀ c ∈ text, ¬ IsGap c := by
  obtain ⟨scan, hrun, -⟩ := isAuthority_iff.mp h.reads
  exact fun c hc => ((AuthorityScan.passes_of_run hrun).chars c hc).1

/-- A text without the marks that end an authority is read as one, if it is one. -/
theorem readAuthority_written {authority rest : List Char}
    (hundivided : ∀ c ∈ authority, endsAuthority c = false)
    (hends : ∀ c ∈ rest.head?, endsAuthority c = true) :
    readAuthority (authority ++ rest) =
      if isAuthority authority = true then some (authority, rest) else none := by
  have hall : ∀ c ∈ authority, (!endsAuthority c) = true := fun c hc => by
    rw [hundivided c hc]
    rfl
  have hrest : rest.takeWhile (!endsAuthority ·) = [] ∧ rest.dropWhile (!endsAuthority ·) = rest := by
    cases rest with
    | nil => exact ⟨rfl, rfl⟩
    | cons c rest =>
      have hc : endsAuthority c = true := hends c rfl
      simp [hc]
  have hfront : (authority ++ rest).takeWhile (!endsAuthority ·) = authority := by
    rw [List.takeWhile_append_of_pos hall, hrest.1, List.append_nil]
  have hback : (authority ++ rest).dropWhile (!endsAuthority ·) = rest := by
    rw [List.dropWhile_append_of_pos hall, hrest.2]
  simp only [readAuthority, hfront, hback]

/-- An authority that was read goes up to the first sign that ends one, and is one. -/
theorem readAuthority_eq_some {text authority rest : List Char}
    (h : readAuthority text = some (authority, rest)) :
    (∀ c ∈ authority, endsAuthority c = false) ∧ (∀ c ∈ rest.head?, endsAuthority c = true) ∧
      isAuthority authority = true ∧ (authority = [] → rest = text) := by
  unfold readAuthority at h
  simp only at h
  split_ifs at h with hread
  obtain ⟨rfl, rfl⟩ : text.takeWhile (!endsAuthority ·) = authority ∧
      text.dropWhile (!endsAuthority ·) = rest := by simpa using h
  refine ⟨fun c hc => ?_, fun c hc => ?_, hread, fun hnil => ?_⟩
  · simpa using List.mem_takeWhile_imp hc
  · have hhead := List.head?_dropWhile_not (!endsAuthority ·) text
    rw [Option.mem_def.mp hc] at hhead
    simpa using hhead
  · have hparts := List.takeWhile_append_dropWhile (p := (!endsAuthority ·)) (l := text)
    rwa [hnil, List.nil_append] at hparts

/-- A scheme that was read is a word, and nothing is taken from a text without one. -/
theorem readScheme_eq_some {text rest : List Char} {scheme : Option String}
    (h : readScheme text = some (scheme, rest)) :
    (∀ s ∈ scheme, Text.IsWord s) ∧ (scheme = none → rest = text) := by
  have hhttp : Text.IsWord "http" := by decide
  have hhttps : Text.IsWord "https" := by decide
  have hname : Text.IsWord (String.ofList (text.takeWhile isSchemeChar)) := by
    intro c hc
    rw [String.toList_ofList] at hc
    exact not_gap_of_isSchemeChar (List.mem_takeWhile_imp hc)
  unfold readScheme at h
  simp only at h
  split at h
  · split_ifs at h
    all_goals obtain ⟨rfl, rfl⟩ : _ = scheme ∧ _ = rest := by simpa using h
    · simpa using hhttp
    · simpa using hhttps
    · simp
    · simpa using hname
  · obtain ⟨rfl, rfl⟩ : none = scheme ∧ _ = rest := by simpa using h
    simp

/-! ## Forms -/

/-- The forms of a target. -/
inductive IsTarget : Uri → Prop
  | asterisk : IsTarget ⟨none, none, "*", none⟩
  | origin {path : String} {query : Option String} (hslash : path.toList.head? = some '/')
    (hplace : IsPlace path query) : IsTarget ⟨none, none, path, query⟩
  | authority {authority : String} (hauthority : IsAuthorityText authority.toList) :
    IsTarget ⟨none, some authority, "", none⟩
  | absolute {scheme authority path : String} {query : Option String}
    (hscheme : Text.IsWord scheme) (hauthority : IsAuthorityText authority.toList)
    (hstart : path = "" ∨ path.toList.head? = some '/') (hplace : IsPlace path query) :
    IsTarget ⟨some scheme, some authority, path, query⟩

/-- What ends an authority begins a path, a query or a fragment. -/
theorem start_of_readPath {rest : List Char} {path : String} {query : Option String}
    (hrest : ∀ c ∈ rest.head?, endsAuthority c = true) (h : readPath rest = some (path, query)) :
    path = "" ∨ path.toList.head? = some '/' := by
  obtain ⟨hplace, hwritten⟩ := readPath_eq_some_iff.mp h
  cases hpath : path.toList with
  | nil => exact .inl (String.toList_eq_nil_iff.mp hpath)
  | cons c tail =>
    have hc := ne_of_isPathChar (hplace.path c (by simp [hpath]))
    rw [hpath] at hwritten
    cases rest with
    | nil => simp at hwritten
    | cons d rest =>
      have hd : d ≠ '#' := by
        rintro rfl
        simp at hwritten
      obtain rfl : d = c := by
        have hhead := congrArg List.head? hwritten
        simpa [hd] using hhead
      have hends := hrest d rfl
      simp only [endsAuthority, Bool.or_eq_true, decide_eq_true_eq] at hends
      exact .inr (by simp [(hends.resolve_right hc.2).resolve_right hc.1])

/-- A path that is read behind a slash begins with it. -/
theorem slash_of_readPath {text : List Char} {path : String} {query : Option String}
    (hslash : text.head? = some '/') (h : readPath text = some (path, query)) :
    path.toList.head? = some '/' := by
  obtain ⟨-, hwritten⟩ := readPath_eq_some_iff.mp h
  obtain ⟨rest, rfl⟩ := List.head?_eq_some_iff.mp hslash
  refine (start_of_readPath ?_ h).resolve_left ?_
  · intro c hc
    obtain rfl : '/' = c := by simpa using hc
    rfl
  · rintro rfl
    cases query <;> simp [querySuffix] at hwritten

/-- What is read as a target has one of the forms. -/
theorem isTarget_of_parse {s : String} {u : Uri} (h : parse? s = some u) : u.IsTarget := by
  unfold parse? at h
  simp only at h
  split_ifs at h with hlength htext hslash
  · obtain rfl : _ = u := by simpa using h
    exact .asterisk
  · obtain ⟨⟨path, query⟩, hread, rfl⟩ := Option.map_eq_some_iff.mp h
    exact .origin (slash_of_readPath hslash hread) (readPath_eq_some_iff.mp hread).1
  · split at h
    · simp at h
    rename_i scheme rest hscheme
    split at h
    · simp at h
    rename_i authority after hauthority
    obtain ⟨hundivided, hends, hreads, hwhole⟩ := readAuthority_eq_some hauthority
    obtain ⟨hword, hwritten⟩ := readScheme_eq_some hscheme
    split at h
    · split_ifs at h with hafter
      obtain rfl : _ = u := by simpa using h
      have hne : authority ≠ [] := by
        rintro rfl
        have hnil : s.toList = [] := by
          rw [← hwritten rfl, ← hwhole rfl, List.isEmpty_iff.mp hafter]
        simp [String.toList_eq_nil_iff.mp hnil] at hlength
      exact .authority (by simpa using ⟨hne, hundivided, hreads⟩)
    · rename_i name
      split_ifs at h with hempty
      obtain ⟨⟨path, query⟩, hread, rfl⟩ := Option.map_eq_some_iff.mp h
      have hne : authority ≠ [] := by simpa using hempty
      exact .absolute (hword name rfl) (by simpa using ⟨hne, hundivided, hreads⟩)
        (start_of_readPath hends hread) (readPath_eq_some_iff.mp hread).1

/-- A target without spaces and control characters. -/
structure IsUnbroken (u : Uri) : Prop where
  scheme : ∀ s ∈ u.scheme, Text.IsWord s
  authority : ∀ a ∈ u.authority, Text.IsWord a
  rawPath : Text.IsWord u.rawPath
  query : ∀ q ∈ u.query, Text.IsWord q

/-- The path of an unbroken URI is a word. -/
theorem IsUnbroken.path {u : Uri} (h : u.IsUnbroken) : Text.IsWord u.path := by
  have hslash : Text.IsWord "/" := by decide
  have hempty : Text.IsWord "" := by decide
  unfold Uri.path
  split_ifs
  · exact h.rawPath
  · exact hslash
  · exact hempty

/-- The text of an unbroken target is a word. -/
theorem IsUnbroken.text {u : Uri} (h : u.IsUnbroken) : Text.IsWord u.text := by
  have hslashes : Text.IsWord "://" := by decide
  have hmark : Text.IsWord "?" := by decide
  have hempty : Text.IsWord "" := by decide
  have hauthority : Text.IsWord (u.authority.getD "") := by
    cases ha : u.authority with
    | none => exact hempty
    | some a => exact h.authority a ha
  unfold Uri.text
  refine ((Text.IsWord.append ?_ hauthority).append h.path).append ?_
  · split
    · rename_i s hs
      exact (h.scheme s hs).append hslashes
    · exact hempty
  · split
    · rename_i q hq
      exact hmark.append (h.query q hq)
    · exact hempty

/-- What is read as a target has neither spaces nor control characters. -/
theorem isUnbroken_of_parse {s : String} {u : Uri} (h : parse? s = some u) : u.IsUnbroken := by
  have hempty : Text.IsWord "" := by decide
  cases isTarget_of_parse h with
  | asterisk => exact ⟨by simp, by simp, by decide, by simp⟩
  | origin _ hplace => exact ⟨by simp, by simp, hplace.isWord.1, hplace.isWord.2⟩
  | @authority authority hauthority =>
    have hword : Text.IsWord authority := hauthority.not_gap
    exact ⟨by simp, by simpa using hword, hempty, by simp⟩
  | @absolute _ authority _ _ hscheme hauthority _ hplace =>
    have hword : Text.IsWord authority := hauthority.not_gap
    exact ⟨by simpa using hscheme, by simpa using hword, hplace.isWord.1, hplace.isWord.2⟩

/-- A target that begins with a slash: a path from there on, and perhaps a query. -/
structure IsOriginForm (u : Uri) : Prop where
  scheme : u.scheme = none
  authority : u.authority = none
  slash : u.path.toList.head? = some '/'
  path : ∀ c ∈ u.path.toList, isPathChar c = true
  query : ∀ q ∈ u.query, ∀ c ∈ q.toList, isQueryChar c = true

/-- A target in origin form is a place. -/
theorem IsOriginForm.isPlace {u : Uri} (h : u.IsOriginForm) : IsPlace u.path u.query :=
  ⟨h.path, h.query⟩

/-- A text with a slash at its beginning is read as a path with a query. -/
theorem parse?_of_head {s : String} (hslash : s.toList.head? = some '/') :
    parse? s = if maxLength < s.utf8ByteSize then none
      else (readPath s.toList).map fun (path, query) => ⟨none, none, path, query⟩ := by
  have hstar : s.toList ≠ ['*'] := by
    intro heq
    simp [heq] at hslash
  have hne : s.utf8ByteSize ≠ 0 := by
    intro hzero
    rw [String.utf8ByteSize_eq_zero_iff] at hzero
    simp [hzero] at hslash
  simp only [parse?, if_neg hstar, if_pos hslash, hne, decide_false, Bool.false_or,
    decide_eq_true_eq]

/-- What is read behind a slash is what was written there, and perhaps a fragment. -/
theorem readPath_of_parse {s : String} {u : Uri} (h : parse? s = some u)
    (hslash : s.toList.head? = some '/') :
    s.utf8ByteSize ≤ maxLength ∧ readPath s.toList = some (u.path, u.query) ∧
      u = ⟨none, none, u.path, u.query⟩ := by
  rw [parse?_of_head hslash] at h
  split_ifs at h with hlength
  obtain ⟨⟨path, query⟩, hread, rfl⟩ := Option.map_eq_some_iff.mp h
  have hraw : Uri.path ⟨none, none, path, query⟩ = path :=
    path_of_slash (slash_of_readPath hslash hread)
  rw [hraw]
  exact ⟨Nat.not_lt.mp hlength, hread, rfl⟩

/-- A text that begins with a slash is read as a target in origin form. -/
theorem isOriginForm_of_parse {s : String} {u : Uri} (h : parse? s = some u)
    (hslash : s.toList.head? = some '/') : u.IsOriginForm := by
  obtain ⟨-, hread, hform⟩ := readPath_of_parse h hslash
  have hplace := (readPath_eq_some_iff.mp hread).1
  exact ⟨congrArg Uri.scheme hform, congrArg Uri.authority hform, slash_of_readPath hslash hread,
    hplace.path, hplace.query⟩

/-- The path and the query of a target that begins with a slash stand at the beginning of its text. -/
theorem prefix_of_parse {s : String} {u : Uri} (h : parse? s = some u)
    (hslash : s.toList.head? = some '/') :
    u.path.toList ++ querySuffix (u.query.map String.toList) <+: s.toList := by
  obtain ⟨-, hread, -⟩ := readPath_of_parse h hslash
  rw [← (readPath_eq_some_iff.mp hread).2]
  exact List.takeWhile_prefix _

/-! ## Targets that were written -/

section Written

variable {text path : String} {query : Option String}

/-- A path from the root and a query are read as they were written. -/
theorem parse?_written (hslash : path.toList.head? = some '/') (hplace : IsPlace path query)
    (htext : text.toList = path.toList ++ querySuffix (query.map String.toList)) :
    parse? text = if maxLength < text.utf8ByteSize then none
      else some ⟨none, none, path, query⟩ := by
  have hhead : text.toList.head? = some '/' := by
    rw [htext, List.head?_append, hslash]
    rfl
  rw [parse?_of_head hhead, htext, readPath_written hplace]
  rfl

/-- The scheme of a secure URI is read in front of its authority. -/
theorem readScheme_https (rest : List Char) :
    readScheme ("https://".toList ++ rest) = some (some "https", rest) := by
  have hother : Text.sameIgnoringCase (String.ofList "https".toList) "http" = false := by decide
  have hsame : Text.sameIgnoringCase (String.ofList "https".toList) "https" = true := by decide
  have htake : ("https://".toList ++ rest).takeWhile isSchemeChar = "https".toList := rfl
  have hdrop : ("https://".toList ++ rest).dropWhile isSchemeChar = ':' :: '/' :: '/' :: rest := rfl
  simp only [readScheme, htake, hdrop, hother, hsame, if_true, Bool.false_eq_true, if_false]

/-- What may follow an authority begins with a mark that ends it. -/
theorem endsAuthority_of_start (hstart : path = "" ∨ path.toList.head? = some '/') :
    ∀ c ∈ (path.toList ++ querySuffix (query.map String.toList)).head?, endsAuthority c = true := by
  intro c hc
  rcases hstart with rfl | hslash
  · cases query with
    | none => simp [querySuffix] at hc
    | some q =>
      obtain rfl : '?' = c := by simpa [querySuffix] using hc
      rfl
  · obtain rfl : '/' = c := by simpa [List.head?_append, hslash] using hc
    rfl

/-- Behind the scheme `https` a text is read as the authority that was written there, if it is one and
the whole is not too long. -/
theorem parse?_https_written {authority : String}
    (hundivided : ∀ c ∈ authority.toList, endsAuthority c = false)
    (hstart : path = "" ∨ path.toList.head? = some '/') (hplace : IsPlace path query)
    (htext : text.toList = "https://".toList ++
      (authority.toList ++ (path.toList ++ querySuffix (query.map String.toList)))) :
    parse? text =
      if authority ≠ "" ∧ isAuthority authority.toList = true ∧ text.utf8ByteSize ≤ maxLength then
        some ⟨some "https", some authority, path, query⟩
      else none := by
  have hends : ∀ c ∈ (path.toList ++ querySuffix (query.map String.toList)).head?,
      endsAuthority c = true := endsAuthority_of_start hstart
  have hread := readAuthority_written hundivided hends
  have hstar : text.toList ≠ ['*'] := by
    intro heq
    simp [htext] at heq
  have hslash : text.toList.head? ≠ some '/' := by simp [htext]
  have hne : text.utf8ByteSize ≠ 0 := by
    intro hzero
    rw [String.utf8ByteSize_eq_zero_iff] at hzero
    simp [hzero] at htext
  by_cases hlength : maxLength < text.utf8ByteSize
  · rw [if_neg (by omega)]
    simp [parse?, hlength]
  · have hshort : text.utf8ByteSize ≤ maxLength := Nat.not_lt.mp hlength
    simp only [parse?, if_neg hstar, if_neg hslash, hne, hlength, decide_false, Bool.or_self,
      Bool.false_eq_true, if_false]
    rw [htext, readScheme_https]
    simp only [hread, hshort, and_true]
    by_cases hreads : isAuthority authority.toList = true
    · simp only [hreads, if_true, and_true, readPath_written hplace]
      by_cases hempty : authority = "" <;> simp [hempty]
    · simp [hreads]

end Written

end WebHost.Uri
