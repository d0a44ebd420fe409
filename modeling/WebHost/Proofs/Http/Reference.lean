import Mathlib.Data.List.TakeWhile
import WebHost.Proofs.Text.Parts

/-!
# Where a reference leads

A client that is sent elsewhere reads the place it is given as a reference and resolves it against
the address that it asked for. A reference is cut into scheme, authority, path, query and fragment;
what it leaves out at its beginning is taken from the base, and dot segments are removed from its
path. Two slashes at its beginning announce an authority, whatever the author of the text meant.
-/

set_option autoImplicit false

namespace WebHost

open Text

/-- The parts of an address, or of a reference to one. A part that is missing is not an empty one. -/
structure Reference where
  scheme : Option (List Char) := none
  authority : Option (List Char) := none
  path : List Char := []
  query : Option (List Char) := none
  fragment : Option (List Char) := none
  deriving DecidableEq, Repr

namespace Reference

/-! ## Reading a reference -/

/-- Takes the scheme off a text: what stands before the first colon, if no other mark comes first. -/
def takeScheme (text : List Char) : Option (List Char) × List Char :=
  let isOrdinary := fun c => !(c = ':' || c = '/' || c = '?' || c = '#')
  match text.dropWhile isOrdinary with
  | ':' :: rest =>
    if text.head? = some ':' then (none, text) else (some (text.takeWhile isOrdinary), rest)
  | _ => (none, text)

/-- Takes the authority off a text, which two slashes announce. -/
def takeAuthority (text : List Char) : Option (List Char) × List Char :=
  let isOrdinary := fun c => !(c = '/' || c = '?' || c = '#')
  match text with
  | '/' :: '/' :: rest => (some (rest.takeWhile isOrdinary), rest.dropWhile isOrdinary)
  | _ => (none, text)

/-- Takes the query off what follows a path. -/
def takeQuery (text : List Char) : Option (List Char) × List Char :=
  match text with
  | '?' :: rest => (some (rest.takeWhile (· ≠ '#')), rest.dropWhile (· ≠ '#'))
  | _ => (none, text)

/-- Reads a reference; every text is one. -/
def read (text : List Char) : Reference :=
  let isPath := fun c => !(c = '?' || c = '#')
  let (scheme, text) := takeScheme text
  let (authority, text) := takeAuthority text
  let path := text.takeWhile isPath
  let (query, text) := takeQuery (text.dropWhile isPath)
  let fragment := match text with
    | '#' :: rest => some rest
    | _ => none
  { scheme, authority, path, query, fragment }

/-! ## Resolving a reference -/

/-- A segment of a path that stands for a place relative to the one before it. -/
def IsDot (segment : List Char) : Prop := segment = ['.'] ∨ segment = ['.', '.']

instance (segment : List Char) : Decidable (IsDot segment) := inferInstanceAs (Decidable (_ ∨ _))

/-- What is left of the pieces before a dot: two dots take the last one away. -/
def back (dot : List Char) (kept : List (List Char)) : List (List Char) :=
  if dot = ['.'] then kept else kept.tail

/-- Goes through the segments of a path and keeps what is left of it, the last piece first. A dot at
the end of the path leaves a slash there. `rooted` tells whether a slash stands before the next
segment. -/
def walk : Bool → List (List Char) → List (List Char) → List (List Char)
  | _, kept, [] => kept
  | rooted, kept, segment :: rest =>
    if IsDot segment then
      let kept := back segment kept
      if rest = [] then (if rooted then ['/'] :: kept else kept) else walk rooted kept rest
    else walk true ((if rooted then '/' :: segment else segment) :: kept) rest

/-- A path without its dot segments. -/
def removeDots (path : List Char) : List Char := (walk false [] (split '/' path)).reverse.flatten

/-- A relative path in the place of the last segment of the base. -/
def merge (base : Reference) (path : List Char) : List Char :=
  if base.authority.isSome ∧ base.path = [] then '/' :: path
  else
    match cutLast '/' base.path with
    | some (front, _) => front ++ '/' :: path
    | none => path

/-- The address that a reference leads to from a base. -/
def resolve (base r : Reference) : Reference :=
  if r.scheme.isSome then { r with path := removeDots r.path }
  else if r.authority.isSome then { r with scheme := base.scheme, path := removeDots r.path }
  else
    { scheme := base.scheme
      authority := base.authority
      path :=
        if r.path = [] then base.path
        else if r.path.head? = some '/' then removeDots r.path
        else removeDots (merge base r.path)
      query := if r.path = [] then r.query.or base.query else r.query
      fragment := r.fragment }

/-- Ways to write a place, and where they lead. -/
example :
    let base := read "http://a/b/c/d;p?q".toList
    let leadsTo (text target : String) : Bool := resolve base (read text.toList) = read target.toList
    [("g:h", "g:h"), ("g", "http://a/b/c/g"), ("./g/", "http://a/b/c/g/"), ("/g", "http://a/g"),
      ("//g", "http://g"), ("?y", "http://a/b/c/d;p?y"), ("g;x?y#s", "http://a/b/c/g;x?y#s"),
      ("", "http://a/b/c/d;p?q"), (".", "http://a/b/c/"), ("../..", "http://a/"),
      ("../../../g", "http://a/g"), ("/./g", "http://a/g"), ("g/./h/../i", "http://a/b/c/g/i"),
      (".g..", "http://a/b/c/.g.."), ("./g/.", "http://a/b/c/g/")].all fun (text, target) =>
        leadsTo text target := by
  decide +kernel

/-! ## Removing dot segments -/

/-- Segments that are no dots are all kept, each with the slash before it. -/
theorem walk_of_no_dot {segments : List (List Char)} (h : ∀ s ∈ segments, ¬ IsDot s)
    (kept : List (List Char)) :
    walk true kept segments = (segments.map ('/' :: ·)).reverse ++ kept := by
  induction segments generalizing kept with
  | nil => rfl
  | cons segment rest ih =>
    obtain ⟨hsegment, hrest⟩ := List.forall_mem_cons.mp h
    simp [walk, hsegment, ih hrest]

/-- A path from the root with its dot segments, after the first slash. -/
theorem removeDots_cons (rest : List Char) :
    removeDots ('/' :: rest) = (walk true [[]] (split '/' rest)).reverse.flatten := by
  have hempty : ¬ IsDot [] := by decide
  simp [removeDots, split, walk, hempty]

/-- Pieces that each begin with a slash are the segments joined by slashes, behind a slash. -/
theorem flatten_map_cons {segments : List (List Char)} (h : segments ≠ []) :
    (segments.map ('/' :: ·)).flatten = '/' :: ['/'].intercalate segments := by
  induction segments with
  | nil => exact absurd rfl h
  | cons segment rest ih =>
    cases rest with
    | nil => simp [List.intercalate]
    | cons second rest => simpa [List.intercalate_cons_cons] using ih (by simp)

/-- A piece that is kept of a path: nothing, or a slash and a segment that is no dot. -/
def IsKept (piece : List Char) : Prop :=
  piece = [] ∨ ∃ segment, piece = '/' :: segment ∧ '/' ∉ segment ∧ ¬ IsDot segment

/-- Going back over a dot segment adds no piece. -/
theorem mem_of_mem_back {dot piece : List Char} {kept : List (List Char)}
    (h : piece ∈ back dot kept) : piece ∈ kept := by
  unfold back at h
  split_ifs at h
  · exact h
  · exact List.mem_of_mem_tail h

/-- A walk over segments without slashes keeps pieces that may be kept. -/
theorem isKept_of_mem_walk {segments kept : List (List Char)} (h : ∀ s ∈ segments, '/' ∉ s)
    (hkept : ∀ piece ∈ kept, IsKept piece) : ∀ piece ∈ walk true kept segments, IsKept piece := by
  have hslash : IsKept ['/'] := .inr ⟨[], rfl, by simp, by decide⟩
  induction segments generalizing kept with
  | nil => simpa [walk] using hkept
  | cons segment rest ih =>
    obtain ⟨hsegment, hrest⟩ := List.forall_mem_cons.mp h
    by_cases hdot : IsDot segment
    · have hback : ∀ piece ∈ back segment kept, IsKept piece := fun piece hpiece =>
        hkept piece (mem_of_mem_back hpiece)
      simp only [walk, if_pos hdot, if_true]
      split_ifs
      · exact List.forall_mem_cons.mpr ⟨hslash, hback⟩
      · exact ih hrest hback
    · simp only [walk, if_neg hdot, if_true]
      exact ih hrest (List.forall_mem_cons.mpr ⟨.inr ⟨segment, rfl, hsegment, hdot⟩, hkept⟩)

/-- Kept pieces put together have no dot segments. -/
theorem not_isDot_of_kept {pieces : List (List Char)} (h : ∀ piece ∈ pieces, IsKept piece)
    {first : List Char} (hfirst : '/' ∉ first) (hdot : ¬ IsDot first) :
    ∀ s ∈ split '/' (first ++ pieces.flatten), ¬ IsDot s := by
  induction pieces generalizing first with
  | nil => simpa [split_eq_singleton hfirst] using hdot
  | cons piece rest ih =>
    obtain ⟨hpiece, hrest⟩ := List.forall_mem_cons.mp h
    obtain rfl | ⟨segment, rfl, hsegment, hno⟩ := hpiece
    · exact ih hrest hfirst hdot
    · rw [List.flatten_cons, List.cons_append, split_append_sep, split_eq_singleton hfirst]
      exact List.forall_mem_cons.mpr ⟨hdot, ih hrest hsegment hno⟩

/-- A path from the root stays as it is exactly when no segment of it is a dot. -/
theorem removeDots_eq_self_iff {path : List Char} (h : path.head? = some '/') :
    removeDots path = path ↔ ∀ s ∈ split '/' path, ¬ IsDot s := by
  obtain ⟨rest, rfl⟩ := List.head?_eq_some_iff.mp h
  have hempty : ¬ IsDot [] := by decide
  constructor
  · intro heq
    have hkept : ∀ piece ∈ (walk true [[]] (split '/' rest)).reverse, IsKept piece := by
      intro piece hpiece
      exact isKept_of_mem_walk (fun _ => not_mem_of_mem_split) (by simp [IsKept]) piece
        (List.mem_reverse.mp hpiece)
    rw [← heq, removeDots_cons]
    exact not_isDot_of_kept hkept List.not_mem_nil hempty
  · intro hno
    have hrest : ∀ s ∈ split '/' rest, ¬ IsDot s := by
      intro s hs
      exact hno s (by simp [split, hs])
    rw [removeDots_cons, walk_of_no_dot hrest, List.reverse_append, List.reverse_reverse,
      List.flatten_append, flatten_map_cons (split_ne_nil '/' rest), intercalate_split]
    rfl

/-- Going back over a dot segment makes a path no longer. -/
theorem length_back_le (dot : List Char) (kept : List (List Char)) :
    (back dot kept).flatten.length ≤ kept.flatten.length := by
  unfold back
  split_ifs
  · rfl
  · cases kept <;> simp

/-- Removing dot segments adds at most one sign to each segment. -/
theorem length_walk_le (rooted : Bool) (kept segments : List (List Char)) :
    (walk rooted kept segments).flatten.length ≤
      kept.flatten.length + segments.flatten.length + segments.length := by
  induction segments generalizing rooted kept with
  | nil => simp [walk]
  | cons segment rest ih =>
    have hback := length_back_le segment kept
    rw [List.flatten_cons, List.length_append, List.length_cons]
    by_cases hdot : IsDot segment
    · by_cases hlast : rest = []
      · have hslash (pieces : List (List Char)) :
            (if rooted then ['/'] :: pieces else pieces).flatten.length ≤
              1 + pieces.flatten.length := by
          split_ifs <;> simp [Nat.add_comm]
        have hpieces := hslash (back segment kept)
        simp only [walk, if_pos hdot, if_pos hlast]
        omega
      · have hrest := ih rooted (back segment kept)
        simp only [walk, if_pos hdot, if_neg hlast]
        omega
    · have hpiece : (if rooted then '/' :: segment else segment).length ≤ segment.length + 1 := by
        split_ifs <;> simp
      have hrest := ih true ((if rooted then '/' :: segment else segment) :: kept)
      rw [List.flatten_cons, List.length_append] at hrest
      simp only [walk, if_neg hdot]
      omega

/-- The segments of a path with the slashes between them. -/
theorem length_split (path : List Char) :
    (split '/' path).flatten.length + (split '/' path).length = path.length + 1 := by
  induction path with
  | nil => rfl
  | cons c rest ih =>
    by_cases hc : c = '/'
    · simp only [split, if_pos hc, List.flatten_cons, List.nil_append, List.length_cons]
      omega
    · cases hs : split '/' rest with
      | nil => exact absurd hs (split_ne_nil '/' rest)
      | cons part parts =>
        rw [hs, List.flatten_cons, List.length_append, List.length_cons] at ih
        simp only [split, if_neg hc, hs, List.flatten_cons, List.length_append, List.length_cons]
        omega

/-- A path gets one slash longer at most. -/
theorem length_removeDots_le (path : List Char) : (removeDots path).length ≤ path.length + 1 := by
  have hwalk := length_walk_le false [] (split '/' path)
  have hreverse : (removeDots path).length = (walk false [] (split '/' path)).flatten.length := by
    rw [removeDots, List.length_flatten, List.length_flatten, List.map_reverse, List.sum_reverse]
  rw [List.flatten_nil, List.length_nil] at hwalk
  have hsplit := length_split path
  omega

/-! ## Paths from the root -/

/-- A query as a target writes it. -/
def querySuffix : Option (List Char) → List Char
  | some query => '?' :: query
  | none => []

section RootedPath

variable {path : List Char} {query : Option (List Char)}

/-- A reference that begins with a slash has no scheme. -/
theorem takeScheme_rooted (rest : List Char) : takeScheme ('/' :: rest) = (none, '/' :: rest) := by
  simp [takeScheme]

/-- What follows a path is a query. -/
theorem takeQuery_querySuffix (hquery : ∀ q ∈ query, '#' ∉ q) :
    takeQuery (querySuffix query) = (query, []) := by
  cases query with
  | none => rfl
  | some q =>
    have hall : ∀ c ∈ q, decide (c ≠ '#') = true := by
      intro c hc
      exact decide_eq_true fun heq => hquery q rfl (heq ▸ hc)
    simp only [querySuffix, takeQuery, List.takeWhile_eq_self_iff.mpr hall,
      List.dropWhile_eq_nil_iff.mpr hall]

/-- What ends before a question mark is not found in the query behind it. -/
theorem takeWhile_querySuffix {p : Char → Bool} (hmark : p '?' = false)
    (text : List Char) : (text ++ querySuffix query).takeWhile p = text.takeWhile p := by
  induction text with
  | nil => cases query <;> simp [querySuffix, hmark]
  | cons c text ih => cases hc : p c <;> simp [hc, ih]

/-- What begins at a question mark has the query behind it whole. -/
theorem dropWhile_querySuffix {p : Char → Bool} (hmark : p '?' = false)
    (text : List Char) :
    (text ++ querySuffix query).dropWhile p = text.dropWhile p ++ querySuffix query := by
  induction text with
  | nil => cases query <;> simp [querySuffix, hmark]
  | cons c text ih => cases hc : p c <;> simp [hc, ih]

/-- What is read of a text without scheme, once its authority is taken off. -/
theorem read_of_takeAuthority {text : List Char} {authority : Option (List Char)}
    (hscheme : takeScheme text = (none, text))
    (hauthority : takeAuthority text = (authority, path ++ querySuffix query))
    (hpath : ∀ c ∈ path, c ≠ '?' ∧ c ≠ '#') (hquery : ∀ q ∈ query, '#' ∉ q) :
    read text = { authority, path, query } := by
  have hall : ∀ c ∈ path, (!(c = '?' || c = '#')) = true := by simpa using hpath
  have htake : (path ++ querySuffix query).takeWhile (fun c => !(c = '?' || c = '#')) = path := by
    rw [takeWhile_querySuffix (by decide), List.takeWhile_eq_self_iff.mpr hall]
  have hdrop : (path ++ querySuffix query).dropWhile (fun c => !(c = '?' || c = '#')) =
      querySuffix query := by
    rw [dropWhile_querySuffix (by decide), List.dropWhile_eq_nil_iff.mpr hall, List.nil_append]
  simp only [read, hscheme, hauthority, htake, hdrop, takeQuery_querySuffix hquery]

/-- A path from the root that does not begin with two slashes is read as it is meant. -/
theorem read_rooted {rest : List Char} (hnetwork : rest.head? ≠ some '/')
    (hpath : ∀ c ∈ '/' :: rest, c ≠ '?' ∧ c ≠ '#') (hquery : ∀ q ∈ query, '#' ∉ q) :
    read ('/' :: rest ++ querySuffix query) = { path := '/' :: rest, query } := by
  have hauthority : takeAuthority ('/' :: rest ++ querySuffix query) =
      (none, '/' :: rest ++ querySuffix query) := by
    cases rest with
    | nil => cases query <;> rfl
    | cons c rest =>
      have hc : c ≠ '/' := by simpa using hnetwork
      simp [takeAuthority, hc]
  exact read_of_takeAuthority (takeScheme_rooted _) hauthority hpath hquery

/-- After two slashes an authority is read, whatever was meant by them. -/
theorem exists_read_network {rest : List Char} (hpath : ∀ c ∈ rest, c ≠ '?' ∧ c ≠ '#')
    (hquery : ∀ q ∈ query, '#' ∉ q) :
    ∃ authority after, after <:+ rest ∧
      read ('/' :: '/' :: rest ++ querySuffix query) =
        { authority := some authority, path := after, query } := by
  let isOrdinary := fun c : Char => !(c = '/' || c = '?' || c = '#')
  have hmark : isOrdinary '?' = false := by decide
  have hafter : rest.dropWhile isOrdinary <:+ rest := List.dropWhile_suffix isOrdinary
  have hauthority : takeAuthority ('/' :: '/' :: rest ++ querySuffix query) =
      (some (rest.takeWhile isOrdinary), rest.dropWhile isOrdinary ++ querySuffix query) := by
    simp only [takeAuthority, List.cons_append]
    rw [takeWhile_querySuffix hmark, dropWhile_querySuffix hmark]
  exact ⟨_, _, hafter, read_of_takeAuthority (takeScheme_rooted _) hauthority
    (fun c hc => hpath c (hafter.subset hc)) hquery⟩

end RootedPath

/-- A path that is taken as it is written: no two slashes at its beginning, no dot segment. -/
def IsLiteral (path : List Char) : Prop :=
  ¬ ['/', '/'] <+: path ∧ ∀ segment ∈ split '/' path, ¬ IsDot segment

instance (path : List Char) : Decidable (IsLiteral path) := inferInstanceAs (Decidable (_ ∧ _))

/-- A path from the root with a query, as a reference, leads from every address with this query to
that path exactly when the path is literal. -/
theorem resolve_read_rooted_iff {path : List Char} {query : Option (List Char)}
    (hslash : path.head? = some '/') (hpath : ∀ c ∈ path, c ≠ '?' ∧ c ≠ '#')
    (hquery : ∀ q ∈ query, '#' ∉ q) (scheme authority : Option (List Char)) (front : List Char) :
    let base : Reference := { scheme, authority, path := front, query }
    resolve base (read (path ++ querySuffix query)) = { base with path } ↔ IsLiteral path := by
  intro base
  unfold IsLiteral
  obtain ⟨rest, rfl⟩ := List.head?_eq_some_iff.mp hslash
  rw [← removeDots_eq_self_iff hslash]
  by_cases hnetwork : rest.head? = some '/'
  · obtain ⟨rest, rfl⟩ := List.head?_eq_some_iff.mp hnetwork
    have hrest : ∀ c ∈ rest, c ≠ '?' ∧ c ≠ '#' := by
      intro c hc
      exact hpath c (by simp [hc])
    obtain ⟨name, after, hafter, hread⟩ := exists_read_network hrest hquery
    rw [hread]
    constructor
    · intro heq
      -- the path that is left is too short to be the one that was meant
      have hpath : removeDots after = '/' :: '/' :: rest := congrArg Reference.path heq
      have hlength := length_removeDots_le after
      have hle := hafter.length_le
      rw [hpath, List.length_cons, List.length_cons] at hlength
      omega
    · rintro ⟨hno, -⟩
      exact absurd ⟨rest, rfl⟩ hno
  · have hno : ¬ ['/', '/'] <+: '/' :: rest := by
      rintro ⟨after, hafter⟩
      obtain rfl : '/' :: after = rest := by simpa using hafter
      exact hnetwork rfl
    rw [read_rooted hnetwork hpath hquery]
    simp [resolve, hno, base]

end Reference

end WebHost
