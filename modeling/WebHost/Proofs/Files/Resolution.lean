import WebHost.Files.Tree
import WebHost.Proofs.Text.Parts

/-!
# Canonical paths

Resolving a path gives a canonical one: directories all the way down and no link anywhere. The
invariant is carried by the walk along the parts of a path, up to the first link, and then by the
following of links, which starts a new walk from the root or from the directory of the link.

Walking along a canonical path comes back to it, so the text of a canonical path in front of more
parts may be left out of an account of where the whole path leads.
-/

set_option autoImplicit false

namespace WebHost.FileTree

variable {t : FileTree}

/-- A name that an entry of a directory may have. -/
structure IsName (part : String) : Prop where
  not_empty : part.isEmpty = false
  not_here : part ≠ "."
  not_up : part ≠ ".."
  short : part.utf8ByteSize ≤ maxName
  no_slash : '/' ∉ part.toList

/-- A path that leads through directories to something that is no link. -/
inductive IsCanonical (t : FileTree) : List String → Prop
  | root : IsCanonical t []
  | entry {path : List String} {part : String} {node : FileNode} :
    IsCanonical t path → t.isDirectory path = true → IsName part →
    t.lookup (path ++ [part]) = some node → (∀ target, node ≠ .link target) →
    IsCanonical t (path ++ [part])

/-- The parts of a path below another, which is not the path itself. -/
def IsInside (root path : List String) : Prop := ∃ part rest, path = root ++ part :: rest

/-- Where a link that stands in a directory leads. -/
def linkEnd (t : FileTree) (directory : List String) (target : String) :
    Except FileFault (List String) :=
  t.follow (maxLinks - 1) (if isAbsolute target then [] else directory) (parts target)

/-! ## The parts of a path -/

/-- The parts of a path hold no slash. -/
theorem no_slash_of_mem_parts {text part : String} (h : part ∈ parts text) : '/' ∉ part.toList := by
  obtain ⟨chars, hc, rfl⟩ := List.mem_map.mp h
  rw [String.toList_ofList]
  exact Text.not_mem_of_mem_split hc

/-- The parts of two paths with a slash between them are those of the one and of the other. -/
theorem parts_append_slash (a b : String) : parts (a ++ "/" ++ b) = parts a ++ parts b := by
  have h : (a ++ "/" ++ b).toList = a.toList ++ '/' :: b.toList := by simp
  rw [parts, h, Text.split_append_sep, List.map_append]
  rfl

/-- The parts of the text of a path with at least one name. -/
theorem parts_pathText {path : List String} (hne : path ≠ [])
    (h : ∀ part ∈ path, '/' ∉ part.toList) : parts (pathText path) = "" :: path := by
  have hchars : ∀ part ∈ path.map String.toList, '/' ∉ part := by
    intro part hp
    obtain ⟨name, hn, rfl⟩ := List.mem_map.mp hp
    exact h name hn
  have htext : (pathText path).toList =
      [] ++ '/' :: ['/'].intercalate (path.map String.toList) := by
    simp [pathText, Text.toList_joinWith_slash]
  rw [parts, htext, Text.split_append_sep, Text.split_intercalate (by simpa using hne) hchars]
  simp [Text.split]

/-! ## Canonical paths -/

/-- The root is a directory. -/
@[simp] theorem lookup_nil (t : FileTree) : t.lookup [] = some .directory := rfl

/-- The root counts as one. -/
@[simp] theorem isDirectory_nil (t : FileTree) : t.isDirectory [] = true := rfl

namespace IsCanonical

/-- The directory of something that lies where it says lies where it says. -/
theorem dropLast {path : List String} (h : t.IsCanonical path) : t.IsCanonical path.dropLast := by
  cases h with
  | root => exact .root
  | entry hpath _ _ _ _ => simpa using hpath

/-- The parts of a path without links and dots are names. -/
theorem isName {path : List String} (h : t.IsCanonical path) : ∀ part ∈ path, IsName part := by
  induction h with
  | root => simp
  | entry _ _ hname _ _ ih =>
    intro part hp
    rcases List.mem_append.mp hp with hp | hp
    · exact ih part hp
    · rwa [List.mem_singleton.mp hp]

/-- Every directory on the way to something that lies where it says does so too. -/
theorem of_front {front path : List String} (h : t.IsCanonical path) (hp : front <+: path) :
    t.IsCanonical front := by
  induction h with
  | root => rw [List.prefix_nil.mp hp]; exact .root
  | entry hpath hdir hname hnode hlink ih =>
    rcases List.prefix_concat_iff.mp hp with rfl | hp
    · exact .entry hpath hdir hname hnode hlink
    · exact ih hp

end IsCanonical

/-- A walk steps over a part without a name. -/
theorem walk_empty {start rest : List String} (h : t.isDirectory start = true) :
    t.walk start ("" :: rest) = t.walk start rest := by
  simp [walk, h]

/-- A walk takes a name by what stands there. -/
theorem walk_name {start rest : List String} {part : String} (h : t.isDirectory start = true)
    (hn : IsName part) :
    t.walk start (part :: rest) =
      match t.lookup (start ++ [part]) with
      | none => .failed .missing
      | some (.link target) => .atLink start target rest
      | some _ => t.walk (start ++ [part]) rest := by
  have hshort : ¬ maxName < part.utf8ByteSize := Nat.not_lt.mpr hn.short
  have hhere : (part.isEmpty || decide (part = ".")) = false := by
    simp [hn.not_empty, hn.not_here]
  cases hl : t.lookup (start ++ [part]) with
  | none => simp [walk, h, hhere, hn.not_up, hshort, hl]
  | some node => cases node <;> simp [walk, h, hhere, hn.not_up, hshort, hl]

/-- A walk along the names of a canonical path comes to that path. -/
theorem IsCanonical.walk_append {path : List String} (h : t.IsCanonical path) (rest : List String) :
    t.walk [] (path ++ rest) = t.walk path rest := by
  induction h generalizing rest with
  | root => rfl
  | @entry path part node hpath hdir hname hnode hlink ih =>
    rw [List.append_assoc, List.singleton_append, ih, walk_name hdir hname, hnode]
    cases node with
    | directory => rfl
    | file data modified => rfl
    | link target => exact absurd rfl (hlink target)

/-- The text of a canonical path leads a walk to that path. -/
theorem IsCanonical.walk_parts_pathText {path : List String} (h : t.IsCanonical path)
    (rest : List String) : t.walk [] (parts (pathText path) ++ rest) = t.walk path rest := by
  by_cases hne : path = []
  · subst hne
    have hroot : parts (pathText []) = ["", ""] := by decide +kernel
    rw [hroot, List.cons_append, List.cons_append, List.nil_append, walk_empty (isDirectory_nil t),
      walk_empty (isDirectory_nil t)]
  · rw [parts_pathText hne fun part hp => (h.isName part hp).no_slash, List.cons_append,
      walk_empty (isDirectory_nil t), h.walk_append]

/-! ## Resolving gives canonical paths -/

/-- What a walk from a canonical path may come to: a canonical path, or a link that stands in a
directory with a canonical path. -/
def Walk.IsSound (t : FileTree) : Walk → Prop
  | .arrived path => t.IsCanonical path
  | .failed _ => True
  | .atLink directory _ rest => t.IsCanonical directory ∧ ∀ part ∈ rest, '/' ∉ part.toList

/-- The place where a walk stands stays canonical, also when the walk goes up. -/
theorem walk_isSound {start rest : List String} (hs : t.IsCanonical start)
    (hr : ∀ part ∈ rest, '/' ∉ part.toList) : (t.walk start rest).IsSound t := by
  -- the walk goes on from another place, so the place is not fixed
  induction rest generalizing start with
  | nil => exact hs
  | cons part rest ih =>
    have hrest : ∀ p ∈ rest, '/' ∉ p.toList := fun p hp => hr p (List.mem_cons_of_mem _ hp)
    unfold walk
    split_ifs with hdir hhere hup hlong
    · trivial
    · exact ih hs hrest
    · exact ih hs.dropLast hrest
    · trivial
    · rw [Bool.not_eq_true', Bool.not_eq_false] at hdir
      rw [Bool.or_eq_true, not_or, Bool.not_eq_true, decide_eq_true_eq] at hhere
      have hname : IsName part :=
        ⟨hhere.1, hhere.2, hup, Nat.not_lt.mp hlong, hr part List.mem_cons_self⟩
      cases hl : t.lookup (start ++ [part]) with
      | none => trivial
      | some node =>
        cases node with
        | link target => exact ⟨hs, hrest⟩
        | directory => exact ih (.entry hs hdir hname hl (by simp)) hrest
        | file data modified => exact ih (.entry hs hdir hname hl (by simp)) hrest

/-- Following links ends where a walk arrives, at once or after the next link. -/
theorem follow_cases {links : Nat} {start rest path : List String}
    (h : t.follow links start rest = .ok path) :
    t.walk start rest = .arrived path ∨
      ∃ directory target more fewer, links = fewer + 1 ∧
        t.walk start rest = .atLink directory target more ∧
        t.follow fewer (if isAbsolute target then [] else directory) (parts target ++ more) =
          .ok path := by
  rw [follow] at h
  cases hw : t.walk start rest with
  | arrived q =>
    rw [hw] at h
    obtain rfl : q = path := by simpa using h
    exact Or.inl rfl
  | failed fault => simp [hw] at h
  | atLink directory target more =>
    rw [hw] at h
    cases links with
    | zero => simp at h
    | succ fewer => exact Or.inr ⟨directory, target, more, fewer, rfl, rfl, h⟩

/-- Following links keeps to canonical paths: each link starts a new walk, from the root or from
the directory of the link. -/
theorem follow_isCanonical {links : Nat} {start rest path : List String} (hs : t.IsCanonical start)
    (hr : ∀ part ∈ rest, '/' ∉ part.toList) (h : t.follow links start rest = .ok path) :
    t.IsCanonical path := by
  -- the links still allowed decrease; where the next walk starts depends on the link
  induction links generalizing start rest with
  | zero =>
    have hsound := walk_isSound hs hr
    rcases follow_cases h with hw | ⟨_, _, _, _, hlinks, _⟩
    · rwa [hw] at hsound
    · omega
  | succ links ih =>
    have hsound := walk_isSound hs hr
    rcases follow_cases h with hw | ⟨directory, target, more, fewer, hlinks, hw, hf⟩
    · rwa [hw] at hsound
    · rw [hw] at hsound
      obtain ⟨hd, hmore⟩ := hsound
      obtain rfl : links = fewer := by omega
      refine ih ?_ ?_ hf
      · split_ifs
        · exact .root
        · exact hd
      · intro part hp
        rcases List.mem_append.mp hp with hp | hp
        · exact no_slash_of_mem_parts hp
        · exact hmore part hp

/-- What resolving an absolute path does once the path is found fit. -/
theorem resolve_eq_ok {text : String} {path : List String} (ha : isAbsolute text = true)
    (h : t.resolve text = .ok path) : t.follow maxLinks [] (parts text) = .ok path := by
  unfold resolve at h
  split_ifs at h with h1 h2 h3
  exact h

/-- What an absolute path is resolved to lies where it says. -/
theorem resolve_isCanonical {text : String} {path : List String} (ha : isAbsolute text = true)
    (h : t.resolve text = .ok path) : t.IsCanonical path :=
  follow_isCanonical .root (fun _ hp => no_slash_of_mem_parts hp) (resolve_eq_ok ha h)

/-- The text of a path is absolute, whatever follows it. -/
theorem isAbsolute_pathText_append (path : List String) (more : String) :
    isAbsolute (pathText path ++ more) = true := by
  simp [isAbsolute, pathText]

/-- A path that is written out begins at the root. -/
theorem isAbsolute_pathText (path : List String) : isAbsolute (pathText path) = true := by
  simp [isAbsolute, pathText]

/-- Following starts where a walk along a canonical path comes to. -/
theorem IsCanonical.follow_parts_pathText {path : List String} (h : t.IsCanonical path)
    (links : Nat) (rest : List String) :
    t.follow links [] (parts (pathText path) ++ rest) = t.follow links path rest := by
  rw [follow, follow, h.walk_parts_pathText]

/-- Only a directory has something below it. -/
theorem isDirectory_of_follow {links : Nat} {start path : List String} {part : String}
    {rest : List String} (h : t.follow links start (part :: rest) = .ok path) :
    t.isDirectory start = true := by
  by_contra hdir
  rw [follow, walk, if_pos (by simp [hdir])] at h
  simp at h

/-- What following a single name of a directory comes to: the entry itself, or where it leads if it
is a link. -/
theorem follow_name {links : Nat} {directory path : List String} {name : String} (hn : IsName name)
    (h : t.follow (links + 1) directory [name] = .ok path) :
    (∃ target, t.lookup (directory ++ [name]) = some (.link target) ∧
        t.follow links (if isAbsolute target then [] else directory) (parts target) = .ok path) ∨
      (path = directory ++ [name] ∧ ∀ target, t.lookup path ≠ some (.link target)) := by
  have hwalk : t.walk directory [name] = match t.lookup (directory ++ [name]) with
      | none => .failed .missing
      | some (.link target) => .atLink directory target []
      | some _ => t.walk (directory ++ [name]) [] := walk_name (isDirectory_of_follow h) hn
  rw [follow, hwalk] at h
  cases hl : t.lookup (directory ++ [name]) with
  | none => simp [hl] at h
  | some node =>
    cases node with
    | link target =>
      left
      exact ⟨target, rfl, by simpa [hl] using h⟩
    | directory =>
      obtain rfl : directory ++ [name] = path := by simpa [hl, walk] using h
      exact Or.inr ⟨rfl, by simp [hl]⟩
    | file data modified =>
      obtain rfl : directory ++ [name] = path := by simpa [hl, walk] using h
      exact Or.inr ⟨rfl, by simp [hl]⟩

/-- An entry of a canonical directory resolves to its own path, or it is a link and resolves to
where that leads. -/
theorem IsCanonical.resolve_entry {directory path : List String} {name : String}
    (hd : t.IsCanonical directory) (hn : IsName name)
    (h : t.resolve (pathText (directory ++ [name])) = .ok path) :
    (∃ target, t.lookup (directory ++ [name]) = some (.link target) ∧
        t.linkEnd directory target = .ok path) ∨
      (path = directory ++ [name] ∧ ∀ target, t.lookup path ≠ some (.link target)) := by
  have hparts : parts (pathText (directory ++ [name])) = "" :: (directory ++ [name]) := by
    refine parts_pathText (by simp) fun part hp => ?_
    rcases List.mem_append.mp hp with hp | hp
    · exact (hd.isName part hp).no_slash
    · rw [List.mem_singleton.mp hp]; exact hn.no_slash
  have hwalk : t.walk [] ("" :: (directory ++ [name])) = t.walk directory [name] := by
    rw [walk_empty (isDirectory_nil t), hd.walk_append]
  have hfollow : t.follow maxLinks directory [name] = .ok path := by
    rw [← resolve_eq_ok (isAbsolute_pathText _) h, hparts, follow, follow, hwalk]
  exact follow_name hn hfollow

end WebHost.FileTree
