import Mathlib.Data.List.Basic
import Mathlib.Data.List.Nodup
import WebHost.Json.Record

/-!
# What a record takes from a document

A record that is written back as a document shows what reading has put into it. Putting a value into
a field replaces one member there and leaves the others alone; so a record that was read over values
to start from shows, at each key, the value that the document holds for it, and where the document
holds none, the value from the start. It does not matter whether the document is an object or an
array that gives the values in order.
-/

set_option autoImplicit false

namespace WebHost

namespace Json

/-- A document in which the member at a key, if there is one, has another value. -/
def replace (j : Json) (key : String) (value : Json) : Json :=
  match j with
  | .obj members => .obj (members.map fun m => if m.1 = key then (m.1, value) else m)
  | j => j

/-- The value that a document holds for a key of a record with these keys. -/
def given? (keys : List String) (key : String) : Json → Option Json
  | .obj members => (members.find? (·.1 = key)).map (·.2)
  | .arr items => ((keys.zip items).find? (·.1 = key)).map (·.2)
  | _ => none

/-- Replacing a member changes that member only, and only where there was one. -/
theorem member?_replace (j : Json) (key key' : String) (value : Json) :
    (j.replace key value).member? key' =
      if key' = key then (j.member? key').map fun _ => value else j.member? key' := by
  cases j with
  | obj members =>
    have hkeys : ((fun m : String × Json => decide (m.1 = key')) ∘
        fun m => if m.1 = key then (m.1, value) else m) = fun m => decide (m.1 = key') := by
      funext m
      dsimp only [Function.comp]
      split <;> rfl
    simp only [replace, member?, ← List.map_reverse, List.find?_map, hkeys, Option.map_map]
    cases hfind : members.reverse.find? fun m => decide (m.1 = key') with
    | none => simp
    | some m =>
      have hm : m.1 = key' := by simpa using List.find?_some hfind
      simp only [Option.map_some, Function.comp, hm]
      split <;> rfl
  | _ => simp [replace, member?]

/-- What comes of a value that is given on top of another one: if there is one, it is read and shown,
else what was shown before. -/
def Overlays (read : Json → Option Json) (given before after : Option Json) : Prop :=
  match given with
  | some v => ∃ w, read v = some w ∧ after = some w
  | none => after = before

/-- What an overlay leaves is what was given, or else what was there. -/
theorem Overlays.eq_or {read : Json → Option Json} {given before after : Option Json}
    (h : Overlays read given before after) : after = (given.bind read).or before := by
  cases given with
  | none => exact h
  | some v =>
    obtain ⟨w, hread, hafter⟩ := h
    simp [hread, hafter]

end Json

/-! ## Fields -/

/-- A field through which a record is changed as its document is: a value that is read as another
one replaces the member at the key of the field. -/
def Field.Writes {α : Type} (toJson : α → Json) (read : Json → Option Json) (f : Field α) : Prop :=
  ∀ v record record', f.put v record = some record' →
    ∃ w, read v = some w ∧ toJson record' = (toJson record).replace f.key w

namespace Record

variable {α : Type}

/-- Keys are found distinct exactly if no key comes twice. -/
theorem distinctKeys_iff (members : List (String × Json)) :
    distinctKeys members = true ↔ (members.map (·.1)).Nodup := by
  induction members with
  | nil => simp [distinctKeys]
  | cons m rest ih =>
    obtain ⟨key, value⟩ := m
    simp only [distinctKeys, Bool.and_eq_true, ih, List.map_cons, List.nodup_cons, Bool.not_eq_true',
      List.any_eq_false, decide_eq_true_eq, List.mem_map, not_exists, not_and]

/-- Items that are put in order are members at the keys of the fields. -/
theorem putItems_eq (fields : List (Field α)) {part : List (Field α)}
    (h : ∀ f ∈ part, fields.find? (·.key = f.key) = some f) (record : α) (items : List Json) :
    putItems part record items = putMembers fields record ((part.map (·.key)).zip items) := by
  induction part generalizing record items with
  | nil => rfl
  | cons f rest ih =>
    cases items with
    | nil => rfl
    | cons item items =>
      have hf := h f (List.mem_cons_self ..)
      have hrest : ∀ g ∈ rest, fields.find? (·.key = g.key) = some g := by
        intro g hg
        exact h g (List.mem_cons_of_mem f hg)
      simp only [putItems, putMembers, List.map_cons, List.zip_cons_cons, List.foldlM_cons,
        putMember, hf, Option.bind_some, Option.bind_eq_bind]
      apply Option.bind_congr
      intro record' _
      exact ih hrest record' items

/-- Among fields with distinct keys, each is found under its own. -/
theorem find?_key {fields : List (Field α)} (h : (fields.map (·.key)).Nodup) {f : Field α}
    (hf : f ∈ fields) : fields.find? (·.key = f.key) = some f := by
  induction fields with
  | nil => simp at hf
  | cons g rest ih =>
    rw [List.map_cons, List.nodup_cons] at h
    rcases List.mem_cons.mp hf with rfl | hf
    · simp
    · have hne : g.key ≠ f.key := by
        intro heq
        exact h.1 (heq ▸ List.mem_map_of_mem hf)
      simp [hne, ih h.2 hf]

/-- Distinct keys stay distinct when items are put beside them. -/
theorem nodup_keys_zip {keys : List String} (h : keys.Nodup) (items : List Json) :
    ((keys.zip items).map (·.1)).Nodup := by
  rw [List.zip_eq_zip_take_min, List.map_fst_zip (by simp)]
  exact h.sublist (List.take_sublist _ _)

section Decode

variable {toJson : α → Json} {read : String → Json → Option Json} {fields : List (Field α)}
  {start record : α} {key : String}

/-- What is shown at a key after members were put into a record. -/
theorem member?_putMembers (hfields : ∀ f ∈ fields, f.Writes toJson (read f.key))
    {members : List (String × Json)} (hdistinct : (members.map (·.1)).Nodup)
    (h : putMembers fields start members = some record)
    (hkey : ((toJson start).member? key).isSome = true) :
    Json.Overlays (read key) ((members.find? (·.1 = key)).map (·.2)) ((toJson start).member? key)
      ((toJson record).member? key) := by
  induction members generalizing start with
  | nil =>
    obtain rfl : start = record := by simpa [putMembers] using h
    rfl
  | cons m rest ih =>
    obtain ⟨next, hput, hrest⟩ : ∃ next, putMember fields start m = some next ∧
        putMembers fields next rest = some record := by
      simpa [putMembers, Option.bind_eq_some_iff] using h
    obtain ⟨f, hf, hnext⟩ := Option.bind_eq_some_iff.mp hput
    have hfkey : f.key = m.1 := by simpa using List.find?_some hf
    obtain ⟨w, hread, hwrite⟩ := hfields f (List.mem_of_find?_eq_some hf) _ _ _ hnext
    have hshown := Json.member?_replace (toJson start) f.key key w
    rw [← hwrite, hfkey] at hshown
    rw [List.map_cons, List.nodup_cons] at hdistinct
    by_cases hm : m.1 = key
    · subst hm
      obtain ⟨old, hold⟩ := Option.isSome_iff_exists.mp hkey
      rw [if_pos rfl, hold, Option.map_some] at hshown
      -- keys are distinct, so nothing is put over this value later
      have hgone : rest.find? (·.1 = m.1) = none := by
        apply List.find?_eq_none.mpr
        intro m' hm' heq
        exact hdistinct.1 (List.mem_map.mpr ⟨m', hm', by simpa using heq⟩)
      have hlater := ih hdistinct.2 hrest (by simp [hshown])
      rw [hgone] at hlater
      simp only [List.find?_cons, decide_true]
      exact ⟨w, hfkey ▸ hread, hlater.trans hshown⟩
    · rw [if_neg (Ne.symm hm)] at hshown
      have hlater := ih hdistinct.2 hrest (by rw [hshown]; exact hkey)
      rw [hshown] at hlater
      simpa only [List.find?_cons, hm, decide_false] using hlater

variable (read) in
/-- What is shown at a key after a document was read. -/
theorem member?_decode (hfields : ∀ f ∈ fields, f.Writes toJson (read f.key))
    (hkeys : (fields.map (·.key)).Nodup) {surplus : Surplus} {document : Json}
    (h : decode surplus fields start document = some record)
    (hkey : ((toJson start).member? key).isSome = true) :
    Json.Overlays (read key) (document.given? (fields.map (·.key)) key)
      ((toJson start).member? key) ((toJson record).member? key) := by
  cases document with
  | obj members =>
    simp only [decode] at h
    split at h
    · rename_i hdistinct
      exact member?_putMembers hfields ((distinctKeys_iff members).mp hdistinct) h hkey
    · simp at h
  | arr items =>
    simp only [decode] at h
    split at h
    · simp at h
    · rw [putItems_eq fields fun f hf => find?_key hkeys hf] at h
      exact member?_putMembers hfields (nodup_keys_zip hkeys items) h hkey
  | _ => simp [decode] at h

end Decode

end Record

end WebHost
