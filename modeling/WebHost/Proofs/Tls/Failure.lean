import Mathlib.Tactic.SplitIfs
import WebHost.Proofs.Config.ClientVerification

/-!
# What a failure leaves behind

A source that cannot be loaded and a file without roots are refused before anything is done, so such a
failure leaves no trace. Files that a program names are taken up piece by piece, the roots first, then
how clients are checked, and the pair of a certificate and its key last. If the pair cannot be loaded,
which is only tried when somebody supplies certificates already, then the pieces before it stay.
-/

set_option autoImplicit false

namespace WebHost

namespace TlsProfile

variable {p p' : TlsProfile} {vault : Vault} {e : TlsError}

/-- Where there was nothing to keep, the profile stays and the error is passed on. -/
theorem eq_of_keep_failed {found : Except TlsError TlsProfile} (h : p.keep found = (p', some e)) :
    p' = p ∧ found = .error e := by
  cases found with
  | ok q => simp [keep] at h
  | error e' =>
    obtain ⟨rfl, he⟩ := Prod.mk.inj h
    exact ⟨rfl, congrArg Except.error (Option.some.inj he)⟩

/-- Only when there is a supply already can a source be refused. -/
theorem supply_of_take_failed {s : KeySource} (h : p.take vault s = .error e) :
    p.supply.isSome := by
  unfold take at h
  split_ifs at h with hempty hnone
  simpa [Option.isSome_iff_ne_none] using hnone

/-- The profile when roots, and how clients are checked, have been taken up from files. -/
def prepared (p : TlsProfile) (f : TlsFiles) (roots : List Bytes) : TlsProfile :=
  { p with
    clientRoots := p.clientRoots ++ roots
    skipVerify := f.skipVerify
    clientAuth := if f.verifyClient then .requireAndVerify else p.clientAuth }

/-- Files fail at their roots, before anything is done, or else at their pair, when everything before
it is done. -/
theorem takeFiles_failed {f : TlsFiles} (h : p.takeFiles vault f = (p', some e)) :
    (p' = p ∧ ∃ path, f.rootFile = some path ∧ p.addRoots vault path = .error e) ∨
      ∃ roots, p' = p.prepared f roots ∧ (roots = [] ↔ f.rootFile = none) ∧ p.supply.isSome ∧
        ∀ path, f.rootFile = some path → p.addRoots vault path ≠ .error e := by
  unfold takeFiles at h
  cases hroots : f.rootFile.elim (.ok p) (p.addRoots vault) with
  | error e' =>
    simp only [hroots] at h
    obtain ⟨rfl, he⟩ := Prod.mk.inj h
    obtain rfl := Option.some.inj he
    cases hfile : f.rootFile with
    | none => simp [hfile] at hroots
    | some path => exact .inl ⟨rfl, path, rfl, by simpa [hfile] using hroots⟩
  | ok q =>
    obtain ⟨roots, hempty, rfl⟩ := exists_roots_of_elim hroots
    simp only [hroots] at h
    split at h
    · obtain ⟨hsame, htake⟩ := eq_of_keep_failed h
      have hsupply := supply_of_take_failed htake
      refine .inr ⟨roots, hsame, hempty, hsupply, ?_⟩
      rintro path hfile herror
      simp [hfile, herror] at hroots
    · simp at h

/-- Preparing changes nothing exactly if nothing is named that the profile does not have already. -/
theorem prepared_eq_iff (p : TlsProfile) (f : TlsFiles) (roots : List Bytes) :
    p.prepared f roots = p ↔ roots = [] ∧ f.skipVerify = p.skipVerify ∧
      (f.verifyClient = true → p.clientAuth = .requireAndVerify) := by
  obtain ⟨minVersion, suites, groups, clientAuth, skipVerify, protocols, certificates, supply,
    clientRoots⟩ := p
  cases hverify : f.verifyClient <;>
    simp [prepared, hverify, eq_comm, and_comm, and_assoc, and_left_comm]

/-- What a failure leaves of a change. -/
structure IsPartial (p p' : TlsProfile) (vault : Vault) (c : TlsChange) (e : TlsError) : Prop where
  /-- At most roots and the way of checking clients are taken up. -/
  rest : p' = { p with
    clientRoots := p'.clientRoots, skipVerify := p'.skipVerify, clientAuth := p'.clientAuth }
  /-- Nothing is as long as nobody supplies certificates. -/
  unsupplied : p.supply = none → p' = p
  /-- Nothing is unless files fail at their pair and have named something new before. -/
  same_iff : p' = p ↔ ∀ f, c = .files f →
    (∃ path, f.rootFile = some path ∧ p.addRoots vault path = .error e) ∨
      (f.rootFile = none ∧ f.skipVerify = p.skipVerify ∧
        (f.verifyClient = true → p.clientAuth = .requireAndVerify))

/-- A change other than of files that leaves the profile as it was is partial. -/
theorem IsPartial.of_eq {c : TlsChange} (hc : ∀ f, c ≠ .files f) : p.IsPartial p vault c e where
  rest := rfl
  unsupplied _ := rfl
  same_iff := ⟨fun _ f h => absurd h (hc f), fun _ => rfl⟩

/-- Whatever change fails, a profile stays as it was, unless it is that files fail at their pair and
have named something new before. -/
theorem isPartial_of_failed {c : TlsChange} (h : p.change vault c = (p', some e)) :
    p.IsPartial p' vault c e := by
  cases c with
  | source s | roots path | certificate s =>
    obtain ⟨rfl, -⟩ := eq_of_keep_failed h
    exact .of_eq (by simp)
  | files f =>
    rcases takeFiles_failed h with ⟨rfl, path, hfile, herror⟩ | ⟨roots, rfl, hempty, hsupply, hroots⟩
    · refine ⟨rfl, fun _ => rfl, fun _ g hg => ?_, fun _ => rfl⟩
      obtain rfl := TlsChange.files.inj hg
      exact .inl ⟨path, hfile, herror⟩
    · refine ⟨rfl, fun hnone => by simp [hnone] at hsupply, ?_⟩
      rw [prepared_eq_iff, hempty]
      constructor
      · rintro hsame g hg
        obtain rfl := TlsChange.files.inj hg
        exact .inr hsame
      · intro hall
        rcases hall f rfl with ⟨path, hfile, herror⟩ | hsame
        · exact absurd herror (hroots path hfile)
        · exact hsame
  | _ => simp [change] at h

/-- Files that ask for verified clients, with a pair that is not there. -/
def missingPair : TlsFiles where
  certificateFile := some "missing.crt"
  keyFile := some "missing.key"
  verifyClient := true

/-- The standard profile after a first source, which nobody has looked at. -/
def unlooked : TlsProfile := (standard.change {} (.source (.blocks [0x78] [0x79]))).1

/-- A pair whose certificate is missing leaves the demand for client certificates behind. -/
theorem isPartial_missingPair :
    unlooked.change {} (.files missingPair) =
      ({ unlooked with clientAuth := .requireAndVerify }, some (.unreadable "missing.crt")) ∧
    unlooked.IsPartial { unlooked with clientAuth := .requireAndVerify } {}
      (.files missingPair) (.unreadable "missing.crt") := by
  have hfailed : unlooked.change {} (.files missingPair) =
      ({ unlooked with clientAuth := .requireAndVerify }, some (.unreadable "missing.crt")) := by
    decide +kernel
  exact ⟨hfailed, isPartial_of_failed hfailed⟩

/-- The pair cannot be loaded, and yet clients have to be verified from now on. -/
theorem missingPair_leaves_trace :
    (unlooked.change {} (.files missingPair)).2 = some (.unreadable "missing.crt") ∧
    (unlooked.change {} (.files missingPair)).1 ≠ unlooked := by
  decide +kernel

end TlsProfile

end WebHost
