import Kasou.Library.CrashFs

/-!
# Replacing a file by way of a scratch file

A writer that never writes to the target itself, but fills a scratch file,
syncs it and renames it to the target, leaves a complete file or none under
the target's name, whatever crash comes when.

`Guards` is the invariant.  It speaks of every outcome of a crash: the file
under the target is synced and good, and the scratch file is not that file,
neither in one outcome nor between the present and an outcome.
-/

namespace CrashFs

variable {κ : Type*} [DirTree κ] [DecidableEq κ]
variable {good : List UInt8 → Prop} {target scratch : κ} {fs fs' : Fs κ}

/-- The target is guarded against what happens to the scratch file. -/
structure Guards (good : List UInt8 → Prop) (target scratch : κ)
    (fs : Fs κ) : Prop where
  /-- Whatever file a crash leaves under the target is synced and good. -/
  sealed : ∀ ns, fs.Outcome ns → ∀ ino,
    ns.lookup target = some (.file ino) →
      fs.synced ino = true ∧ good (fs.data ino)
  /-- No crash leaves one file under both names. -/
  apart : ∀ ns, fs.Outcome ns → ∀ ino,
    ns.lookup scratch = some (.file ino) →
      ns.lookup target ≠ some (.file ino)
  /-- No crash leaves what is now the scratch file under the target. -/
  clear : ∀ ns, fs.Outcome ns → ∀ ino,
    fs.lookup scratch = some (.file ino) →
      ns.lookup target ≠ some (.file ino)

namespace Guards

theorem mono {good' : List UInt8 → Prop}
    (hguards : Guards good target scratch fs)
    (himp : ∀ bytes, good bytes → good' bytes) :
    Guards good' target scratch fs where
  sealed ns hns ino hino :=
    (hguards.sealed ns hns ino hino).imp_right (himp _)
  apart := hguards.apart
  clear := hguards.clear

/-- The file now under the target is synced and good. -/
theorem sealed_current (hguards : Guards good target scratch fs) {ino : Nat}
    (hino : fs.lookup target = some (.file ino)) :
    fs.synced ino = true ∧ good (fs.data ino) :=
  hguards.sealed fs.current fs.outcome_current ino hino

/-- What can be read under the target is good. -/
theorem read_good (hguards : Guards good target scratch fs)
    {bytes : List UInt8} (hread : fs.read target = some bytes) :
    good bytes := by
  obtain ⟨ino, hino, rfl⟩ := Fs.read_eq_some_iff.mp hread
  exact (hguards.sealed_current hino).2

/-- An absent target is guarded. -/
theorem of_absent (habsent : fs.Absent target) :
    Guards good target scratch fs where
  sealed ns hns ino hino := (habsent ns hns ino hino).elim
  apart ns hns ino _ := habsent ns hns ino
  clear ns hns ino _ := habsent ns hns ino

/-- A change of entries under other names. -/
theorem push {c : Change κ} {hc : c.Below fs.next}
    (hguards : Guards good target scratch fs) (htarget : target ∉ c.names)
    (hscratch : scratch ∉ c.names) :
    Guards good target scratch (fs.push c hc) := by
  -- both names stand in an outcome for what they stood for in an earlier one
  have hsame : ∀ ns, (fs.push c hc).Outcome ns → ∃ ns', fs.Outcome ns' ∧
      ns.lookup target = ns'.lookup target ∧
      ns.lookup scratch = ns'.lookup scratch := by
    intro ns hns
    obtain ⟨ns', hns', rfl | rfl⟩ := hns.of_push
    · exact ⟨_, hns', rfl, rfl⟩
    · exact ⟨ns', hns', Change.lookup_apply_of_not_mem htarget,
        Change.lookup_apply_of_not_mem hscratch⟩
  have hcurrent : (fs.push c hc).lookup scratch = fs.lookup scratch := by
    rw [Fs.lookup_push, Change.lookup_apply_of_not_mem hscratch]
    rfl
  constructor
  · intro ns hns
    obtain ⟨ns', hns', hsameTarget, -⟩ := hsame ns hns
    rw [hsameTarget]
    exact hguards.sealed ns' hns'
  · intro ns hns
    obtain ⟨ns', hns', hsameTarget, hsameScratch⟩ := hsame ns hns
    rw [hsameTarget, hsameScratch]
    exact hguards.apart ns' hns'
  · intro ns hns
    obtain ⟨ns', hns', hsameTarget, -⟩ := hsame ns hns
    rw [hsameTarget, hcurrent]
    exact hguards.clear ns' hns'

/-- A directory made under another name. -/
theorem mkdir {d : κ} (hguards : Guards good target scratch fs)
    (htarget : target ≠ d) (hscratch : scratch ≠ d)
    (hmkdir : fs.mkdir d = some fs') : Guards good target scratch fs' := by
  rcases Fs.mkdir_spec hmkdir with ⟨rfl, -⟩ | ⟨rfl, -⟩
  · exact hguards
  · exact hguards.push (by simpa [Change.names] using htarget)
      (by simpa [Change.names] using hscratch)

/-- New contents for the scratch file. -/
theorem setData {ino : Nat} {bytes : List UInt8}
    (hguards : Guards good target scratch fs)
    (hino : fs.lookup scratch = some (.file ino)) :
    Guards good target scratch (fs.setData ino bytes) where
  sealed ns hns i hi := by
    have hne : i ≠ ino := by
      rintro rfl
      exact hguards.clear ns hns i hino hi
    obtain ⟨hsynced, hgood⟩ := hguards.sealed ns hns i hi
    rw [fs.synced_setData_of_ne hne, fs.data_setData_of_ne hne]
    exact ⟨hsynced, hgood⟩
  apart := hguards.apart
  clear := hguards.clear

theorem pwrite {ino off : Nat} {chunk : List UInt8}
    (hguards : Guards good target scratch fs)
    (hino : fs.lookup scratch = some (.file ino)) :
    Guards good target scratch (fs.pwrite ino off chunk) :=
  hguards.setData hino

theorem fsync {ino : Nat} (hguards : Guards good target scratch fs) :
    Guards good target scratch (fs.fsync ino) where
  sealed ns hns i hi := by
    obtain ⟨hsynced, hgood⟩ := hguards.sealed ns hns i hi
    refine ⟨?_, hgood⟩
    by_cases hi : i = ino
    · subst hi
      exact fs.synced_fsync_self i
    · rw [fs.synced_fsync_of_ne hi]
      exact hsynced
  apart := hguards.apart
  clear := hguards.clear

/-- A new scratch file. -/
theorem link (hguards : Guards good target scratch fs)
    (hne : target ≠ scratch) (hnone : fs.lookup scratch = none) :
    Guards good target scratch (fs.link scratch) := by
  -- the target's file is not the new one
  have hfresh : ∀ ns, fs.Outcome ns → ∀ ino,
      ns.lookup target = some (.file ino) → ino ≠ fs.next :=
    fun ns hns ino hino => (Namespace.lookup_lt hns.below hino).ne
  constructor
  · intro ns hns ino hino
    obtain ⟨ns', hns', hsame, -⟩ := Fs.Outcome.of_link_of_ne hne hns
    rw [hsame] at hino
    rw [fs.synced_link_of_ne scratch (hfresh ns' hns' ino hino),
      fs.data_link_of_ne scratch (hfresh ns' hns' ino hino)]
    exact hguards.sealed ns' hns' ino hino
  · intro ns hns ino hino
    obtain ⟨ns', hns', hsame, hold | hnew⟩ :=
      Fs.Outcome.of_link_of_ne hne hns
    · rw [hsame]
      exact hguards.apart ns' hns' ino (hold ▸ hino)
    · rw [hnew, Option.some.injEq, Entry.file.injEq] at hino
      subst hino
      rw [hsame]
      exact fun h => hfresh ns' hns' _ h rfl
  · intro ns hns ino hino
    obtain ⟨ns', hns', hsame, -⟩ := Fs.Outcome.of_link_of_ne hne hns
    rw [Fs.lookup_link, Change.lookup_link] at hino
    rw [hsame]
    split at hino
    · rw [Option.some.injEq, Entry.file.injEq] at hino
      subst hino
      exact fun h => hfresh ns' hns' _ h rfl
    · have hcurrent : fs.current.lookup scratch = none := hnone
      rw [hcurrent] at hino
      cases hino

/-- Opening the scratch file. -/
theorem create {ino : Nat} (hguards : Guards good target scratch fs)
    (hne : target ≠ scratch)
    (hcreate : fs.create scratch = some (fs', ino)) :
    Guards good target scratch fs' := by
  rcases Fs.create_spec hcreate with ⟨rfl, hino⟩ | ⟨rfl, -, hnone, -⟩
  · exact hguards.setData hino
  · exact hguards.link hne hnone

/-- Moving a synced and good scratch file to the target. -/
theorem rename {ino : Nat} (hguards : Guards good target scratch fs)
    (hne : scratch ≠ target)
    (hscratch : fs.lookup scratch = some (.file ino))
    (hgood : fs.synced ino = true ∧ good (fs.data ino))
    (hrename : fs.rename scratch target = some fs') :
    Guards good target scratch fs' := by
  have hmissing : fs'.lookup scratch = none :=
    Fs.lookup_rename_src hrename hne
  have hcontents : fs'.synced = fs.synced ∧ fs'.data = fs.data := by
    obtain ⟨-, -, rfl, -⟩ := Fs.rename_spec hrename
    exact ⟨rfl, rfl⟩
  constructor
  · intro ns hns i hi
    rw [hcontents.1, hcontents.2]
    rcases Fs.Outcome.of_rename hrename hne hns with hold | ⟨htarget, -⟩
    · exact hguards.sealed ns hold i hi
    · rw [htarget, hscratch, Option.some.injEq, Entry.file.injEq] at hi
      exact hi ▸ hgood
  · intro ns hns i hi
    rcases Fs.Outcome.of_rename hrename hne hns with hold | ⟨-, hnone⟩
    · exact hguards.apart ns hold i hi
    · rw [hnone] at hi
      cases hi
  · intro ns hns i hi
    rw [hmissing] at hi
    cases hi

/-- A crash. -/
theorem crash {kept : List Bool} {lost : Nat → List UInt8}
    (hguards : Guards good target scratch fs) :
    Guards good target scratch (fs.crash kept lost) := by
  have hleft := fs.outcome_of_crash kept lost
  constructor
  · intro ns hns ino hino
    rw [hns.of_crash] at hino
    obtain ⟨hsynced, hgood⟩ := hguards.sealed _ hleft ino hino
    exact ⟨rfl, (Fs.data_crash_of_synced hsynced kept lost).symm ▸ hgood⟩
  · intro ns hns
    rw [hns.of_crash]
    exact hguards.apart _ hleft
  · intro ns hns
    rw [hns.of_crash]
    exact hguards.apart _ hleft

end Guards
end CrashFs
