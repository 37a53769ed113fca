import Kasou.Config.Coverage
import Kasou.MachineIdentifier.Scratch

/-!
# The identifier of a build

A build calls `load_or_create_machine_identifier` once, and its model takes
what the host answers to the call as a whole, with what exists afterwards.  A
call that is made step by step and undisturbed ends as the build's model does
on some host: one that sees the file system as it was before the call, and on
which each file has one name.  On such a host the only path that writing the
identifier's file takes away is that of its scratch file.
-/

namespace Kasou

open Checks CrashFs MachineIdentifier TransitionSystem

/-! ## Files with one name -/

/-- Writing an identifier file makes its path and the directories of it exist,
takes away its scratch file, and leaves the other paths alone. -/
def Host.OneName (host : Host) : Prop :=
  ∀ path k, host.renamed path k = true ↔
    k = path ∨ k ∈ directories path ∨ k ≠ tmp path ∧ host.present k = true

/-- Of the paths that are there, only the scratch file's is taken away. -/
theorem Host.OneName.renamed_iff {host : Host} {path file : Path}
    (h : host.OneName) (hmissing : host.present path = false)
    (hfile : host.present file = true) :
    host.renamed path file = true ↔ file ≠ tmp path := by
  rw [h path file]
  constructor
  · rintro (rfl | hdir | ⟨hne, -⟩)
    · rw [hmissing] at hfile
      cases hfile
    · exact (ne_of_mem_directories hdir).2.symm
    · exact hne
  · intro hne
    exact Or.inr (Or.inr ⟨hne, hfile⟩)

theorem presentAtBoot_of_missing {host : Host} {config : VmConfig}
    {path : Path} (hpath : config.machineIdentifierPath = some path)
    (hmissing : host.present path = false) :
    config.presentAtBoot host = host.renamed path := by
  rw [VmConfig.presentAtBoot, hpath, Host.afterIdentifier,
    if_neg (by simp [hmissing])]

/-- On a host on which each file has one name, the files of a valid
configuration are kept when none of them is the identifier's scratch file,
unless that is a disk which the boot loader makes again as its variable
store. -/
theorem filesKept_iff_of_oneName {host : Host} {config : VmConfig}
    (hone : host.OneName) (hvalid : config.validate host.present = .ok ()) :
    config.FilesKept host ↔ ∀ path,
      config.machineIdentifierPath = some path → host.present path = false →
        tmp path ∉ config.boot.files ∧
        (tmp path ∈ config.disks.map DiskConfig.path →
          config.presentAtDisks host (tmp path) = true) := by
  obtain ⟨-, -, -, hboot, hdisks⟩ := VmConfig.validate_eq_ok_iff.mp hvalid
  have hfiles := hboot.present_of_mem
  refine forall_congr' fun path => ?_
  refine forall_congr' fun hpath => ?_
  refine forall_congr' fun hmissing => ?_
  have hatBoot := presentAtBoot_of_missing hpath hmissing
  constructor
  · rintro ⟨hkeptFiles, hkeptDisks⟩
    constructor
    · intro hmem
      have hkept := hkeptFiles _ hmem
      rw [hatBoot, hone.renamed_iff hmissing (hfiles _ hmem)] at hkept
      exact hkept rfl
    · intro hmem
      obtain ⟨disk, hdisk, hsame⟩ := List.mem_map.mp hmem
      rw [← hsame]
      exact hkeptDisks disk hdisk
  · rintro ⟨hscratch, hstore⟩
    constructor
    · intro file hfile
      rw [hatBoot, hone.renamed_iff hmissing (hfiles file hfile)]
      rintro rfl
      exact hscratch hfile
    · intro disk hdisk
      by_cases hsame : disk.path = tmp path
      · rw [hsame]
        exact hstore (List.mem_map.mpr ⟨disk, hdisk, hsame⟩)
      · refine host.afterBootLoader_of_present _ ?_
        rw [hatBoot, hone.renamed_iff hmissing (hdisks disk hdisk)]
        exact hsame

namespace MachineIdentifier

variable {ι : Type} {V : VZGenericMachineIdentifier ι} {path : Path}
  {fresh : ι}

/-! ## Hosts that see a file system -/

/-- The host answers as the file system is, if the probe for the path may miss
a file. -/
structure HostSees (path : Path) (fs : Fs Path) (host : Host) : Prop where
  present : ∀ k, k ≠ path → host.present k = (fs.lookup k).isSome
  probed : host.present path = true → fs.lookup path ≠ none
  oneName : host.OneName

/-- What exists in the file system, with the answer to the probe. -/
def presentIn (path : Path) (fs : Fs Path) (found : Bool) (k : Path) : Bool :=
  if k = path then found else (fs.lookup k).isSome

/-- A host that sees the file system, and on which every operation
succeeds. -/
def hostSeeing (path : Path) (fs : Fs Path) (found : Bool) : Host :=
  { Host.quiet (presentIn path fs found) with
    renamed := fun path' k => k = path' ∨ k ∈ directories path' ∨
      k ≠ tmp path' ∧ presentIn path fs found k = true }

theorem hostSees_hostSeeing {fs : Fs Path} {found : Bool}
    (hfound : found = true → fs.lookup path ≠ none) :
    HostSees path fs (hostSeeing path fs found) where
  present k hk := if_neg hk
  probed h := hfound ((if_pos rfl).symm.trans h)
  oneName path' k := by
    simp only [hostSeeing, Host.quiet, decide_eq_true_eq]

/-- The host when the probe has found no file. -/
theorem hostSees_missing (path : Path) (fs : Fs Path) :
    HostSees path fs (hostSeeing path fs false) :=
  hostSees_hostSeeing nofun

/-- The directories are in place, and the other paths are as they were but for
the scratch file's. -/
structure Laid (path : Path) (fs₀ fs : Fs Path) : Prop where
  inPlace : ∀ d ∈ directories path, fs.lookup d = some .dir
  same : ∀ k, k ∉ directories path → k ≠ tmp path →
    fs.lookup k = fs₀.lookup k

variable {fs₀ fs fs' : Fs Path}

/-- Changes of the scratch file only. -/
theorem Laid.frame (h : Laid path fs₀ fs)
    (hsame : ∀ k, k ≠ tmp path → fs'.lookup k = fs.lookup k) :
    Laid path fs₀ fs' where
  inPlace d hd :=
    (hsame d (ne_of_mem_directories hd).2.symm).trans (h.inPlace d hd)
  same k hk htmp := (hsame k htmp).trans (h.same k hk htmp)

/-- After the rename, what exists is what the host says. -/
theorem Laid.renamed (h : Laid path fs₀ fs)
    (hrename : fs.rename (tmp path) path = some fs') :
    (hostSeeing path fs₀ false).renamed path =
      fun k => (fs'.lookup k).isSome := by
  obtain ⟨ino, hino, -⟩ := Fs.rename_spec hrename
  have hne := tmp_ne_of_lookup hino
  funext k
  rw [Bool.eq_iff_iff, (hostSees_missing path fs₀).oneName path k]
  by_cases hpath : k = path
  · rw [hpath, Fs.lookup_rename_dst hrename hino]
    exact iff_of_true (Or.inl rfl) rfl
  by_cases htmp : k = tmp path
  · rw [htmp, Fs.lookup_rename_src hrename hne]
    refine iff_of_false ?_ nofun
    rintro (heq | hdir | ⟨hself, -⟩)
    · exact hne heq
    · exact (ne_of_mem_directories hdir).2 rfl
    · exact hself rfl
  rw [Fs.lookup_rename_of_ne hrename htmp hpath]
  by_cases hdir : k ∈ directories path
  · rw [h.inPlace k hdir]
    exact iff_of_true (Or.inr (Or.inl hdir)) rfl
  · rw [h.same k hdir htmp, (hostSees_missing path fs₀).present k hpath]
    simp [hpath, htmp, hdir]

end MachineIdentifier
end Kasou
