import Kasou.Library.CrashFs

/-!
# Properties of the directories that survive every crash

What is to hold of the directory entries whatever crash comes must hold of
every outcome.  An operation makes at most one change of the entries, and a
property that this change keeps is kept by the operation, now and after every
crash.
-/

namespace CrashFs

variable {κ : Type*} [DirTree κ] [DecidableEq κ]

namespace Fs

/-- The property holds now, and after every crash. -/
def Always (P : Namespace κ → Prop) (fs : Fs κ) : Prop :=
  ∀ ns, fs.Outcome ns → P ns

section Always

variable {P : Namespace κ → Prop} {fs : Fs κ}

theorem Always.current (h : fs.Always P) : P fs.current :=
  h fs.current fs.outcome_current

theorem Always.crash (h : fs.Always P) (kept : List Bool)
    (lost : Nat → List UInt8) : (fs.crash kept lost).Always P := by
  intro ns hns
  rw [hns.of_crash]
  exact h _ (fs.outcome_of_crash kept lost)

end Always

/-! ## One change at a time -/

/-- The entries are the same, or one change of `C` has been made. -/
inductive Changes (C : Change κ → Prop) (fs fs' : Fs κ) : Prop where
  | same (hdisk : fs'.disk = fs.disk) (hpending : fs'.pending = fs.pending)
  | change (c : Change κ) (hc : C c) (hdisk : fs'.disk = fs.disk)
      (hpending : fs'.pending = fs.pending ++ [c])

section Changes

variable {C : Change κ → Prop} {fs fs' : Fs κ}

theorem Changes.refl (C : Change κ → Prop) (fs : Fs κ) : fs.Changes C fs :=
  .same rfl rfl

theorem Changes.of_mkdir {k : κ} (hC : C (.mkdir k))
    (h : fs.mkdir k = some fs') : fs.Changes C fs' := by
  rcases mkdir_spec h with ⟨rfl, -⟩ | ⟨rfl, -⟩
  · exact .refl C fs'
  · exact .change _ hC rfl rfl

theorem Changes.of_create {k : κ} {ino : Nat} (hC : ∀ i, C (.link k i))
    (h : fs.create k = some (fs', ino)) : fs.Changes C fs' := by
  rcases create_spec h with ⟨rfl, -⟩ | ⟨rfl, -⟩
  · exact .same rfl rfl
  · exact .change _ (hC fs.next) rfl rfl

theorem Changes.of_rename {src dst : κ} (hC : ∀ i, C (.rename src dst i))
    (h : fs.rename src dst = some fs') : fs.Changes C fs' := by
  obtain ⟨ino, -, rfl, -⟩ := rename_spec h
  exact .change _ (hC ino) rfl rfl

/-- A property of the present entries that each change of `C` keeps. -/
theorem Changes.current {P : Namespace κ → Prop} (h : fs.Changes C fs')
    (hkeeps : ∀ c ns, C c → P ns → P (c.apply ns)) (hP : P fs.current) :
    P fs'.current := by
  cases h with
  | same hdisk hpending =>
      rw [Fs.current, hdisk, hpending]
      exact hP
  | change c hc hdisk hpending =>
      rw [Fs.current, hdisk, hpending, List.foldl_concat]
      exact hkeeps c _ hc hP

/-- A property that each change of `C` keeps is kept after every crash. -/
theorem Changes.always {P : Namespace κ → Prop} (h : fs.Changes C fs')
    (hkeeps : ∀ c ns, C c → P ns → P (c.apply ns)) (hP : fs.Always P) :
    fs'.Always P := by
  rintro ns ⟨kept, hkept, rfl⟩
  cases h with
  | same hdisk hpending =>
      rw [hpending] at hkept
      rw [hdisk]
      exact hP _ ⟨kept, hkept, rfl⟩
  | change c hc hdisk hpending =>
      rw [hpending] at hkept
      rw [hdisk]
      obtain ⟨front, hfront, heq | heq⟩ := sublist_concat hkept fs.disk
      · rw [heq]
        exact hP _ ⟨front, hfront, rfl⟩
      · rw [heq]
        exact hkeeps c _ hc (hP _ ⟨front, hfront, rfl⟩)

end Changes
end Fs
end CrashFs
