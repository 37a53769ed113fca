import Kasou.MachineIdentifier.Concurrent
import Kasou.MachineIdentifier.Recovery

/-!
# Any number of calls at once

A host boots any number of virtual machines at the same time, some of them for
the first time and others not.  Each has its own path, and the calls take turns
on the one file system in any order.  When no scratch name is another machine's
scratch name or path, each call recovers as if it were alone: what another call
changes is neither at its path nor in its scratch file.
-/

namespace Kasou.MachineIdentifier

open CrashFs

variable {ι κ : Type}

/-- Calls on one file system, one for each member of `κ`. -/
structure Fleet (ι κ : Type) where
  fs : Fs Path
  calls : κ → Call ι

namespace Fleet

/-- All calls are made. -/
def start (fs : Fs Path) (fresh : κ → ι) : Fleet ι κ :=
  ⟨fs, fun i => .probe (fresh i)⟩

variable [DecidableEq κ]

/-- One call takes a step; the number bounds the bytes of a write. -/
def step (V : VZGenericMachineIdentifier ι) (path : κ → Path)
    (s : Fleet ι κ) (turn : κ × Nat) : Fleet ι κ :=
  let next := (s.calls turn.1).advance V (path turn.1) s.fs turn.2
  ⟨next.1, Function.update s.calls turn.1 next.2⟩

/-- The calls take turns. -/
def run (V : VZGenericMachineIdentifier ι) (path : κ → Path)
    (s : Fleet ι κ) (schedule : List (κ × Nat)) : Fleet ι κ :=
  schedule.foldl (step V path) s

/-- The turns that a call has had. -/
def turns (i : κ) (schedule : List (κ × Nat)) : Nat :=
  schedule.countP fun turn => turn.1 = i

variable {V : VZGenericMachineIdentifier ι} {path : κ → Path}

theorem remaining_run_le (V : VZGenericMachineIdentifier ι) (path : κ → Path)
    (s : Fleet ι κ) (schedule : List (κ × Nat)) (i : κ) :
    ((s.run V path schedule).calls i).remaining V (path i) ≤
      (s.calls i).remaining V (path i) - turns i schedule := by
  induction schedule generalizing s with
  | nil => exact le_rfl
  | cons turn rest ih =>
      obtain ⟨j, n⟩ := turn
      have hrest := ih (s.step V path (j, n))
      refine hrest.trans ?_
      by_cases hturn : j = i
      · subst hturn
        have hle := (s.calls j).remaining_advance_le V (path j) s.fs n
        have hself : (s.step V path (j, n)).calls j =
            ((s.calls j).advance V (path j) s.fs n).2 :=
          Function.update_self _ _ _
        rw [hself, turns, turns, List.countP_cons_of_pos (by simp)]
        omega
      · have hother : (s.step V path (j, n)).calls i = s.calls i :=
          Function.update_of_ne (Ne.symm hturn) _ _
        rw [hother, turns, turns,
          List.countP_cons_of_neg (by simpa using hturn)]

/-! ## Calls that keep apart -/

/-- The names that the calls use. -/
def names (path : κ → Path) (k : Path) : Prop :=
  ∃ i, k = path i ∨ k = tmp (path i)

omit [DecidableEq κ] in
theorem names_path (path : κ → Path) (i : κ) : names path (path i) :=
  ⟨i, Or.inl rfl⟩

omit [DecidableEq κ] in
theorem names_tmp (path : κ → Path) (i : κ) : names path (tmp (path i)) :=
  ⟨i, Or.inr rfl⟩

/-- The machines have different paths without empty components, and no scratch
name is another machine's scratch name or path. -/
structure KeepApart (path : κ → Path) : Prop where
  paths : ∀ i j, i ≠ j → path i ≠ path j
  scratch : ∀ i j, i ≠ j → tmp (path i) ≠ path j
  scratches : ∀ i j, i ≠ j → tmp (path i) ≠ tmp (path j)
  named : ∀ i, (path i).Named

/-- Every call recovers, and all that has changed since `fs₀` is at the names
that the calls use. -/
structure Recovers (V : VZGenericMachineIdentifier ι) (path : κ → Path)
    (id : κ → ι) (fs₀ : Fs Path) (s : Fleet ι κ) : Prop where
  ready : ∀ i, Ready (path i) s.fs
  calls : ∀ i, (s.calls i).Recovering V (path i) (id i) s.fs
  unlinked : s.fs.Unlinked (names path)
  untouched : ∀ k, ¬ names path k → s.fs.lookup k = fs₀.lookup k

end Fleet

variable {V : VZGenericMachineIdentifier ι} {path : Path} {id : ι}
  {fs fs' : Fs Path} {call : Call ι}

/-- A call that recovers finds no directory at its path. -/
theorem Call.Recovering.passable (h : call.Recovering V path id fs)
    (hready : Ready path fs) (hdone : ¬ call.Finished) :
    Passable path fs.current := by
  have hfile : ∀ bytes, fs.read path = some bytes →
      fs.lookup path ≠ some .dir := by
    intro bytes hread
    obtain ⟨ino, hino, -⟩ := Fs.read_eq_some_iff.mp hread
    rw [hino]
    nofun
  have habsent : fs.lookup path = none → fs.lookup path ≠ some .dir := by
    intro hnone
    rw [hnone]
    nofun
  refine ⟨fun d hd ino => ?_, hready.scratch, ?_⟩
  · have hdir : fs.current.lookup d = some .dir := hready.inPlace d hd
    rw [hdir]
    nofun
  · change fs.lookup path ≠ some .dir
    cases call with
    | probe fresh =>
        rcases h with hread | ⟨hnone, -⟩
        · exact hfile _ hread
        · exact habsent hnone
    | read => exact hfile _ h
    | mkdir id' d rest => exact habsent h.2.1
    | create id' => exact habsent (h.1.lookup_eq_none hdone)
    | write id' ino off => exact habsent (h.1.lookup_eq_none hdone)
    | sync id' ino => exact habsent (h.1.lookup_eq_none hdone)
    | rename id' => exact habsent (h.1.lookup_eq_none hdone)
    | done result => exact (hdone ⟨result, rfl⟩).elim

/-- Changes that are not about the path or its scratch name leave a call
recovering. -/
theorem Call.Recovering.frame {path' : Path} {names : Path → Prop}
    (h : call.Recovering V path id fs) (hframe : Frame names path' fs fs')
    (hname : names path) (hscratch : names (tmp path)) (hpath : path ≠ path')
    (hpath' : path ≠ tmp path') (htmp : tmp path ≠ path')
    (htmp' : tmp path ≠ tmp path') : call.Recovering V path id fs' := by
  have hread := hframe.read_eq hname hpath hpath'
  have hlookup := hframe.lookup path hpath hpath'
  have hcourse : call.OnCourse V path id fs ∧ Ready path fs →
      call.OnCourse V path id fs' ∧ Ready path fs' := by
    rintro ⟨hcourse, hready⟩
    exact ⟨hcourse.frame hframe hname hscratch hpath hpath' htmp htmp',
      hready.frame hframe⟩
  cases call with
  | probe fresh =>
      rcases h with hstored | ⟨hnone, hfresh⟩
      · exact Or.inl (hread.trans hstored)
      · exact Or.inr ⟨hlookup.trans hnone, hfresh⟩
  | read => exact hread.trans h
  | mkdir id' d rest =>
      obtain ⟨hid, hnone, before, hsplit, hbefore⟩ := h
      refine ⟨hid, hlookup.trans hnone, before, hsplit, ?_⟩
      intro d' hd'
      exact (hframe.dirs d').mpr (hbefore d' hd')
  | create id' => exact hcourse h
  | write id' ino off => exact hcourse h
  | sync id' ino => exact hcourse h
  | rename id' => exact hcourse h
  | done result => exact ⟨h.1, hread.trans h.2⟩

namespace Fleet

variable [DecidableEq κ] {path : κ → Path} {id : κ → ι} {fs₀ : Fs Path}
  {s : Fleet ι κ}

theorem Recovers.step (h : Recovers V path id fs₀ s) (hapart : KeepApart path)
    (turn : κ × Nat) : Recovers V path id fs₀ (s.step V path turn) := by
  obtain ⟨i, n⟩ := turn
  by_cases hdone : (s.calls i).Finished
  · -- a call that has its result stays as it is
    obtain ⟨result, hresult⟩ := hdone
    have hsame : s.step V path (i, n) = s := by
      have hadvance : (s.calls i).advance V (path i) s.fs n =
          (s.fs, s.calls i) := by
        rw [hresult]
        rfl
      rw [Fleet.step, hadvance, Function.update_eq_self]
    rw [hsame]
    exact h
  · have hpass := (h.calls i).passable (h.ready i) hdone
    have hself := (h.calls i).advance (hapart.named i) hpass n
    obtain ⟨result, hstep⟩ :=
      (s.calls i).advance_step V (path i) s.fs n hdone
    obtain ⟨hframe, hunlinked⟩ := hstep.frame (h.calls i).prepared
      (h.ready i) h.unlinked (names_tmp path i)
    refine ⟨fun j => (h.ready j).frame hframe, fun j => ?_, hunlinked, ?_⟩
    · by_cases hturn : j = i
      · subst hturn
        have hcall : (s.step V path (j, n)).calls j =
            ((s.calls j).advance V (path j) s.fs n).2 :=
          Function.update_self _ _ _
        rw [hcall]
        exact hself
      · have hcall : (s.step V path (i, n)).calls j = s.calls j :=
          Function.update_of_ne hturn _ _
        rw [hcall]
        exact (h.calls j).frame hframe (names_path path j)
          (names_tmp path j) (hapart.paths j i hturn)
          (hapart.scratch i j (Ne.symm hturn)).symm
          (hapart.scratch j i hturn) (hapart.scratches j i hturn)
    · intro k hk
      have hpath : k ≠ path i := fun heq => hk ⟨i, Or.inl heq⟩
      have htmp : k ≠ tmp (path i) := fun heq => hk ⟨i, Or.inr heq⟩
      exact (hframe.lookup k hpath htmp).trans (h.untouched k hk)

theorem Recovers.run (h : Recovers V path id fs₀ s) (hapart : KeepApart path)
    (schedule : List (κ × Nat)) :
    Recovers V path id fs₀ (s.run V path schedule) := by
  induction schedule generalizing s with
  | nil => exact h
  | cons turn rest ih => exact ih (h.step hapart turn)

end Fleet
end Kasou.MachineIdentifier
