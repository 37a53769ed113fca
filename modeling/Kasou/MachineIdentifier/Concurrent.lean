import Kasou.MachineIdentifier.Advance
import Kasou.MachineIdentifier.Whole

/-!
# Two calls at once

Two virtual machines are created at the same time, each with its own path for
its machine identifier.  The calls share the file system and take turns in any
order.  Each derives the name of its scratch file from its path by replacing
the extension, so the calls are independent exactly when no directory has a
scratch name, neither scratch name is the other's scratch name or path, and
the scratch names are not two names of one file.
-/

namespace Kasou.MachineIdentifier

open CrashFs

variable {ι : Type}

/-- The two calls. -/
inductive Side where
  | left
  | right
  deriving DecidableEq

/-- The other call. -/
def Side.other : Side → Side
  | .left => .right
  | .right => .left

@[simp] theorem Side.other_other (side : Side) : side.other.other = side := by
  cases side <;> rfl

theorem Side.other_ne (side : Side) : side.other ≠ side := by
  cases side <;> nofun

theorem Side.eq_or_eq_other (side side' : Side) :
    side' = side ∨ side' = side.other := by
  cases side <;> cases side' <;> simp [other]

/-- Two calls on one file system. -/
structure Pair (ι : Type) where
  fs : Fs Path
  calls : Side → Call ι

namespace Pair

/-- Both calls are made. -/
def start (fs : Fs Path) (fresh : Side → ι) : Pair ι :=
  ⟨fs, fun side => .probe (fresh side)⟩

/-- One call takes a step; the number bounds the bytes of a write. -/
def step (V : VZGenericMachineIdentifier ι) (path : Side → Path)
    (s : Pair ι) (turn : Side × Nat) : Pair ι :=
  let next := (s.calls turn.1).advance V (path turn.1) s.fs turn.2
  ⟨next.1, Function.update s.calls turn.1 next.2⟩

/-- The calls take turns. -/
def run (V : VZGenericMachineIdentifier ι) (path : Side → Path)
    (s : Pair ι) (schedule : List (Side × Nat)) : Pair ι :=
  schedule.foldl (step V path) s

/-- Both calls have their results. -/
def Finished (s : Pair ι) : Prop := ∀ side, (s.calls side).Finished

theorem finished_of_side {s : Pair ι} {side : Side}
    (hself : (s.calls side).Finished)
    (hother : (s.calls side.other).Finished) : s.Finished := by
  intro side'
  rcases side.eq_or_eq_other side' with rfl | rfl
  · exact hself
  · exact hother

theorem not_finished_start (fs : Fs Path) (fresh : Side → ι) (side : Side) :
    ¬ ((start fs fresh).calls side).Finished := by
  rintro ⟨result, h⟩
  cases h

variable {V : VZGenericMachineIdentifier ι} {path : Side → Path}

theorem run_append (s : Pair ι) (as bs : List (Side × Nat)) :
    s.run V path (as ++ bs) = (s.run V path as).run V path bs :=
  List.foldl_append

theorem calls_step_self (V : VZGenericMachineIdentifier ι)
    (path : Side → Path) (s : Pair ι) (side : Side) (n : Nat) :
    (s.step V path (side, n)).calls side =
      ((s.calls side).advance V (path side) s.fs n).2 :=
  Function.update_self _ _ _

theorem calls_step_other (V : VZGenericMachineIdentifier ι)
    (path : Side → Path) (s : Pair ι) (side : Side) (n : Nat) :
    (s.step V path (side, n)).calls side.other = s.calls side.other :=
  Function.update_of_ne side.other_ne _ _

/-- The turns that a call has had. -/
def turns (side : Side) (schedule : List (Side × Nat)) : Nat :=
  schedule.countP fun turn => turn.1 = side

theorem remaining_run_le (V : VZGenericMachineIdentifier ι)
    (path : Side → Path) (s : Pair ι) (schedule : List (Side × Nat))
    (side : Side) :
    ((s.run V path schedule).calls side).remaining V (path side) ≤
      (s.calls side).remaining V (path side) - turns side schedule := by
  induction schedule generalizing s with
  | nil => exact le_rfl
  | cons turn rest ih =>
      obtain ⟨side', n⟩ := turn
      have hrest := ih (s.step V path (side', n))
      refine hrest.trans ?_
      rcases side.eq_or_eq_other side' with rfl | rfl
      · have hstep := (s.calls side').remaining_advance_le V (path side')
          s.fs n
        rw [calls_step_self, turns, turns,
          List.countP_cons_of_pos (by simp)]
        omega
      · have hsame := calls_step_other V path s side.other n
        rw [Side.other_other] at hsame
        rw [hsame, turns, turns,
          List.countP_cons_of_neg (by simpa using side.other_ne)]

/-- Each call finishes once it has had enough turns. -/
theorem finished_of_turns (fs : Fs Path) (fresh : Side → ι)
    (schedule : List (Side × Nat))
    (henough : ∀ side,
      (Call.probe (fresh side)).remaining V (path side) ≤
        turns side schedule) :
    ((start fs fresh).run V path schedule).Finished := by
  intro side
  have hle := remaining_run_le V path (start fs fresh) schedule side
  have hnone : ((start fs fresh).calls side).remaining V (path side) -
      turns side schedule = 0 := Nat.sub_eq_zero_of_le (henough side)
  rw [hnone] at hle
  exact Call.finished_of_remaining (Nat.le_zero.mp hle)

/-- Turns of one call leave the other as it is. -/
theorem calls_run_other (s : Pair ι) {side : Side}
    {schedule : List (Side × Nat)}
    (hturns : ∀ turn ∈ schedule, turn.1 = side) :
    (s.run V path schedule).calls side.other = s.calls side.other := by
  induction schedule generalizing s with
  | nil => rfl
  | cons turn rest ih =>
      obtain ⟨side', n⟩ := turn
      rw [List.forall_mem_cons] at hturns
      obtain rfl : side' = side := hturns.1
      exact (ih (s.step V path (side', n)) hturns.2).trans
        (calls_step_other V path s side' n)

/-! ## Independent calls -/

/-- Neither scratch name is the other's scratch name or path. -/
def Apart (path : Side → Path) : Prop :=
  ∀ side, tmp (path side) ≠ path side.other ∧
    tmp (path side) ≠ tmp (path side.other)

theorem path_other_ne (hne : path .left ≠ path .right) (side : Side) :
    path side.other ≠ path side := by
  cases side with
  | left => exact hne.symm
  | right => exact hne

/-- The names that the two calls use. -/
def names (path : Side → Path) (k : Path) : Prop :=
  ∃ side, k = path side ∨ k = tmp (path side)

theorem names_path (path : Side → Path) (side : Side) :
    names path (path side) := ⟨side, Or.inl rfl⟩

theorem names_tmp (path : Side → Path) (side : Side) :
    names path (tmp (path side)) := ⟨side, Or.inr rfl⟩

/-- Both calls are on course to persist and return their own identifiers. -/
structure OnCourse (V : VZGenericMachineIdentifier ι) (path : Side → Path)
    (fresh : Side → ι) (s : Pair ι) : Prop where
  ready : ∀ side, Ready (path side) s.fs
  calls : ∀ side,
    (s.calls side).OnCourse V (path side) (fresh side) s.fs
  unlinked : s.fs.Unlinked (names path)

theorem OnCourse.step {fresh : Side → ι} {s : Pair ι}
    (h : OnCourse V path fresh s) (hne : path .left ≠ path .right)
    (hapart : Apart path) (turn : Side × Nat) :
    OnCourse V path fresh (s.step V path turn) := by
  obtain ⟨side, n⟩ := turn
  obtain ⟨hcourse, hframe, hunlinked⟩ :=
    (h.calls side).advance (h.ready side) h.unlinked (names_tmp path side) n
  have hpaths := path_other_ne hne side
  obtain ⟨hpath, htmp⟩ := hapart side
  have hother := (hapart side.other).1
  rw [Side.other_other] at hother
  refine ⟨fun side' => (h.ready side').frame hframe, fun side' => ?_,
    hunlinked⟩
  rcases side.eq_or_eq_other side' with rfl | rfl
  · rw [calls_step_self]
    exact hcourse
  · rw [calls_step_other]
    exact (h.calls side.other).frame hframe (names_path path _)
      (names_tmp path _) hpaths hpath.symm hother htmp.symm

theorem OnCourse.run {fresh : Side → ι} {s : Pair ι}
    (h : OnCourse V path fresh s) (hne : path .left ≠ path .right)
    (hapart : Apart path) (schedule : List (Side × Nat)) :
    OnCourse V path fresh (s.run V path schedule) := by
  induction schedule generalizing s with
  | nil => exact h
  | cons turn rest ih => exact ih (h.step hne hapart turn)

theorem onCourse_start {fs : Fs Path} (fresh : Side → ι)
    (hready : ∀ side, Ready (path side) fs ∧ fs.lookup (path side) = none)
    (hunlinked : fs.Unlinked (names path)) :
    OnCourse V path fresh (start fs fresh) :=
  ⟨fun side => (hready side).1, fun side => ⟨rfl, (hready side).2⟩, hunlinked⟩

/-! ## What can go wrong -/

/-- A call on course reaches its rename when it alone takes turns, and keeps
its scratch file if there is one. -/
theorem exists_rename {P : Path → Prop} {s : Pair ι} {side : Side} {id : ι}
    (hready : Ready (path side) s.fs) (hscratch : P (tmp (path side)))
    (hunlinked : s.fs.Unlinked P)
    (h : (s.calls side).OnCourse V (path side) id s.fs)
    (hdone : ¬ (s.calls side).Finished) :
    ∃ schedule s', s.run V path schedule = s' ∧
      s'.calls side = .rename id ∧
      s'.calls side.other = s.calls side.other ∧
      Frame P (path side) s.fs s'.fs ∧
      s'.fs.Unlinked P ∧
      (∀ ino, s.fs.lookup (tmp (path side)) = some (.file ino) →
        s'.fs.lookup (tmp (path side)) = some (.file ino)) ∧
      (Call.rename id).OnCourse V (path side) id s'.fs := by
  generalize hm : (s.calls side).remaining V (path side) = m
  induction m using Nat.strong_induction_on generalizing s with
  | _ m ih =>
      by_cases hrename : ∃ id', s.calls side = .rename id'
      · obtain ⟨id', hid'⟩ := hrename
        obtain rfl : id' = id := by
          rw [hid'] at h
          exact h.1.1
        exact ⟨[], s, rfl, hid', rfl, .refl _ _ _, hunlinked,
          fun _ hino => hino, hid' ▸ h⟩
      · -- one step: the call is still on course and not done
        obtain ⟨answer, hstep⟩ := (s.calls side).advance_step V (path side)
          s.fs 0 hdone
        obtain ⟨hcourse, hframe, hunlinked'⟩ := h.advance hready hunlinked
          hscratch 0
        have hkept : ∀ ino,
            s.fs.lookup (tmp (path side)) = some (.file ino) →
              (s.step V path (side, 0)).fs.lookup (tmp (path side)) =
                some (.file ino) :=
          fun _ => hstep.lookup_tmp (not_exists.mp hrename)
        have hself := calls_step_self V path s side 0
        have hother := calls_step_other V path s side 0
        have hdone' : ¬ ((s.step V path (side, 0)).calls side).Finished := by
          rintro ⟨result, hresult⟩
          rw [hself] at hresult
          rw [hresult] at hstep hcourse
          rcases hstep.of_done with ⟨bytes, hread, -⟩ | ⟨id', hid', -⟩ |
            ⟨error, herror, -⟩
          · rw [Fs.read, h.lookup_eq_none hdone] at hread
            cases hread
          · exact hrename ⟨id', hid'⟩
          · have hok := hcourse.1
            rw [herror] at hok
            cases hok
        rw [← hself] at hcourse
        obtain ⟨rest, s', hrun, hcall, hcall', hframe', hunlinked'', hkept',
            hend⟩ := ih _
          (by rw [← hm, hself]; exact hstep.remaining_lt)
          (hready.frame hframe) hunlinked' hcourse hdone' rfl
        exact ⟨(side, 0) :: rest, s', hrun, hcall, hcall'.trans hother,
          hframe.trans hframe', hunlinked'',
          fun ino hino => hkept' ino (hkept ino hino), hend⟩

/-- A rename whose scratch file is there succeeds. -/
theorem step_rename {s : Pair ι} {side : Side} {id : ι} {ino : Nat}
    (hready : Ready (path side) s.fs)
    (hcall : s.calls side = .rename id)
    (hino : s.fs.lookup (tmp (path side)) = some (.file ino))
    (hnone : s.fs.lookup (path side) = none) :
    s.fs.rename (tmp (path side)) (path side) =
        some (s.step V path (side, 0)).fs ∧
      (s.step V path (side, 0)).calls side = .done (.ok id) ∧
      (s.step V path (side, 0)).calls side.other = s.calls side.other := by
  have hdir : s.fs.lookup (path side) ≠ some .dir := by
    rw [hnone]
    exact (Option.some_ne_none _).symm
  obtain ⟨fs', hrename⟩ := Fs.exists_rename hino hready.holds hdir
  have hadvance : (Call.rename id).advance V (path side) s.fs 0 =
      (fs', .done (.ok id)) :=
    Call.advance_of_step (congrArg (Option.map _) hrename)
  refine ⟨?_, ?_, calls_step_other V path s side 0⟩
  · rw [hrename, step, hcall, hadvance]
  · rw [calls_step_self, hcall, hadvance]

/-- The rename of a call on course leaves no scratch file. -/
theorem step_rename_onCourse {s : Pair ι} {side : Side} {id : ι}
    (hready : Ready (path side) s.fs)
    (hcall : s.calls side = .rename id)
    (h : (Call.rename id).OnCourse V (path side) id s.fs) :
    ((s.step V path (side, 0)).calls side).Finished ∧
      (s.step V path (side, 0)).calls side.other = s.calls side.other ∧
      (s.step V path (side, 0)).fs.lookup (tmp (path side)) = none := by
  obtain ⟨⟨-, ino, hino, -⟩, hnone⟩ := h
  obtain ⟨hrename, hself, hother⟩ := step_rename (V := V) hready hcall hino
    hnone
  exact ⟨⟨_, hself⟩, hother,
    Fs.lookup_rename_src hrename (tmp_ne_of_lookup hino)⟩

/-- A rename whose scratch file is gone fails. -/
theorem step_rename_missing {s : Pair ι} {side : Side} {id : ι}
    (hcall : s.calls side = .rename id)
    (hmissing : s.fs.lookup (tmp (path side)) = none) :
    (s.step V path (side, 0)).calls side =
      .done (.error (renameError (path side) notFound)) := by
  have hrename : s.fs.rename (tmp (path side)) (path side) = none := by
    cases h : s.fs.rename (tmp (path side)) (path side) with
    | none => rfl
    | some fs' =>
        obtain ⟨ino, hino, -⟩ := Fs.rename_spec h
        rw [hmissing] at hino
        cases hino
  have hstuck : (Call.rename id).step V (path side) s.fs
      ((Call.rename id).answer V 0) = none :=
    congrArg (Option.map _) hrename
  rw [calls_step_self, hcall, Call.advance, hstuck, Call.refusal,
    if_pos hmissing]
  rfl

/-- A call whose probe finds a file ends with what that file holds. -/
theorem step_found {s : Pair ι} {side : Side} {fresh : ι}
    {bytes : List UInt8} (hcall : s.calls side = .probe fresh)
    (hread : s.fs.read (path side) = some bytes) :
    ((s.run V path [(side, 0), (side, 0)]).calls side).Finished ∧
      (s.run V path [(side, 0), (side, 0)]).calls side.other =
        s.calls side.other ∧
      (s.run V path [(side, 0), (side, 0)]).fs = s.fs := by
  obtain ⟨ino, hino, -⟩ := Fs.read_eq_some_iff.mp hread
  have hprobe : (Call.probe fresh).advance V (path side) s.fs 0 =
      (s.fs, .read) :=
    Call.advance_of_step (by simp [Call.answer, Call.step, hino])
  have hload : Call.read.advance V (path side) s.fs 0 =
      (s.fs, .done (restore V (path side) bytes)) :=
    Call.advance_of_step (by simp [Call.answer, Call.step, hread])
  have hfirst : s.step V path (side, 0) =
      ⟨s.fs, Function.update s.calls side .read⟩ := by
    rw [step, hcall, hprobe]
  have hrun : s.run V path [(side, 0), (side, 0)] =
      ⟨s.fs, Function.update (Function.update s.calls side .read) side
        (.done (restore V (path side) bytes))⟩ := by
    rw [run, List.foldl_cons, List.foldl_cons, List.foldl_nil, hfirst, step]
    simp only [Function.update_self, hload]
  rw [hrun]
  exact ⟨⟨_, Function.update_self _ _ _⟩, by simp [side.other_ne], rfl⟩

/-- The parent directories of a path are in place. -/
structure Placed (path : Path) (fs : Fs Path) : Prop where
  holds : fs.current.holds path = true
  inPlace : ∀ d ∈ directories path, fs.lookup d = some .dir

theorem Placed.ready {path : Path} {fs : Fs Path} (h : Placed path fs)
    (hscratch : fs.lookup (tmp path) ≠ some .dir) : Ready path fs :=
  ⟨h.holds, h.inPlace, hscratch⟩

/-- In every run from the file system that finishes, both calls return an
identifier, and the bytes stored at each path are those of the identifier that
its call returned. -/
def Unmixed (V : VZGenericMachineIdentifier ι) (path : Side → Path)
    (fs : Fs Path) : Prop :=
  ∀ (fresh : Side → ι) (schedule : List (Side × Nat)),
    ((start fs fresh).run V path schedule).Finished →
    ∀ side, ∃ id,
      ((start fs fresh).run V path schedule).calls side = .done (.ok id) ∧
      ((start fs fresh).run V path schedule).fs.read (path side) =
        some (V.dataRepresentation id)

/-- No directory has a scratch name, neither scratch name is the other's
scratch name or path, and no two of the names stand for one file. -/
structure Separate (path : Side → Path) (fs : Fs Path) : Prop where
  scratch : ∀ side, fs.lookup (tmp (path side)) ≠ some .dir
  apart : Apart path
  unlinked : fs.Unlinked (names path)

variable {fs : Fs Path}

theorem Separate.ready (h : Separate path fs)
    (hplaced : ∀ side, Placed (path side) fs ∧ fs.lookup (path side) = none)
    (side : Side) : Ready (path side) fs ∧ fs.lookup (path side) = none :=
  ⟨(hplaced side).1.ready (h.scratch side), (hplaced side).2⟩

theorem unmixed_of_separate (hne : path .left ≠ path .right)
    (hplaced : ∀ side, Placed (path side) fs ∧ fs.lookup (path side) = none)
    (hseparate : Separate path fs) : Unmixed V path fs := by
  intro fresh schedule hfinished side
  obtain ⟨result, hresult⟩ := hfinished side
  have hstart := onCourse_start (V := V) fresh (hseparate.ready hplaced)
    hseparate.unlinked
  have hcourse := (hstart.run hne hseparate.apart schedule).calls side
  rw [hresult] at hcourse
  exact ⟨fresh side, by rw [hresult, hcourse.1], hcourse.2⟩

/-! ### A directory under the scratch name -/

/-- The call has found no file and has not created its scratch file, or it has
failed. -/
def Barred (path : Path) (fs : Fs Path) : Call ι → Prop
  | .probe _ => fs.lookup path = none
  | .mkdir _ d rest => ∀ d' ∈ d :: rest, d' ∈ directories path
  | .create _ => True
  | .done result => ∃ error, result = .error error
  | .read | .write _ _ _ | .sync _ _ | .rename _ => False

theorem barred_createDirAll (fs : Fs Path) {path : Path} (id : ι)
    {ds : List Path} (hds : ∀ d ∈ ds, d ∈ directories path) :
    Barred path fs (createDirAll id ds) := by
  cases ds with
  | nil => trivial
  | cons d rest => exact hds

/-- The scratch file cannot be created where there is a directory, so the call
gets no further and changes nothing. -/
theorem barred_step {path : Path} {fs fs' : Fs Path} {call call' : Call ι}
    {result : IoResult} (hstep : Call.Step V path fs call result fs' call')
    (hplaced : Placed path fs) (hdir : fs.lookup (tmp path) = some .dir)
    (h : Barred path fs call) : fs' = fs ∧ Barred path fs call' := by
  cases hstep with
  | found fresh hfound => exact absurd h hfound
  | missing fresh hmissing =>
      exact ⟨rfl, barred_createDirAll fs fresh fun _ hd => hd⟩
  | unseen fresh e =>
      exact ⟨rfl, barred_createDirAll fs fresh fun _ hd => hd⟩
  | load bytes hread => exact h.elim
  | mkdir id d rest fs' hmkdir =>
      obtain ⟨hd, hrest⟩ := List.forall_mem_cons.mp h
      rw [Fs.mkdir_of_lookup (hplaced.inPlace d hd)] at hmkdir
      exact ⟨(Option.some.inj hmkdir).symm, barred_createDirAll fs id hrest⟩
  | create id fs' ino hcreate =>
      have hdir' := (Fs.lookup_create_dir_iff hcreate (tmp path)).mpr hdir
      rw [Fs.lookup_create_self hcreate] at hdir'
      cases hdir'
  | write id ino off n hpos hbound => exact h.elim
  | writeZero id ino off => exact h.elim
  | sync id ino => exact h.elim
  | rename id fs' hrename => exact h.elim
  | fail call e error herror => exact ⟨rfl, error, rfl⟩

theorem barred_advance {path : Path} {fs : Fs Path} {call : Call ι}
    (hplaced : Placed path fs) (hdir : fs.lookup (tmp path) = some .dir)
    (h : Barred path fs call) (n : Nat) :
    (call.advance V path fs n).1 = fs ∧
      Barred path fs (call.advance V path fs n).2 := by
  by_cases hdone : call.Finished
  · obtain ⟨result, rfl⟩ := hdone
    exact ⟨rfl, h⟩
  · obtain ⟨result, hstep⟩ := call.advance_step V path fs n hdone
    exact barred_step hstep hplaced hdir h

/-- While it alone takes turns, the call gets no further. -/
theorem barred_run {s : Pair ι} {side : Side} {schedule : List (Side × Nat)}
    (hturns : ∀ turn ∈ schedule, turn.1 = side)
    (hplaced : Placed (path side) s.fs)
    (hdir : s.fs.lookup (tmp (path side)) = some .dir)
    (h : Barred (path side) s.fs (s.calls side)) :
    Barred (path side) s.fs ((s.run V path schedule).calls side) := by
  induction schedule generalizing s with
  | nil => exact h
  | cons turn rest ih =>
      obtain ⟨side', n⟩ := turn
      rw [List.forall_mem_cons] at hturns
      obtain rfl : side' = side := hturns.1
      obtain ⟨hsame, hbarred⟩ := barred_advance (V := V) hplaced hdir h n
      have hfs : (s.step V path (side', n)).fs = s.fs := hsame
      have hcall := calls_step_self V path s side' n
      have hrest := ih (s := s.step V path (side', n)) hturns.2
      rw [hfs, hcall] at hrest
      exact hrest hplaced hdir hbarred

/-- All turns that a call needs, one after another. -/
def turnsAlone (V : VZGenericMachineIdentifier ι) (path : Side → Path)
    (fresh : Side → ι) (side : Side) : List (Side × Nat) :=
  List.replicate ((Call.probe (fresh side)).remaining V (path side)) (side, 0)

theorem of_mem_turnsAlone (V : VZGenericMachineIdentifier ι)
    (path : Side → Path) (fresh : Side → ι) (side : Side) :
    ∀ turn ∈ turnsAlone V path fresh side, turn.1 = side := by
  intro turn hturn
  rw [List.eq_of_mem_replicate hturn]

/-- Both calls finish when one goes after the other. -/
theorem finished_one_by_one (fs : Fs Path) (fresh : Side → ι) (side : Side) :
    ((start fs fresh).run V path (turnsAlone V path fresh side ++
      turnsAlone V path fresh side.other)).Finished := by
  apply finished_of_turns
  intro side'
  have hself : turns side' (turnsAlone V path fresh side') =
      (Call.probe (fresh side')).remaining V (path side') := by
    simp [turns, turnsAlone, List.countP_replicate]
  rw [turns, List.countP_append, ← turns, ← turns]
  rcases side.eq_or_eq_other side' with rfl | rfl
  · omega
  · omega

/-- A call that goes first fails when a directory has its scratch name. -/
theorem not_unmixed_of_directory (fresh : Side → ι) {side : Side}
    (hplaced : Placed (path side) fs) (habsent : fs.lookup (path side) = none)
    (hdir : fs.lookup (tmp (path side)) = some .dir) :
    ¬ Unmixed V path fs := by
  intro hunmixed
  obtain ⟨id, hok, -⟩ := hunmixed fresh _
    (finished_one_by_one fs fresh side) side
  -- the call has ended before the other one begins
  let alone := (start fs fresh).run V path (turnsAlone V path fresh side)
  have hsame : (alone.run V path (turnsAlone V path fresh side.other)).calls
      side.other.other = alone.calls side.other.other :=
    calls_run_other alone (of_mem_turnsAlone V path fresh side.other)
  rw [Side.other_other, ← run_append, hok] at hsame
  have hbarred : Barred (path side) fs (alone.calls side) :=
    barred_run (of_mem_turnsAlone V path fresh side) hplaced hdir habsent
  rw [← hsame] at hbarred
  obtain ⟨error, herror⟩ := hbarred
  cases herror

/-! ### Shared names -/

/-- Calls that share a scratch file can both run up to their renames, first
the other one and then this one. -/
theorem exists_both_renames (fresh : Side → ι) {side : Side}
    (hready : ∀ side, Ready (path side) fs ∧ fs.lookup (path side) = none)
    (hunlinked : fs.Unlinked (names path))
    (hne : path side ≠ path side.other)
    (htmp : tmp (path side) = tmp (path side.other)) :
    ∃ schedule s, (start fs fresh).run V path schedule = s ∧
      s.calls side = .rename (fresh side) ∧
      s.calls side.other = .rename (fresh side.other) ∧
      Ready (path side) s.fs ∧
      (Call.rename (fresh side)).OnCourse V (path side) (fresh side) s.fs := by
  have hprobe := not_finished_start fs fresh
  have hcourse := (onCourse_start (V := V) fresh hready hunlinked).calls
  obtain ⟨as, s₁, hrun₁, hrename₁, hprobe₁, hframe₁, hunlinked₁, -, -⟩ :=
    exists_rename (hready _).1 (names_tmp path _) hunlinked
      (hcourse side.other) (hprobe _)
  rw [Side.other_other] at hprobe₁
  -- the other call has not made the file of this one
  have hself : path side ≠ tmp (path side.other) := by
    intro heq
    have hdir := Namespace.dir_ne_none_of_lookup_ne (hready side).1.scratch
    exact tmp_ne_of_dir hdir (htmp.trans heq.symm)
  have hcourse₁ :
      (s₁.calls side).OnCourse V (path side) (fresh side) s₁.fs := by
    rw [hprobe₁]
    exact ⟨rfl, (hframe₁.lookup _ hne hself).trans (hready side).2⟩
  have hready₁ : Ready (path side) s₁.fs := (hready side).1.frame hframe₁
  obtain ⟨bs, s₂, hrun₂, hrename₂, hother₂, hframe₂, -, -, hcourse₂⟩ :=
    exists_rename hready₁ (names_tmp path _) hunlinked₁ hcourse₁
      (by rw [hprobe₁]; exact hprobe side)
  refine ⟨as ++ bs, s₂, ?_, hrename₂, hother₂.trans hrename₁,
    hready₁.frame hframe₂, hcourse₂⟩
  rw [run_append, hrun₁, hrun₂]

/-- Two paths with one scratch name: after one call has renamed the file, the
rename of the other fails. -/
theorem not_unmixed_of_tmp_eq (fresh : Side → ι) {side : Side}
    (hready : ∀ side, Ready (path side) fs ∧ fs.lookup (path side) = none)
    (hunlinked : fs.Unlinked (names path))
    (hne : path side ≠ path side.other)
    (htmp : tmp (path side) = tmp (path side.other)) :
    ¬ Unmixed V path fs := by
  intro hunmixed
  obtain ⟨as, s, hrun, hrename, hrename', hready', hcourse⟩ :=
    exists_both_renames (V := V) fresh hready hunlinked hne htmp
  -- this call's rename takes the scratch file away from the other call
  obtain ⟨hfinished, hother, hmissing⟩ :=
    step_rename_onCourse hready' hrename hcourse
  rw [hrename'] at hother
  rw [htmp] at hmissing
  have hfailed := step_rename_missing (V := V) hother hmissing
  have hend : (start fs fresh).run V path
      (as ++ [(side, 0), (side.other, 0)]) =
        (s.step V path (side, 0)).step V path (side.other, 0) := by
    rw [run_append, hrun]
    rfl
  have hsame := calls_step_other V path
    (s.step V path (side, 0)) side.other 0
  rw [Side.other_other] at hsame
  have hboth : ((start fs fresh).run V path
      (as ++ [(side, 0), (side.other, 0)])).Finished := by
    rw [hend]
    exact finished_of_side (hsame ▸ hfinished) ⟨_, hfailed⟩
  obtain ⟨id, hok, -⟩ := hunmixed fresh _ hboth side.other
  rw [hend, hfailed] at hok
  cases hok

/-- A path that is the other's scratch name: its call loads the other's
scratch file, which is then renamed away. -/
theorem not_unmixed_of_tmp_eq_path (fresh : Side → ι) {side : Side}
    (hready : ∀ side, Ready (path side) fs ∧ fs.lookup (path side) = none)
    (hunlinked : fs.Unlinked (names path))
    (htmp : tmp (path side) = path side.other) : ¬ Unmixed V path fs := by
  intro hunmixed
  -- this call runs up to its rename
  obtain ⟨as, s₁, hrun₁, hrename₁, hprobe₁, hframe₁, -, -, hcourse₁⟩ :=
    exists_rename (hready _).1 (names_tmp path _) hunlinked
      ((onCourse_start (V := V) fresh hready hunlinked).calls side)
      (not_finished_start fs fresh side)
  -- the other call finds its scratch file
  obtain ⟨-, ino, hino, -⟩ := hcourse₁.1
  have hread : s₁.fs.read (path side.other) = some (s₁.fs.data ino) := by
    rw [← htmp]
    exact Fs.read_of_lookup hino
  obtain ⟨hfinished, hrename₂, hfs⟩ := step_found (V := V) hprobe₁ hread
  rw [Side.other_other, hrename₁] at hrename₂
  -- and this call renames it away
  obtain ⟨hfinished', hother, hmissing⟩ := step_rename_onCourse
    (s := s₁.run V path [(side.other, 0), (side.other, 0)])
    (by rw [hfs]; exact (hready side).1.frame hframe₁) hrename₂
    (by rw [hfs]; exact hcourse₁)
  have hrun : (start fs fresh).run V path
      (as ++ ([(side.other, 0), (side.other, 0)] ++ [(side, 0)])) =
        (s₁.run V path [(side.other, 0), (side.other, 0)]).step V path
          (side, 0) := by
    rw [run_append, hrun₁, run_append]
    rfl
  have hboth : ((start fs fresh).run V path
      (as ++ ([(side.other, 0), (side.other, 0)] ++
        [(side, 0)]))).Finished := by
    rw [hrun]
    exact finished_of_side hfinished' (hother ▸ hfinished)
  obtain ⟨id, -, hstored⟩ := hunmixed fresh _ hboth side.other
  rw [hrun, Fs.read, ← htmp, hmissing] at hstored
  cases hstored

/-! ### Scratch files that are hard links -/

/-- Nothing is under the paths, so no scratch file has one of their names. -/
theorem ne_tmp_of_linked {ino : Nat}
    (habsent : ∀ side, fs.lookup (path side) = none)
    (hlinked : ∀ side, fs.lookup (tmp (path side)) = some (.file ino))
    (side side' : Side) : path side ≠ tmp (path side') := by
  intro heq
  have hnone := habsent side
  rw [heq, hlinked side'] at hnone
  cases hnone

/-- Calls whose scratch files are one file can both run up to their renames,
first this one and then the other one, and the file holds what the other call
wrote. -/
theorem exists_both_renames_linked (fresh : Side → ι) {side : Side} {ino : Nat}
    (hready : ∀ side, Ready (path side) fs ∧ fs.lookup (path side) = none)
    (hne : path side.other ≠ path side)
    (htmp : tmp (path side.other) ≠ tmp (path side))
    (hlinked : ∀ side, fs.lookup (tmp (path side)) = some (.file ino)) :
    ∃ schedule s, (start fs fresh).run V path schedule = s ∧
      (∀ side, s.calls side = .rename (fresh side)) ∧
      (∀ side, Ready (path side) s.fs ∧ s.fs.lookup (path side) = none) ∧
      (∀ side, s.fs.lookup (tmp (path side)) = some (.file ino)) ∧
      s.fs.data ino = V.dataRepresentation (fresh side.other) := by
  have hcross := ne_tmp_of_linked (fun side => (hready side).2) hlinked
  have hprobe := not_finished_start fs fresh
  have hcourse : ((start fs fresh).calls side).OnCourse V (path side)
      (fresh side) fs := ⟨rfl, (hready side).2⟩
  obtain ⟨as, s₁, hrun₁, hrename₁, hprobe₁, hframe₁, -, hkept₁, hend₁⟩ :=
    exists_rename (P := (· = tmp (path side))) (hready side).1 rfl
      (fs.unlinked_self _) hcourse (hprobe side)
  have hready₁ : Ready (path side.other) s₁.fs :=
    (hready side.other).1.frame hframe₁
  have hnone₁ : s₁.fs.lookup (path side.other) = none :=
    (hframe₁.lookup _ hne (hcross _ _)).trans (hready side.other).2
  have hlinked₁ : s₁.fs.lookup (tmp (path side.other)) = some (.file ino) :=
    (hframe₁.lookup _ (hcross _ _).symm htmp).trans (hlinked side.other)
  have hcourse₁ : (s₁.calls side.other).OnCourse V (path side.other)
      (fresh side.other) s₁.fs := by
    rw [hprobe₁]
    exact ⟨rfl, hnone₁⟩
  obtain ⟨bs, s₂, hrun₂, hrename₂, hother₂, hframe₂, -, hkept₂, hend₂⟩ :=
    exists_rename (P := (· = tmp (path side.other))) hready₁ rfl
      (s₁.fs.unlinked_self _) hcourse₁ (by rw [hprobe₁]; exact hprobe _)
  rw [Side.other_other, hrename₁] at hother₂
  have hlinked₂ := hkept₂ ino hlinked₁
  obtain ⟨⟨-, ino', hino', hdata, -⟩, hnone₂⟩ := hend₂
  rw [hlinked₂, Option.some.injEq, Entry.file.injEq] at hino'
  refine ⟨as ++ bs, s₂, by rw [run_append, hrun₁, hrun₂],
    fun side' => ?_, fun side' => ?_, fun side' => ?_, by rw [hino', hdata]⟩
  · rcases side.eq_or_eq_other side' with rfl | rfl
    · exact hother₂
    · exact hrename₂
  · rcases side.eq_or_eq_other side' with rfl | rfl
    · exact ⟨((hready _).1.frame hframe₁).frame hframe₂,
        (hframe₂.lookup _ hne.symm (hcross _ _)).trans hend₁.2⟩
    · exact ⟨hready₁.frame hframe₂, hnone₂⟩
  · rcases side.eq_or_eq_other side' with rfl | rfl
    · exact (hframe₂.lookup _ (hcross _ _).symm htmp.symm).trans
        (hkept₁ ino (hlinked _))
    · exact hlinked₂

/-- Two scratch names for one file: the call that renames first stores what
the other one wrote. -/
theorem not_unmixed_of_linked (fresh : Side → ι) {side : Side} {ino : Nat}
    (hfresh : fresh side ≠ fresh side.other)
    (hready : ∀ side, Ready (path side) fs ∧ fs.lookup (path side) = none)
    (hne : path side.other ≠ path side)
    (htmp : tmp (path side.other) ≠ tmp (path side))
    (hlinked : ∀ side, fs.lookup (tmp (path side)) = some (.file ino)) :
    ¬ Unmixed V path fs := by
  intro hunmixed
  obtain ⟨as, s, hrun, hrename, hready', hlinked', hdata⟩ :=
    exists_both_renames_linked (V := V) fresh hready hne htmp hlinked
  have hcross := ne_tmp_of_linked (fun side => (hready side).2) hlinked
  -- this call renames the file
  obtain ⟨hmove, hdone, hother⟩ := step_rename (V := V) (hready' side).1
    (hrename side) (hlinked' side) (hready' side).2
  generalize hs₁ : s.step V path (side, 0) = s₁ at hmove hdone hother
  rw [hrename] at hother
  have hready₁ : Ready (path side.other) s₁.fs :=
    (hready' side.other).1.of_dirs (Fs.lookup_rename_dir_iff hmove
      (tmp_ne_of_lookup (hlinked' side)))
  have hlinked₁ : s₁.fs.lookup (tmp (path side.other)) = some (.file ino) :=
    (Fs.lookup_rename_of_ne hmove htmp (hcross _ _).symm).trans
      (hlinked' side.other)
  have hnone₁ : s₁.fs.lookup (path side.other) = none :=
    (Fs.lookup_rename_of_ne hmove (hcross _ _) hne).trans
      (hready' side.other).2
  -- and the other one renames its name of it
  obtain ⟨hmove', hdone', hsame⟩ := step_rename (V := V) hready₁ hother
    hlinked₁ hnone₁
  rw [Side.other_other, hdone] at hsame
  have hend : (start fs fresh).run V path
      (as ++ [(side, 0), (side.other, 0)]) =
        s₁.step V path (side.other, 0) := by
    rw [run_append, hrun, ← hs₁]
    rfl
  obtain ⟨id, hok, hread⟩ := hunmixed fresh
    (as ++ [(side, 0), (side.other, 0)])
    (by rw [hend]; exact finished_of_side ⟨_, hsame⟩ ⟨_, hdone'⟩) side
  have hstored : (s₁.step V path (side.other, 0)).fs.read (path side) =
      some (V.dataRepresentation (fresh side.other)) := by
    have hlookup := (Fs.lookup_rename_of_ne hmove' (hcross _ _) hne.symm).trans
      (Fs.lookup_rename_dst hmove (hlinked' side))
    rw [Fs.read_of_lookup hlookup, Fs.data_rename hmove',
      Fs.data_rename hmove, hdata]
  rw [hend, hsame, Call.done.injEq, Except.ok.injEq] at hok
  rw [hend, hstored, ← hok, Option.some.injEq] at hread
  exact hfresh (V.dataRepresentation_injective hread).symm

/-! ## The condition -/

/-- The only names that can stand for one file are the two scratch names. -/
theorem unlinked_of_unmixed [Nontrivial ι]
    (hne : ∀ side, path side.other ≠ path side)
    (hready : ∀ side, Ready (path side) fs ∧ fs.lookup (path side) = none)
    (hunmixed : Unmixed V path fs) : fs.Unlinked (names path) := by
  have hscratch : ∀ {k ino}, names path k → fs.lookup k = some (.file ino) →
      ∃ side, k = tmp (path side) := by
    rintro k ino ⟨side, rfl | rfl⟩ hino
    · rw [(hready side).2] at hino
      cases hino
    · exact ⟨side, rfl⟩
  intro k k' ino hk hk' hino hino'
  obtain ⟨side, rfl⟩ := hscratch hk hino
  obtain ⟨side', rfl⟩ := hscratch hk' hino'
  by_contra htmp
  rcases side.eq_or_eq_other side' with rfl | rfl
  · exact htmp rfl
  · obtain ⟨id, id', hid⟩ := exists_pair_ne ι
    have hlinked : ∀ side',
        fs.lookup (tmp (path side')) = some (.file ino) := by
      intro side'
      rcases side.eq_or_eq_other side' with rfl | rfl
      · exact hino
      · exact hino'
    have hfresh : (if side = side then id else id') ≠
        if side.other = side then id else id' := by
      rwa [if_pos rfl, if_neg side.other_ne]
    exact not_unmixed_of_linked
      (fun side' => if side' = side then id else id') hfresh hready
      (hne side) (Ne.symm htmp) hlinked hunmixed

theorem separate_of_unmixed [Nontrivial ι] (hne : path .left ≠ path .right)
    (hplaced : ∀ side, Placed (path side) fs ∧ fs.lookup (path side) = none)
    (hunmixed : Unmixed V path fs) : Separate path fs := by
  obtain ⟨id, -⟩ := exists_pair_ne ι
  have hscratch : ∀ side, fs.lookup (tmp (path side)) ≠ some .dir :=
    fun side hdir => not_unmixed_of_directory (fun _ => id)
      (hplaced side).1 (hplaced side).2 hdir hunmixed
  have hready : ∀ side,
      Ready (path side) fs ∧ fs.lookup (path side) = none :=
    fun side => ⟨(hplaced side).1.ready (hscratch side), (hplaced side).2⟩
  have hpaths := path_other_ne hne
  have hunlinked := unlinked_of_unmixed hpaths hready hunmixed
  refine ⟨hscratch, fun side => ⟨fun htmp => ?_, fun htmp => ?_⟩, hunlinked⟩
  · exact not_unmixed_of_tmp_eq_path (fun _ => id) hready hunlinked htmp
      hunmixed
  · exact not_unmixed_of_tmp_eq (fun _ => id) hready hunlinked
      (hpaths side).symm htmp hunmixed

/-- **Two calls at once**, on paths that differ and have no file: they finish
once each has had enough turns, and they return and store unmixed identifiers
in all runs exactly when no directory has a scratch name, neither scratch name
is the other's scratch name or path, and they do not stand for one file. -/
theorem unmixed_iff_separate [Nontrivial ι] (hne : path .left ≠ path .right)
    (hplaced : ∀ side, Placed (path side) fs ∧ fs.lookup (path side) = none) :
    (∀ (fresh : Side → ι) (schedule : List (Side × Nat)),
      (∀ side, (Call.probe (fresh side)).remaining V (path side) ≤
        turns side schedule) →
      ((start fs fresh).run V path schedule).Finished) ∧
    (Unmixed V path fs ↔ Separate path fs) :=
  ⟨finished_of_turns fs, separate_of_unmixed hne hplaced,
    unmixed_of_separate hne hplaced⟩

/-- A file system with all directories of up to `n` components and no
files. -/
def directoriesUpTo (n : Nat) : Fs Path :=
  Fs.ofDirectories fun k => k.length ≤ n

theorem lookup_directoriesUpTo {n : Nat} {p : Path} (hfile : p.fileName ≠ none)
    (hlength : p.length = n + 1) : (directoriesUpTo n).lookup p = none := by
  refine Fs.lookup_ofDirectories_of_not_dir (Path.dir_ne_none_iff.mpr hfile)
    (decide_eq_false ?_)
  omega

theorem placed_directoriesUpTo {n : Nat} {p : Path}
    (hfile : p.fileName ≠ none) (hlength : p.length = n + 1) :
    Placed p (directoriesUpTo n) ∧ (directoriesUpTo n).lookup p = none := by
  obtain ⟨name, hname⟩ := Option.ne_none_iff_exists'.mp hfile
  obtain ⟨dir, rfl⟩ := Path.fileName_eq_some_iff.mp hname
  have hdir : DirTree.dir (dir ++ [Component.normal name]) = some dir := by
    simp [DirTree.dir]
  have hle : dir.length ≤ n := by
    rw [List.length_append, List.length_singleton] at hlength
    omega
  refine ⟨⟨?_, fun d hd => ?_⟩, lookup_directoriesUpTo hfile hlength⟩
  · simp only [Namespace.holds, hdir, beq_iff_eq]
    exact Fs.lookup_ofDirectories_of_dir (decide_eq_true hle)
  · have hlt := length_lt_of_mem_directories hd
    exact Fs.lookup_ofDirectories_of_dir (decide_eq_true (by omega))

/-- No directory there has the scratch name, unless that is no file name. -/
theorem scratch_directoriesUpTo {n : Nat} {p : Path}
    (hscratch : (tmp p).fileName ≠ none) (hlength : p.length = n + 1) :
    (directoriesUpTo n).lookup (tmp p) ≠ some .dir := by
  rw [lookup_directoriesUpTo hscratch ((length_tmp p).trans hlength)]
  exact (Option.some_ne_none _).symm

/-- Two identifier files in one directory. -/
def vmFiles (left right : String) : Side → Path
  | .left => vmFile left
  | .right => vmFile right

/-- The scratch name of `..a` ends in `..`, which is a directory. -/
example (fs : Fs Path) : ¬ Separate (vmFiles "..a" "b.bin") fs :=
  fun h => h.scratch .left rfl

theorem unmixed_of_other_stems :
    Unmixed byteIdentifier (vmFiles "one.bin" "two.bin")
      (directoriesUpTo 2) := by
  have hbytes : Nontrivial UInt8 := ⟨0, 1, by decide⟩
  exact (unmixed_iff_separate (by decide)
    (fun side => placed_directoriesUpTo (by cases side <;> decide)
      (by cases side <;> rfl))).2.mpr
    ⟨fun side => scratch_directoriesUpTo (by cases side <;> decide)
        (by cases side <;> rfl),
      fun side => by cases side <;> decide, Fs.unlinked_ofDirectories _ _⟩

/-- Both calls have written and synced the one scratch file when the first of
them renames it. -/
def sharedTmpSchedule : List (Side × Nat) :=
  List.replicate 6 (.left, 1) ++ List.replicate 6 (.right, 1) ++
    [(.left, 1), (.right, 1)]

/-- What the two platforms came with. -/
def oneAndTwo : Side → UInt8
  | .left => 1
  | .right => 2

/-- The end of that run. -/
def sharedTmpEnd : Pair UInt8 :=
  (start (directoriesUpTo 2) oneAndTwo).run byteIdentifier
    (vmFiles "machine.bin" "machine.img") sharedTmpSchedule

/-- The left call returns its identifier 1 and has stored the right call's
identifier 2; the right call fails. -/
theorem mixed_by_shared_tmp :
    sharedTmpEnd.calls .left = .done (.ok 1) ∧
      sharedTmpEnd.fs.read (vmFile "machine.bin") = some [0x6d, 2] ∧
      sharedTmpEnd.calls .right =
        .done (.error (renameError (vmFile "machine.img") notFound)) ∧
      ¬ Unmixed byteIdentifier (vmFiles "machine.bin" "machine.img")
        (directoriesUpTo 2) := by
  have hleft : sharedTmpEnd.calls .left = .done (.ok 1) := by decide +kernel
  have hread : sharedTmpEnd.fs.read (vmFile "machine.bin") =
      some [0x6d, 2] := by decide +kernel
  have hright : sharedTmpEnd.calls .right =
      .done (.error (renameError (vmFile "machine.img") notFound)) := by
    decide +kernel
  refine ⟨hleft, hread, hright, fun hunmixed => ?_⟩
  have hfinished : sharedTmpEnd.Finished := by
    intro side
    cases side with
    | left => exact ⟨_, hleft⟩
    | right => exact ⟨_, hright⟩
  obtain ⟨id, hok, -⟩ := hunmixed oneAndTwo sharedTmpSchedule hfinished .right
  have hsame : sharedTmpEnd.calls .right = .done (.ok id) := hok
  rw [hright] at hsame
  cases hsame

end Pair
end Kasou.MachineIdentifier
