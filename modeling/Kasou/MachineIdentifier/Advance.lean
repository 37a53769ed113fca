import Kasou.MachineIdentifier.Scratch

/-!
# A call on a file system that injects no failures

A step fails only when the file it names is missing, and a write is accepted
in chunks of any size.  A call that starts with no file at its path stays on
course to its result, reaches it in boundedly many steps, and touches nothing
but its path and its scratch file.
-/

namespace Kasou.MachineIdentifier

open CrashFs

variable {ι : Type} {V : VZGenericMachineIdentifier ι} {path : Path}

/-- The answer to a step that nothing prevents; a write is accepted up to
`n + 1` bytes. -/
def Call.answer (V : VZGenericMachineIdentifier ι) (n : Nat) :
    Call ι → IoResult
  | .write id _ off =>
      .wrote (min (n + 1) ((V.dataRepresentation id).length - off))
  | _ => .ok

/-- The text of `ENOENT`. -/
def notFound : Text := "No such file or directory (os error 2)".toList

/-- The text of `EISDIR`. -/
def isADirectory : Text := "Is a directory (os error 21)".toList

/-- The text with which a step is refused where no file stands in the place of
a directory: something is missing, or there is a directory in the place of a
file. -/
def Call.refusal (path : Path) (fs : Fs Path) : Call ι → Text
  | .read => if fs.lookup path = some .dir then isADirectory else notFound
  | .create _ =>
      if fs.lookup (tmp path) = some .dir then isADirectory else notFound
  | .rename _ =>
      if fs.lookup (tmp path) = none then notFound else isADirectory
  | _ => notFound

/-- The next step of a call: it fails only if it cannot succeed.  A call that
is done stays as it is. -/
def Call.advance (V : VZGenericMachineIdentifier ι) (path : Path)
    (fs : Fs Path) (n : Nat) (call : Call ι) : Fs Path × Call ι :=
  match call.step V path fs (call.answer V n) with
  | some next => next
  | none =>
      match call.step V path fs (.failed (call.refusal path fs)) with
      | some next => next
      | none => (fs, call)

/-- The steps that a call may still take. -/
def Call.remaining (V : VZGenericMachineIdentifier ι) (path : Path) :
    Call ι → Nat
  | .probe fresh =>
      (directories path).length + (V.dataRepresentation fresh).length + 4
  | .read => 1
  | .mkdir id _ rest => rest.length + (V.dataRepresentation id).length + 4
  | .create id => (V.dataRepresentation id).length + 3
  | .write id _ off => (V.dataRepresentation id).length - off + 2
  | .sync _ _ => 2
  | .rename _ => 1
  | .done _ => 0

/-- The call has its result. -/
def Call.Finished (call : Call ι) : Prop := ∃ result, call = .done result

/-! ## Progress -/

theorem remaining_createDirAll (id : ι) (ds : List Path) :
    (createDirAll id ds).remaining V path =
      ds.length + (V.dataRepresentation id).length + 3 := by
  cases ds with
  | nil => simp [createDirAll, Call.remaining]
  | cons d ds =>
      simp only [createDirAll, Call.remaining, List.length_cons]
      omega

theorem remaining_writeAll_le (V : VZGenericMachineIdentifier ι)
    (path : Path) (id : ι) (ino off : Nat) :
    (writeAll V id ino off).remaining V path ≤
      (V.dataRepresentation id).length - off + 2 := by
  rw [writeAll]
  split
  · exact le_rfl
  · exact Nat.le_add_left _ _

/-- Every step brings the call nearer to its end. -/
theorem Call.Step.remaining_lt {fs fs' : Fs Path} {call call' : Call ι}
    {result : IoResult} (hstep : Call.Step V path fs call result fs' call') :
    call'.remaining V path < call.remaining V path := by
  cases hstep with
  | found fresh hfound =>
      simp only [Call.remaining]
      omega
  | missing fresh hmissing =>
      rw [persist, remaining_createDirAll, Call.remaining]
      omega
  | unseen fresh e =>
      rw [persist, remaining_createDirAll, Call.remaining]
      omega
  | load bytes hread => exact Nat.one_pos
  | mkdir id d rest fs' hmkdir =>
      rw [remaining_createDirAll, Call.remaining]
      omega
  | create id fs' ino hcreate =>
      have hle := remaining_writeAll_le V path id ino 0
      rw [Call.remaining]
      omega
  | write id ino off n hpos hbound =>
      have hle := remaining_writeAll_le V path id ino (off + n)
      rw [Call.remaining]
      omega
  | writeZero id ino off => exact Nat.succ_pos _
  | sync id ino => exact Nat.one_lt_two
  | rename id fs' hrename => exact Nat.one_pos
  | fail call e error herror =>
      cases call with
      | probe fresh => cases herror
      | read => exact Nat.one_pos
      | mkdir id d rest => exact Nat.succ_pos _
      | create id => exact Nat.succ_pos _
      | write id ino off => exact Nat.succ_pos _
      | sync id ino => exact Nat.succ_pos _
      | rename id => exact Nat.one_pos
      | done result => cases herror

theorem Call.advance_of_step {fs : Fs Path} {call : Call ι} {n : Nat}
    {next : Fs Path × Call ι}
    (h : call.step V path fs (call.answer V n) = some next) :
    call.advance V path fs n = next := by
  rw [advance, h]

/-- A call that is not done takes a step: it succeeds or fails. -/
theorem Call.advance_step (V : VZGenericMachineIdentifier ι) (path : Path)
    (fs : Fs Path) {call : Call ι} (n : Nat)
    (hdone : ¬ call.Finished) :
    ∃ result, Call.Step V path fs call result
      (call.advance V path fs n).1 (call.advance V path fs n).2 := by
  rw [advance]
  split
  next next hstep => exact ⟨_, Call.step_sound hstep⟩
  next hnone =>
    split
    next next hstep => exact ⟨_, Call.step_sound hstep⟩
    next hstuck =>
      exfalso
      cases call with
      | probe fresh => cases hnone
      | read => cases hstuck
      | mkdir id d rest => cases hstuck
      | create id => cases hstuck
      | write id ino off => cases hstuck
      | sync id ino => cases hstuck
      | rename id => cases hstuck
      | done result => exact hdone ⟨result, rfl⟩

theorem Call.finished_of_remaining {call : Call ι}
    (h : call.remaining V path = 0) : call.Finished := by
  cases call with
  | done result => exact ⟨result, rfl⟩
  | probe fresh => cases h
  | read => cases h
  | mkdir id d rest => cases h
  | create id => cases h
  | write id ino off => cases h
  | sync id ino => cases h
  | rename id => cases h

theorem Call.remaining_advance_le (V : VZGenericMachineIdentifier ι)
    (path : Path) (fs : Fs Path) (call : Call ι) (n : Nat) :
    (call.advance V path fs n).2.remaining V path ≤
      call.remaining V path - 1 := by
  by_cases hdone : call.Finished
  · obtain ⟨result, rfl⟩ := hdone
    exact Nat.zero_le _
  · obtain ⟨result, hstep⟩ := call.advance_step V path fs n hdone
    exact Nat.le_pred_of_lt hstep.remaining_lt

/-! ## What a call touches -/

/-- The file system is as the call needs it: the parent directories are in
place, and no directory has the scratch name. -/
structure Ready (path : Path) (fs : Fs Path) : Prop where
  holds : fs.current.holds path = true
  inPlace : ∀ d ∈ directories path, fs.lookup d = some .dir
  scratch : fs.lookup (tmp path) ≠ some .dir

/-- Among the names, nothing but the path and its scratch name has changed,
and no directory has come or gone. -/
structure Frame (names : Path → Prop) (path : Path) (fs fs' : Fs Path) :
    Prop where
  lookup : ∀ k, k ≠ path → k ≠ tmp path → fs'.lookup k = fs.lookup k
  dirs : ∀ k, fs'.lookup k = some .dir ↔ fs.lookup k = some .dir
  files : ∀ k ino, names k → k ≠ path → k ≠ tmp path →
    fs.lookup k = some (.file ino) →
      fs'.data ino = fs.data ino ∧ fs'.synced ino = fs.synced ino

variable {names : Path → Prop}

theorem Frame.refl (names : Path → Prop) (path : Path) (fs : Fs Path) :
    Frame names path fs fs :=
  ⟨fun _ _ _ => rfl, fun _ => Iff.rfl, fun _ _ _ _ _ _ => ⟨rfl, rfl⟩⟩

theorem Frame.trans {fs₁ fs₂ fs₃ : Fs Path}
    (h₁ : Frame names path fs₁ fs₂) (h₂ : Frame names path fs₂ fs₃) :
    Frame names path fs₁ fs₃ where
  lookup k hpath htmp :=
    (h₂.lookup k hpath htmp).trans (h₁.lookup k hpath htmp)
  dirs k := (h₂.dirs k).trans (h₁.dirs k)
  files k ino hk hpath htmp hino := by
    obtain ⟨hdata₁, hsynced₁⟩ := h₁.files k ino hk hpath htmp hino
    obtain ⟨hdata₂, hsynced₂⟩ := h₂.files k ino hk hpath htmp
      ((h₁.lookup k hpath htmp).trans hino)
    exact ⟨hdata₂.trans hdata₁, hsynced₂.trans hsynced₁⟩

theorem Frame.read_eq {fs fs' : Fs Path} (h : Frame names path fs fs')
    {k : Path} (hk : names k) (hpath : k ≠ path) (htmp : k ≠ tmp path) :
    fs'.read k = fs.read k := by
  have hlookup := h.lookup k hpath htmp
  rw [Fs.read, Fs.read, hlookup]
  split
  next ino hino => rw [(h.files k ino hk hpath htmp hino).1]
  · rfl

/-- A file system is ready as long as its directories stay. -/
theorem Ready.of_dirs {fs fs' : Fs Path} (hready : Ready path fs)
    (hdirs : ∀ k, fs'.lookup k = some .dir ↔ fs.lookup k = some .dir) :
    Ready path fs' where
  holds := (Fs.holds_congr hdirs path).trans hready.holds
  inPlace d hd := (hdirs d).mpr (hready.inPlace d hd)
  scratch := fun hdir => hready.scratch ((hdirs _).mp hdir)

theorem Ready.frame {path' : Path} {fs fs' : Fs Path}
    (hready : Ready path fs) (h : Frame names path' fs fs') :
    Ready path fs' :=
  hready.of_dirs h.dirs

/-- A step of a call touches nothing but its path and its scratch file. -/
theorem Call.Step.frame {fs fs' : Fs Path} {call call' : Call ι}
    {result : IoResult} {P : ι → Prop}
    (hstep : Call.Step V path fs call result fs' call')
    (hprepared : call.Prepared V path P fs) (hready : Ready path fs)
    (hunlinked : fs.Unlinked names) (hscratch : names (tmp path)) :
    Frame names path fs fs' ∧ fs'.Unlinked names := by
  cases hstep with
  | found fresh hfound => exact ⟨.refl names path fs, hunlinked⟩
  | missing fresh hmissing => exact ⟨.refl names path fs, hunlinked⟩
  | unseen fresh e => exact ⟨.refl names path fs, hunlinked⟩
  | load bytes hread => exact ⟨.refl names path fs, hunlinked⟩
  | mkdir id d rest fs' hmkdir =>
      have hdir := hready.inPlace d (hprepared.2 d (List.mem_cons_self ..))
      rw [Fs.mkdir_of_lookup hdir] at hmkdir
      obtain rfl := Option.some.inj hmkdir
      exact ⟨.refl names path fs, hunlinked⟩
  | create id fs' ino hcreate =>
      refine ⟨⟨fun k _ htmp => Fs.lookup_create_of_ne hcreate htmp,
        Fs.lookup_create_dir_iff hcreate, fun k i hk _ htmp hi => ?_⟩,
        hunlinked.create hcreate hscratch⟩
      have hne := hunlinked.ne_of_create hcreate hscratch hk htmp hi
      exact ⟨Fs.data_create_of_ne hcreate hne,
        Fs.synced_create_of_ne hcreate hne⟩
  | write id ino off n hpos hbound =>
      refine ⟨⟨fun k _ _ => rfl, fun k => Iff.rfl,
        fun k i hk _ htmp hi => ?_⟩, hunlinked⟩
      have hne := hunlinked.ino_ne hk hscratch htmp hi hprepared.2.1
      exact ⟨fs.data_setData_of_ne hne _, fs.synced_setData_of_ne hne _⟩
  | writeZero id ino off => exact ⟨.refl names path fs, hunlinked⟩
  | sync id ino =>
      refine ⟨⟨fun k _ _ => rfl, fun k => Iff.rfl,
        fun k i hk _ htmp hi => ?_⟩, hunlinked⟩
      have hne := hunlinked.ino_ne hk hscratch htmp hi hprepared.2.1
      exact ⟨rfl, fs.synced_fsync_of_ne hne⟩
  | rename id fs' hrename =>
      obtain ⟨-, ino, hino, -⟩ := hprepared
      have hne := tmp_ne_of_lookup hino
      refine ⟨⟨fun k hpath htmp => Fs.lookup_rename_of_ne hrename htmp hpath,
        Fs.lookup_rename_dir_iff hrename hne, fun k i _ _ _ _ => ?_⟩,
        hunlinked.rename hrename hscratch hne⟩
      obtain ⟨ino', hino', rfl, -⟩ := Fs.rename_spec hrename
      exact ⟨rfl, rfl⟩
  | fail call e error herror => exact ⟨.refl names path fs, hunlinked⟩

/-- Up to its rename, a call keeps the scratch file that there is. -/
theorem Call.Step.lookup_tmp {fs fs' : Fs Path} {call call' : Call ι}
    {result : IoResult} {ino : Nat}
    (hstep : Call.Step V path fs call result fs' call')
    (hrename : ∀ id, call ≠ .rename id)
    (hino : fs.lookup (tmp path) = some (.file ino)) :
    fs'.lookup (tmp path) = some (.file ino) := by
  cases hstep with
  | found fresh hfound => exact hino
  | missing fresh hmissing => exact hino
  | unseen fresh e => exact hino
  | load bytes hread => exact hino
  | mkdir id d rest fs' hmkdir =>
      rcases Fs.mkdir_spec hmkdir with ⟨rfl, -⟩ | ⟨-, hnone, -⟩
      · exact hino
      · have hne : tmp path ≠ d := by
          rintro rfl
          rw [hnone] at hino
          cases hino
        exact (Fs.lookup_mkdir_of_ne hmkdir hne).trans hino
  | create id fs' ino' hcreate =>
      rcases Fs.create_spec hcreate with ⟨rfl, -⟩ | ⟨-, -, hnone, -⟩
      · exact hino
      · rw [hnone] at hino
        cases hino
  | write id ino' off n hpos hbound => exact hino
  | writeZero id ino' off => exact hino
  | sync id ino' => exact hino
  | rename id fs' hmove => exact absurd rfl (hrename id)
  | fail call e error herror => exact hino

/-! ## A call that finds no file -/

/-- The call is on its way to persist and return `id`, or has done so. -/
def Call.OnCourse (V : VZGenericMachineIdentifier ι) (path : Path) (id : ι)
    (fs : Fs Path) : Call ι → Prop
  | .read => False
  | .done result =>
      result = .ok id ∧ fs.read path = some (V.dataRepresentation id)
  | call => call.Prepared V path (· = id) fs ∧ fs.lookup path = none

variable {id : ι} {fs fs' : Fs Path} {call call' : Call ι}

theorem Call.OnCourse.prepared (h : call.OnCourse V path id fs) :
    call.Prepared V path (· = id) fs := by
  cases call with
  | read => exact h.elim
  | done result => trivial
  | probe fresh => exact h.1
  | mkdir id d rest => exact h.1
  | create id => exact h.1
  | write id ino off => exact h.1
  | sync id ino => exact h.1
  | rename id => exact h.1

theorem Call.OnCourse.lookup_eq_none (h : call.OnCourse V path id fs)
    (hdone : ¬ call.Finished) : fs.lookup path = none := by
  cases call with
  | read => exact h.elim
  | done result => exact (hdone ⟨result, rfl⟩).elim
  | probe fresh => exact h.2
  | mkdir id d rest => exact h.2
  | create id => exact h.2
  | write id ino off => exact h.2
  | sync id ino => exact h.2
  | rename id => exact h.2

theorem onCourse_createDirAll {ds : List Path}
    (hds : ∀ d ∈ ds, d ∈ directories path) (hnone : fs.lookup path = none) :
    (createDirAll id ds).OnCourse V path id fs := by
  cases ds with
  | nil => exact ⟨rfl, hnone⟩
  | cons d ds => exact ⟨⟨rfl, hds⟩, hnone⟩

theorem onCourse_writeAll {ino off : Nat}
    (hino : fs.lookup (tmp path) = some (.file ino))
    (hdata : fs.data ino = (V.dataRepresentation id).take off)
    (hnone : fs.lookup path = none) :
    (writeAll V id ino off).OnCourse V path id fs := by
  have hprepared : (writeAll V id ino off).Prepared V path (· = id) fs :=
    prepared_writeAll rfl hino hdata
  rw [writeAll] at hprepared ⊢
  split at hprepared
  next hroom =>
    rw [if_pos hroom]
    exact ⟨hprepared, hnone⟩
  next hdone =>
    rw [if_neg hdone]
    exact ⟨hprepared, hnone⟩

/-- On course, the next step succeeds. -/
theorem Call.OnCourse.exists_step (h : call.OnCourse V path id fs)
    (hready : Ready path fs) (hdone : ¬ call.Finished) (n : Nat) :
    ∃ next, call.step V path fs (call.answer V n) = some next := by
  have hnone := h.lookup_eq_none hdone
  cases call with
  | probe fresh => exact ⟨_, rfl⟩
  | read => exact h.elim
  | mkdir id d rest =>
      have hdir := hready.inPlace d (h.1.2 d (List.mem_cons_self ..))
      exact ⟨_, congrArg (Option.map _) (Fs.mkdir_of_lookup hdir)⟩
  | create id =>
      have hholds : fs.current.holds (tmp path) = true := by
        rw [holds_tmp (Namespace.dir_ne_none_of_lookup_ne hready.scratch)]
        exact hready.holds
      obtain ⟨fs', ino, hcreate⟩ := Fs.exists_create hready.scratch hholds
      exact ⟨_, congrArg (Option.map _) hcreate⟩
  | write id ino off =>
      obtain ⟨-, -, -, hroom⟩ := h.1
      have hpos : min (n + 1) ((V.dataRepresentation id).length - off) ≠ 0 := by
        omega
      have hbound : off + min (n + 1)
          ((V.dataRepresentation id).length - off) ≤
            (V.dataRepresentation id).length := by
        omega
      exact ⟨_, by rw [answer, Call.step, if_neg hpos, if_pos hbound]⟩
  | sync id ino => exact ⟨_, rfl⟩
  | rename id =>
      obtain ⟨-, ino, hino, -⟩ := h.1
      have hdir : fs.lookup path ≠ some .dir := by
        rw [hnone]
        exact (Option.some_ne_none _).symm
      obtain ⟨fs', hrename⟩ := Fs.exists_rename hino hready.holds hdir
      exact ⟨_, congrArg (Option.map _) hrename⟩
  | done result => exact (hdone ⟨result, rfl⟩).elim

/-- A step that succeeds keeps the call on course. -/
theorem Call.Step.onCourse {result : IoResult} {n : Nat}
    (hstep : Call.Step V path fs call result fs' call')
    (hresult : result = call.answer V n)
    (h : call.OnCourse V path id fs) (hready : Ready path fs) :
    call'.OnCourse V path id fs' := by
  have hprepared := h.prepared
  cases hstep with
  | found fresh hfound => exact (hfound h.2).elim
  | missing fresh hmissing =>
      obtain rfl : fresh = id := h.1
      exact onCourse_createDirAll (fun _ hd => hd) hmissing
  | unseen fresh e => cases hresult
  | load bytes hread => exact h.elim
  | mkdir id' d rest fs' hmkdir =>
      obtain ⟨rfl, hds⟩ := hprepared
      have hdir := hready.inPlace d (hds d (List.mem_cons_self ..))
      rw [Fs.mkdir_of_lookup hdir] at hmkdir
      obtain rfl := Option.some.inj hmkdir
      exact onCourse_createDirAll (List.forall_mem_cons.mp hds).2 h.2
  | create id' fs' ino hcreate =>
      obtain rfl : id' = id := hprepared
      have hino := Fs.lookup_create_self hcreate
      refine onCourse_writeAll hino ?_ ?_
      · rw [Fs.data_create_self hcreate, List.take_zero]
      · rw [Fs.lookup_create_of_ne hcreate (tmp_ne_of_lookup hino).symm]
        exact h.2
  | write id' ino off n hpos hbound =>
      obtain ⟨rfl, hino, hdata, -⟩ := hprepared
      refine onCourse_writeAll hino ?_ h.2
      rw [Fs.pwrite, Fs.data_setData_self, hdata, Fs.splice_take _ hbound]
  | writeZero id' ino off =>
      obtain ⟨-, -, -, hroom⟩ := hprepared
      rw [answer, IoResult.wrote.injEq] at hresult
      omega
  | sync id' ino =>
      obtain ⟨rfl, hino, hdata⟩ := hprepared
      exact ⟨⟨rfl, ino, hino, hdata, fs.synced_fsync_self ino⟩, h.2⟩
  | rename id' fs' hrename =>
      obtain ⟨rfl, ino, hino, hdata, -⟩ := hprepared
      refine ⟨rfl, ?_⟩
      rw [Fs.read_of_lookup (Fs.lookup_rename_dst hrename hino),
        Fs.data_rename hrename, hdata]
  | fail call e error herror =>
      exfalso
      cases call <;> cases hresult

/-- On course, the next step keeps the call on course. -/
theorem Call.OnCourse.advance (h : call.OnCourse V path id fs)
    (hready : Ready path fs) (hunlinked : fs.Unlinked names)
    (hscratch : names (tmp path)) (n : Nat) :
    (call.advance V path fs n).2.OnCourse V path id
        (call.advance V path fs n).1 ∧
      Frame names path fs (call.advance V path fs n).1 ∧
      (call.advance V path fs n).1.Unlinked names := by
  by_cases hdone : call.Finished
  · obtain ⟨result, rfl⟩ := hdone
    exact ⟨h, .refl names path fs, hunlinked⟩
  · obtain ⟨⟨fs', call'⟩, hstep⟩ := h.exists_step hready hdone n
    rw [advance_of_step hstep]
    have hsound := Call.step_sound hstep
    exact ⟨hsound.onCourse rfl h hready,
      hsound.frame h.prepared hready hunlinked hscratch⟩

/-- Changes that are not about the path or its scratch name leave a call on
course. -/
theorem Call.OnCourse.frame {path' : Path} (h : call.OnCourse V path id fs)
    (hframe : Frame names path' fs fs') (hname : names path)
    (hscratch : names (tmp path)) (hpath : path ≠ path')
    (hpath' : path ≠ tmp path') (htmp : tmp path ≠ path')
    (htmp' : tmp path ≠ tmp path') : call.OnCourse V path id fs' := by
  have hprepared := h.prepared.frame (hframe.lookup _ htmp htmp')
    fun ino hino => hframe.files _ ino hscratch htmp htmp' hino
  have hlookup := hframe.lookup path hpath hpath'
  cases call with
  | read => exact h.elim
  | done result => exact ⟨h.1, (hframe.read_eq hname hpath hpath').trans h.2⟩
  | probe fresh => exact ⟨hprepared, hlookup.trans h.2⟩
  | mkdir id d rest => exact ⟨hprepared, hlookup.trans h.2⟩
  | create id => exact ⟨hprepared, hlookup.trans h.2⟩
  | write id ino off => exact ⟨hprepared, hlookup.trans h.2⟩
  | sync id ino => exact ⟨hprepared, hlookup.trans h.2⟩
  | rename id => exact ⟨hprepared, hlookup.trans h.2⟩

end Kasou.MachineIdentifier
