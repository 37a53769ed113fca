import Kasou.Library.CrashInvariant
import Kasou.MachineIdentifier.Advance
import Kasou.MachineIdentifier.Whole

/-!
# No interruption bricks a path

The contents of the scratch file are synced before the rename, so that a crash
in the middle of a call never leaves a file that later calls cannot read.  But
an interrupted call may leave a scratch file with any contents, directories
that are missing again, or its identifier under the path.  From each of these
the next call that nothing disturbs gets through: it loads what is at the path,
or makes the directories that are missing, truncates the scratch file and
persists its own identifier.
-/

namespace Kasou.MachineIdentifier

open CrashFs TransitionSystem

variable {ι : Type} {V : VZGenericMachineIdentifier ι} {path : Path}

/-! ## Nothing in the way -/

/-- No file has the name of a directory that a call makes, and no directory
the name of a file. -/
structure Passable (path : Path) (ns : Namespace Path) : Prop where
  parents : ∀ d ∈ directories path, ∀ ino, ns.lookup d ≠ some (.file ino)
  scratch : ns.lookup (tmp path) ≠ some .dir
  target : ns.lookup path ≠ some .dir

/-- The changes of the directory entries that a call makes. -/
inductive Makes (path : Path) : Change Path → Prop where
  | mkdir (d : Path) (hd : d ∈ directories path) : Makes path (.mkdir d)
  | link (ino : Nat) : Makes path (.link (tmp path) ino)
  | rename (ino : Nat) : Makes path (.rename (tmp path) path ino)

namespace Passable

variable {ns : Namespace Path}

/-- A path that need not stand for a directory ends in a file name. -/
theorem dir_ne_none (h : Passable path ns) : DirTree.dir path ≠ none :=
  Namespace.dir_ne_none_of_lookup_ne h.target

/-- So does its scratch name. -/
theorem dir_tmp_ne_none (h : Passable path ns) :
    DirTree.dir (tmp path) ≠ none :=
  Namespace.dir_ne_none_of_lookup_ne h.scratch

theorem tmp_ne (h : Passable path ns) : tmp path ≠ path :=
  tmp_ne_of_dir h.dir_tmp_ne_none

/-- No change that a call makes gets in the way of a call. -/
theorem apply {c : Change Path} (h : Passable path ns) (hc : Makes path c) :
    Passable path (c.apply ns) := by
  have hne : tmp path ≠ path := h.tmp_ne
  cases hc with
  | mkdir d hd =>
      obtain ⟨hpath, hscratch⟩ := ne_of_mem_directories hd
      have hother : ∀ k, k ≠ d →
          ((Change.mkdir d).apply ns).lookup k = ns.lookup k := by
        intro k hk
        exact Change.lookup_apply_of_not_mem (by simpa [Change.names] using hk)
      refine ⟨fun d' hd' ino => ?_, ?_, ?_⟩
      · by_cases hsame : d' = d
        · subst hsame
          rw [Change.lookup_mkdir]
          split
          · intro heq
            cases heq
          · exact h.parents d' hd' ino
        · rw [hother d' hsame]
          exact h.parents d' hd' ino
      · rw [hother _ hscratch]
        exact h.scratch
      · rw [hother _ hpath]
        exact h.target
  | link ino =>
      have hother : ∀ k, k ≠ tmp path →
          ((Change.link (tmp path) ino).apply ns).lookup k = ns.lookup k := by
        intro k hk
        exact Change.lookup_apply_of_not_mem (by simpa [Change.names] using hk)
      refine ⟨fun d hd i => ?_, ?_, ?_⟩
      · rw [hother d (ne_of_mem_directories hd).2.symm]
        exact h.parents d hd i
      · rw [Change.lookup_link]
        split
        · intro heq
          cases heq
        · exact h.scratch
      · rw [hother _ hne.symm]
        exact h.target
  | rename ino =>
      refine ⟨fun d hd i => ?_, ?_, ?_⟩
      · obtain ⟨hpath, hscratch⟩ := ne_of_mem_directories hd
        rw [Change.lookup_apply_of_not_mem
          (by simp [Change.names, hpath.symm, hscratch.symm])]
        exact h.parents d hd i
      · rw [Change.lookup_rename_src _ _ hne h.dir_tmp_ne_none]
        split
        · intro heq
          cases heq
        · exact h.scratch
      · rw [Change.lookup_rename_dst]
        split
        · intro heq
          cases heq
        · exact h.target

end Passable

variable {fs fs' : Fs Path} {call call' : Call ι} {result : IoResult}

/-- A step of a call makes at most one change of the directory entries. -/
theorem Call.Step.changes {P : ι → Prop}
    (hstep : Call.Step V path fs call result fs' call')
    (hprepared : call.Prepared V path P fs) :
    fs.Changes (Makes path) fs' := by
  cases hstep with
  | mkdir id d rest fs' hmkdir =>
      have hd : d ∈ directories path := hprepared.2 d (List.mem_cons_self ..)
      exact .of_mkdir (.mkdir d hd) hmkdir
  | create id fs' ino hcreate => exact .of_create .link hcreate
  | rename id fs' hrename => exact .of_rename .rename hrename
  | write id ino off n hpos hbound => exact .same rfl rfl
  | sync id ino => exact .same rfl rfl
  | found fresh hfound => exact .refl _ fs
  | missing fresh hmissing => exact .refl _ fs
  | unseen fresh e => exact .refl _ fs
  | load bytes hread => exact .refl _ fs
  | writeZero id ino off => exact .refl _ fs
  | fail call e error herror => exact .refl _ fs

/-- Whatever crash comes, a step of a call keeps the way clear. -/
theorem Call.Step.passable {P : ι → Prop}
    (hstep : Call.Step V path fs call result fs' call')
    (hprepared : call.Prepared V path P fs)
    (hway : fs.Always (Passable path)) : fs'.Always (Passable path) :=
  (hstep.changes hprepared).always (fun _ _ hc hns => hns.apply hc) hway

/-- So does every step of the system. -/
theorem System.Step.passable {s s' : System ι} {a : Action ι}
    (hstep : System.Step V path s a s') (hwhole : Whole V path s)
    (hway : s.fs.Always (Passable path)) : s'.fs.Always (Passable path) := by
  cases hstep with
  | call fresh hcall => exact hway
  | io result call call' fs' hcall hio =>
      exact hio.passable (hwhole.prepared call hcall) hway
  | finish result hcall => exact hway
  | kill => exact hway
  | crash kept lost => exact hway.crash kept lost

/-! ## The directories of a path -/

/-- The directory of each directory that a call makes is made before it, or is
the working directory. -/
theorem dropLast_mem_of_directories {before rest : List Path} {d : Path}
    (h : directories path = before ++ d :: rest) :
    d.dropLast = [] ∨ d.dropLast ∈ before := by
  rw [directories] at h
  split at h
  · simp at h
  next parent hparent =>
    split at h
    · simp at h
    · have hget : ∀ i (hi : i < (before ++ d :: rest).length),
          (before ++ d :: rest)[i] = parent.take (i + 1) := by
        intro i hi
        simp only [← h, List.getElem_tail, List.getElem_inits]
      have hd : d = parent.take (before.length + 1) := by
        have hlast := hget before.length (by simp)
        simpa using hlast
      have hlength : before.length < parent.length := by
        have hsum := congrArg List.length h
        simp only [List.length_tail, List.length_inits, List.length_append,
          List.length_cons] at hsum
        omega
      have hdrop : d.dropLast = parent.take before.length := by
        rw [hd, List.dropLast_eq_take, List.take_take, List.length_take]
        congr 1
        omega
      rcases List.eq_nil_or_concat before with rfl | ⟨front, last, rfl⟩
      · left
        rw [hdrop, List.length_nil, List.take_zero]
      · right
        have hbefore := hget front.length (by simp)
        have hlast : last = parent.take (front.length + 1) := by
          simpa using hbefore
        have hsame : d.dropLast = last := by
          rw [hdrop, hlast, List.concat_eq_append, List.length_append,
            List.length_singleton]
        rw [hsame]
        simp

/-- When the directories that a call makes are in place, so is the one that is
to hold the path. -/
theorem holds_of_inPlace {ns : Namespace Path} (hnamed : path.Named)
    (hdir : DirTree.dir path ≠ none)
    (hinPlace : ∀ d ∈ directories path, ns.lookup d = some .dir) :
    ns.holds path = true := by
  obtain ⟨parent, hparent⟩ := Option.ne_none_iff_exists'.mp hdir
  have hname : path.parent = some parent := by
    simp only [DirTree.dir] at hparent
    split at hparent
    · cases hparent
    · exact hparent
  have hlookup : ns.lookup parent = some .dir := by
    by_cases hempty : parent = []
    · subst hempty
      rfl
    · apply hinPlace
      have hsub : parent <+: path := Path.parent_prefix hname
      have hne : parent.asOsStr ≠ [] := by
        intro hstr
        apply hempty
        refine Path.eq_nil_of_asOsStr_eq_nil ?_ hstr
        exact fun hmem => hnamed (hsub.subset hmem)
      simp only [directories, hname, List.isEmpty_iff, hne, if_false]
      exact Path.self_mem_tail_inits hempty
  rw [Namespace.holds, hparent]
  simp [hlookup]

/-! ## A call that nothing disturbs -/

/-- The call is past the making of directories and has not returned. -/
def Call.Fills : Call ι → Prop
  | .create _ | .write _ _ _ | .sync _ _ | .rename _ => True
  | .probe _ | .read | .mkdir _ _ _ | .done _ => False

theorem fills_writeAll (V : VZGenericMachineIdentifier ι) (id : ι)
    (ino off : Nat) : (writeAll V id ino off).Fills := by
  rw [writeAll]
  split <;> trivial

/-- A call that fills its scratch file goes on to do so until it is done. -/
theorem Call.Step.fills (hstep : Call.Step V path fs call result fs' call')
    (h : call.Fills) : call'.Fills ∨ call'.Finished := by
  cases hstep with
  | create id fs' ino hcreate => exact Or.inl (fills_writeAll V id ino 0)
  | write id ino off n hpos hbound =>
      exact Or.inl (fills_writeAll V id ino (off + n))
  | writeZero id ino off => exact Or.inr ⟨_, rfl⟩
  | sync id ino => exact Or.inl trivial
  | rename id fs' hrename => exact Or.inr ⟨_, rfl⟩
  | fail call e error herror => exact Or.inr ⟨_, rfl⟩
  | found fresh hfound => exact h.elim
  | missing fresh hmissing => exact h.elim
  | unseen fresh e => exact h.elim
  | load bytes hread => exact h.elim
  | mkdir id d rest fs' hmkdir => exact h.elim

/-- The call is on its way to return `id` and leave it at the path: it loads
what is there, or it makes the missing directories in order and persists. -/
def Call.Recovering (V : VZGenericMachineIdentifier ι) (path : Path) (id : ι)
    (fs : Fs Path) : Call ι → Prop
  | .probe fresh => fs.read path = some (V.dataRepresentation id) ∨
      fs.lookup path = none ∧ fresh = id
  | .read => fs.read path = some (V.dataRepresentation id)
  | .mkdir id' d rest => id' = id ∧ fs.lookup path = none ∧
      ∃ before, directories path = before ++ d :: rest ∧
        ∀ d' ∈ before, fs.lookup d' = some .dir
  | .done result =>
      result = .ok id ∧ fs.read path = some (V.dataRepresentation id)
  | call => call.OnCourse V path id fs ∧ Ready path fs

variable {id : ι}

theorem Call.Recovering.prepared (h : call.Recovering V path id fs) :
    call.Prepared V path (fun _ => True) fs := by
  cases call with
  | probe fresh => trivial
  | read => trivial
  | mkdir id' d rest =>
      obtain ⟨-, -, before, hsplit, -⟩ := h
      exact ⟨trivial, fun d' hd' => hsplit ▸ List.mem_append_right _ hd'⟩
  | create id' => trivial
  | write id' ino off => exact ⟨trivial, h.1.1.2⟩
  | sync id' ino => exact ⟨trivial, h.1.1.2⟩
  | rename id' => exact ⟨trivial, h.1.1.2⟩
  | done result => trivial

theorem recovering_of_onCourse (hcourse : call.OnCourse V path id fs)
    (hready : Ready path fs) (h : call.Fills ∨ call.Finished) :
    call.Recovering V path id fs := by
  cases call with
  | create id' => exact ⟨hcourse, hready⟩
  | write id' ino off => exact ⟨hcourse, hready⟩
  | sync id' ino => exact ⟨hcourse, hready⟩
  | rename id' => exact ⟨hcourse, hready⟩
  | done result => exact hcourse
  | probe fresh => exact h.elim False.elim fun ⟨_, hdone⟩ => nomatch hdone
  | read => exact hcourse.elim
  | mkdir id' d rest => exact h.elim False.elim fun ⟨_, hdone⟩ => nomatch hdone

/-- The rest of the directories, when those before them are in place. -/
theorem recovering_createDirAll {before ds : List Path}
    (hnamed : path.Named) (hpass : Passable path fs.current)
    (hnone : fs.lookup path = none) (hsplit : directories path = before ++ ds)
    (hbefore : ∀ d ∈ before, fs.lookup d = some .dir) :
    (createDirAll id ds).Recovering V path id fs := by
  cases ds with
  | cons d rest => exact ⟨rfl, hnone, before, hsplit, hbefore⟩
  | nil =>
      rw [List.append_nil] at hsplit
      have hinPlace : ∀ d ∈ directories path, fs.lookup d = some .dir :=
        hsplit ▸ hbefore
      have hholds : fs.current.holds path = true :=
        holds_of_inPlace hnamed hpass.dir_ne_none hinPlace
      exact ⟨⟨rfl, hnone⟩, hholds, hinPlace, hpass.scratch⟩

/-- The next directory can be made. -/
theorem exists_mkdir {before rest : List Path} {d : Path}
    (hpass : Passable path fs.current)
    (hsplit : directories path = before ++ d :: rest)
    (hbefore : ∀ d' ∈ before, fs.lookup d' = some .dir) :
    ∃ fs', fs.mkdir d = some fs' := by
  have hd : d ∈ directories path := by simp [hsplit]
  cases hlookup : fs.lookup d with
  | some entry =>
      cases entry with
      | file ino => exact (hpass.parents d hd ino hlookup).elim
      | dir => exact ⟨fs, Fs.mkdir_of_lookup hlookup⟩
  | none =>
      have hholds : fs.current.holds d = true := by
        have hdir : DirTree.dir d = some d.dropLast := by
          cases hname : d.fileName with
          | none =>
              have hroot : fs.lookup d = some .dir := by
                simp [Fs.lookup, Namespace.lookup, DirTree.dir, hname]
              rw [hlookup] at hroot
              cases hroot
          | some name =>
              obtain ⟨dir, rfl⟩ := Path.fileName_eq_some_iff.mp hname
              simp [DirTree.dir]
        have hparent : fs.lookup d.dropLast = some .dir := by
          rcases dropLast_mem_of_directories hsplit with hnil | hmem
          · rw [hnil]
            rfl
          · exact hbefore _ hmem
        simp only [Namespace.holds, hdir, beq_iff_eq]
        exact hparent
      refine ⟨fs.push (.mkdir d) (Change.below_mkdir _ d), ?_⟩
      rw [Fs.mkdir, hlookup]
      exact if_pos hholds

/-- The next step of a call that recovers succeeds, and the call goes on to
recover. -/
theorem Call.Recovering.advance (h : call.Recovering V path id fs)
    (hnamed : path.Named) (hpass : Passable path fs.current) (n : Nat) :
    (call.advance V path fs n).2.Recovering V path id
      (call.advance V path fs n).1 := by
  have hfills : call.Fills → call.OnCourse V path id fs ∧ Ready path fs →
      (call.advance V path fs n).2.Recovering V path id
        (call.advance V path fs n).1 := by
    rintro hfills ⟨hcourse, hready⟩
    have hundone : ¬ call.Finished := by
      rintro ⟨result, rfl⟩
      exact hfills
    have hsingle : fs.Unlinked (· = tmp path) := by
      rintro k k' ino rfl rfl _ _
      rfl
    obtain ⟨hcourse', hframe, -⟩ := hcourse.advance hready hsingle rfl n
    obtain ⟨result, hstep⟩ := call.advance_step V path fs n hundone
    exact recovering_of_onCourse hcourse' (hready.frame hframe)
      (hstep.fills hfills)
  cases call with
  | probe fresh =>
      rcases h with hread | ⟨hnone, rfl⟩
      · obtain ⟨ino, hino, -⟩ := Fs.read_eq_some_iff.mp hread
        have hfound : (Call.probe fresh).step V path fs .ok =
            some (fs, .read) := by simp [Call.step, hino]
        rw [Call.advance_of_step hfound]
        exact hread
      · have hmissing : (Call.probe fresh).step V path fs .ok =
            some (fs, persist path fresh) := by simp [Call.step, hnone]
        rw [Call.advance_of_step hmissing]
        exact recovering_createDirAll hnamed hpass hnone
          (List.nil_append _).symm (List.forall_mem_nil _)
  | read =>
      have hload : Call.read.step V path fs .ok =
          some (fs, .done (.ok id)) := by
        have hrestore : restore V path (V.dataRepresentation id) = .ok id := by
          rw [restore, V.init_dataRepresentation]
        have hread : fs.read path = some (V.dataRepresentation id) := h
        rw [Call.step, hread, Option.map_some, hrestore]
      rw [Call.advance_of_step hload]
      exact ⟨rfl, h⟩
  | mkdir id' d rest =>
      obtain ⟨rfl, hnone, before, hsplit, hbefore⟩ := h
      obtain ⟨fs', hmkdir⟩ := exists_mkdir hpass hsplit hbefore
      have hbefore' := inPlace_of_mkdir hmkdir hbefore
      have hmade : (Call.mkdir id' d rest).step V path fs .ok =
          some (fs', createDirAll id' rest) := by
        rw [Call.step, hmkdir, Option.map_some]
      rw [Call.advance_of_step hmade]
      have hd : d ∈ directories path := by simp [hsplit]
      have hpass' : Passable path fs'.current :=
        (Fs.Changes.of_mkdir (.mkdir d hd) hmkdir).current
          (fun _ _ hc hns => hns.apply hc) hpass
      have hnone' : fs'.lookup path = none :=
        (Fs.lookup_mkdir_of_ne hmkdir (ne_of_mem_directories hd).1).trans hnone
      exact recovering_createDirAll hnamed hpass' hnone'
        (by simp [hsplit]) hbefore'
  | create id' => exact hfills trivial h
  | write id' ino off => exact hfills trivial h
  | sync id' ino => exact hfills trivial h
  | rename id' => exact hfills trivial h
  | done result => exact h

/-- The steps of a call that nothing disturbs, with the number of bytes that
the next write accepts given for each step. -/
def Call.undisturbed (V : VZGenericMachineIdentifier ι) (path : Path)
    (chunks : List Nat) (start : Fs Path × Call ι) : Fs Path × Call ι :=
  chunks.foldl (fun now n => now.2.advance V path now.1 n) start

theorem Call.Recovering.undisturbed (h : call.Recovering V path id fs)
    (hnamed : path.Named) (hpass : Passable path fs.current)
    (chunks : List Nat) :
    (Call.undisturbed V path chunks (fs, call)).2.Recovering V path id
      (Call.undisturbed V path chunks (fs, call)).1 := by
  induction chunks generalizing fs call with
  | nil => exact h
  | cons n chunks ih =>
      have hnext := h.advance hnamed hpass n
      refine ih hnext ?_
      by_cases hdone : call.Finished
      · obtain ⟨result, rfl⟩ := hdone
        exact hpass
      · obtain ⟨result, hstep⟩ := call.advance_step V path fs n hdone
        exact (hstep.changes h.prepared).current
          (fun _ _ hc hns => hns.apply hc) hpass

end Kasou.MachineIdentifier
