import Kasou.MachineIdentifier.Whole

/-!
# One identifier for one path

A call decides between loading and regenerating by `path.exists()`, which is
false also when the metadata cannot be read, and it renames the scratch file
without syncing the directory.  So a second identifier can take the place of
the first after a failed probe, and after a crash that loses the rename.
Without these two events the path keeps the first identifier that a call
returned.
-/

namespace Kasou.MachineIdentifier

open CrashFs TransitionSystem

variable {ι : Type} {V : VZGenericMachineIdentifier ι} {path : Path}

/-! ## The conditions on a run -/

/-- A call has returned an identifier. -/
def System.returnedOk (s : System ι) : Bool := s.results.any Except.isOk

/-- Once an identifier has been returned, the existence probe does not fail
on a file that is there. -/
def System.probesTruly (path : Path) (s : System ι) : Action ι → Bool
  | .io (.failed _) =>
      match s.call with
      | some (.probe _) => (s.fs.lookup path).isNone || !s.returnedOk
      | _ => true
  | _ => true

/-- Once an identifier has been returned, a crash keeps the path's entry in
its directory. -/
def System.keepsEntry (path : Path) (s : System ι) : Action ι → Bool
  | .crash kept lost =>
      (s.fs.crash kept lost).lookup path == s.fs.lookup path || !s.returnedOk
  | _ => true

/-- A crash of the whole system. -/
def Action.isCrash : Action ι → Bool
  | .crash _ _ => true
  | _ => false

theorem System.returnedOk_eq_true_iff {s : System ι} :
    s.returnedOk = true ↔ ∃ id, .ok id ∈ s.results := by
  rw [returnedOk, List.any_eq_true]
  constructor
  · rintro ⟨result, hmem, hok⟩
    cases result with
    | error e => cases hok
    | ok id => exact ⟨id, hmem⟩
  · rintro ⟨id, hmem⟩
    exact ⟨_, hmem, rfl⟩

/-! ## The invariant -/

/-- The file at the path is there and stands for `id`. -/
def Holds (V : VZGenericMachineIdentifier ι) (path : Path) (fs : Fs Path)
    (id : ι) : Prop :=
  ∃ bytes, fs.read path = some bytes ∧
    V.initWithDataRepresentation bytes = some id

theorem Holds.unique {fs : Fs Path} {id id' : ι} (h : Holds V path fs id)
    (h' : Holds V path fs id') : id = id' := by
  obtain ⟨bytes, hread, hid⟩ := h
  obtain ⟨bytes', hread', hid'⟩ := h'
  rw [hread, Option.some.injEq] at hread'
  subst hread'
  exact Option.some.inj (hid.symm.trans hid')

theorem Holds.lookup_ne_none {fs : Fs Path} {id : ι}
    (h : Holds V path fs id) : fs.lookup path ≠ none := by
  obtain ⟨bytes, hread, -⟩ := h
  obtain ⟨ino, hino, -⟩ := Fs.read_eq_some_iff.mp hread
  rw [hino]
  nofun

/-- The call has decided to persist an identifier. -/
def Call.Persists : Call ι → Prop
  | .probe _ | .read | .done _ => False
  | .mkdir _ _ _ | .create _ | .write _ _ _ | .sync _ _ | .rename _ => True

/-- A call that is not persisting an identifier does not touch the file
system. -/
theorem Call.Step.fs_eq {fs fs' : Fs Path} {call call' : Call ι}
    {result : IoResult} (hstep : Call.Step V path fs call result fs' call')
    (hquiet : ¬ call.Persists) : fs' = fs := by
  cases hstep with
  | found fresh hfound => rfl
  | missing fresh hmissing => rfl
  | unseen fresh e => rfl
  | load bytes hread => rfl
  | mkdir id d rest fs' hmkdir => exact (hquiet trivial).elim
  | create id fs' ino hcreate => exact (hquiet trivial).elim
  | write id ino off n hpos hbound => exact (hquiet trivial).elim
  | writeZero id ino off => rfl
  | sync id ino => exact (hquiet trivial).elim
  | rename id fs' hrename => exact (hquiet trivial).elim
  | fail call e error herror => rfl

/-- A call comes to persist an identifier when its probe finds nothing or
fails. -/
theorem Call.Step.of_persists {fs fs' : Fs Path} {call call' : Call ι}
    {result : IoResult} (hstep : Call.Step V path fs call result fs' call')
    (hpersists : call'.Persists) :
    call.Persists ∨ ∃ fresh, call = .probe fresh ∧
      (fs.lookup path = none ∨ ∃ e, result = .failed e) := by
  cases hstep with
  | found fresh hfound => exact hpersists.elim
  | missing fresh hmissing => exact Or.inr ⟨fresh, rfl, Or.inl hmissing⟩
  | unseen fresh e => exact Or.inr ⟨fresh, rfl, Or.inr ⟨e, rfl⟩⟩
  | load bytes hread => exact hpersists.elim
  | mkdir id d rest fs' hmkdir => exact Or.inl trivial
  | create id fs' ino hcreate => exact Or.inl trivial
  | write id ino off n hpos hbound => exact Or.inl trivial
  | writeZero id ino off => exact hpersists.elim
  | sync id ino => exact Or.inl trivial
  | rename id fs' hrename => exact hpersists.elim
  | fail call e error herror => exact hpersists.elim

/-- A call that is about to return an identifier has left it at the path. -/
theorem Call.Step.holds {fs fs' : Fs Path} {call : Call ι}
    {result : IoResult} {id : ι}
    (hstep : Call.Step V path fs call result fs' (.done (.ok id)))
    (hprepared : call.Prepared V path (fun _ => True) fs) :
    Holds V path fs' id := by
  rcases hstep.of_done with ⟨bytes, hread, rfl, hload⟩ |
    ⟨id', rfl, hrename, hok⟩ | ⟨error, herror, -⟩
  · refine ⟨bytes, hread, ?_⟩
    rw [restore] at hload
    split at hload
    next id' hid' => rw [hid', Except.ok.inj hload]
    · cases hload
  · obtain rfl := Except.ok.inj hok
    obtain ⟨-, ino, hino, hdata, -⟩ := hprepared
    refine ⟨V.dataRepresentation id, ?_, V.init_dataRepresentation id⟩
    rw [Fs.read_of_lookup (Fs.lookup_rename_dst hrename hino),
      Fs.data_rename hrename, hdata]
  · cases herror

/-- The invariant: what has been returned is at the path, and then no call is
persisting anything. -/
structure Steady (V : VZGenericMachineIdentifier ι) (path : Path)
    (s : System ι) : Prop where
  prepared : ∀ call, s.call = some call →
    call.Prepared V path (fun _ => True) s.fs
  persisting : ∀ call, s.call = some call → call.Persists →
    ∀ id, .ok id ∉ s.results
  returning : ∀ id, s.call = some (.done (.ok id)) → Holds V path s.fs id
  returned : ∀ id, .ok id ∈ s.results → Holds V path s.fs id

theorem steady_boot (fs : Fs Path) : Steady V path (System.boot fs) where
  prepared := nofun
  persisting := nofun
  returning := nofun
  returned := nofun

/-- A step of a call keeps the invariant, unless it is a probe that fails on
a file that is there. -/
theorem Steady.io {s : System ι} {result : IoResult} {call call' : Call ι}
    {fs' : Fs Path} (hsteady : Steady V path s)
    (htruly : s.probesTruly path (.io result) = true)
    (hcall : s.call = some call)
    (hstep : Call.Step V path s.fs call result fs' call') :
    Steady V path { s with fs := fs', call := some call' } := by
  have hprepared := hsteady.prepared call hcall
  constructor
  · intro c h
    obtain rfl := Option.some.inj h
    exact hstep.prepared hprepared
  · intro c h hpersists id hid
    obtain rfl := Option.some.inj h
    rcases hstep.of_persists hpersists with hpersists | ⟨fresh, rfl, hnone⟩
    · exact hsteady.persisting call hcall hpersists id hid
    · have hthere := (hsteady.returned id hid).lookup_ne_none
      rcases hnone with hnone | ⟨e, rfl⟩
      · exact hthere hnone
      · have hok : s.returnedOk = true :=
          System.returnedOk_eq_true_iff.mpr ⟨id, hid⟩
        simp [System.probesTruly, hcall, hok, hthere] at htruly
  · intro id h
    obtain rfl := Option.some.inj h
    exact hstep.holds hprepared
  · intro id hid
    by_cases hpersists : call.Persists
    · exact (hsteady.persisting call hcall hpersists id hid).elim
    · obtain rfl := hstep.fs_eq hpersists
      exact hsteady.returned id hid

/-- Every step but a crash keeps the invariant, unless it is a probe that
fails on a file that is there. -/
theorem System.Step.steady {s s' : System ι} {a : Action ι}
    (hstep : System.Step V path s a s') (hsteady : Steady V path s)
    (htruly : s.probesTruly path a = true) (hcrash : a.isCrash = false) :
    Steady V path s' := by
  cases hstep with
  | call fresh hcall =>
      constructor
      · intro c h
        obtain rfl := Option.some.inj h
        trivial
      · intro c h hpersists
        obtain rfl := Option.some.inj h
        exact hpersists.elim
      · nofun
      · exact hsteady.returned
  | io result call call' fs' hcall hio => exact hsteady.io htruly hcall hio
  | finish result hcall =>
      refine ⟨nofun, nofun, nofun, fun id hid => ?_⟩
      rcases List.mem_append.mp hid with hold | hnew
      · exact hsteady.returned id hold
      · rw [List.mem_singleton] at hnew
        exact hsteady.returning id (hnew ▸ hcall)
  | kill => exact ⟨nofun, nofun, nofun, hsteady.returned⟩
  | crash kept lost => cases hcrash

/-! ## Write-once -/

/-- While an identifier has been returned, a step that keeps the invariant
does not change the bytes at the path. -/
theorem System.Step.read_eq {s s' : System ι} {a : Action ι} {id : ι}
    (hstep : System.Step V path s a s') (hsteady : Steady V path s)
    (hcrash : a.isCrash = false) (hid : .ok id ∈ s.results) :
    s'.fs.read path = s.fs.read path ∧ .ok id ∈ s'.results := by
  cases hstep with
  | call fresh hcall => exact ⟨rfl, hid⟩
  | io result call call' fs' hcall hio =>
      have hquiet : ¬ call.Persists := fun hpersists =>
        hsteady.persisting call hcall hpersists id hid
      obtain rfl := hio.fs_eq hquiet
      exact ⟨rfl, hid⟩
  | finish result hcall => exact ⟨rfl, List.mem_append_left _ hid⟩
  | kill => exact ⟨rfl, hid⟩
  | crash kept lost => cases hcrash

/-- **The identifier is write-once** in every run without crashes in which,
once a call has returned an identifier, the existence probe does not fail on
the file that is there: the bytes at the path stay as they are, and every
later call returns that identifier or an error. -/
theorem write_once_of_probesTruly {fs : Fs Path}
    {pre post : List (Action ι)} {s s' : System ι} {id : ι}
    (hcrash : ∀ a ∈ pre ++ post, a.isCrash = false)
    (htruly : Guarded (System.step V path)
      (fun s a => s.probesTruly path a = true) (System.boot fs) (pre ++ post))
    (hpre : run (System.step V path) (System.boot fs) pre = some s)
    (hid : .ok id ∈ s.results)
    (hpost : run (System.step V path) s post = some s') :
    s'.fs.read path = s.fs.read path ∧
      ∀ id', .ok id' ∈ s'.results → id' = id := by
  have hguard : Guarded (System.step V path)
      (fun s a => s.probesTruly path a = true ∧ a.isCrash = false)
      (System.boot fs) (pre ++ post) := by
    rw [guarded_iff] at htruly ⊢
    intro before a after s heq hrun
    exact ⟨htruly before a after s heq hrun, hcrash a (by simp [heq])⟩
  have hsteady : Steady V path s := by
    refine guarded_invariant ?_ (steady_boot fs) hguard.of_append hpre
    rintro s a s' hsteady ⟨htruly, hcrash⟩ hstep
    exact (System.step_sound hstep).steady hsteady htruly hcrash
  have hkept : Steady V path s' ∧ s'.fs.read path = s.fs.read path ∧
      .ok id ∈ s'.results := by
    refine guarded_invariant (P := fun s' => Steady V path s' ∧
      s'.fs.read path = s.fs.read path ∧ .ok id ∈ s'.results) ?_
      ⟨hsteady, rfl, hid⟩ (hguard.of_run hpre) hpost
    rintro s₁ a s₂ ⟨hsteady, hread, hid⟩ ⟨htruly, hcrash⟩ hstep
    have hstep := System.step_sound hstep
    obtain ⟨hread', hid'⟩ := hstep.read_eq hsteady hcrash hid
    exact ⟨hstep.steady hsteady htruly hcrash, hread'.trans hread, hid'⟩
  obtain ⟨hsteady', hread, hid'⟩ := hkept
  exact ⟨hread, fun id' hmem =>
    (hsteady'.returned id' hmem).unique (hsteady'.returned id hid')⟩

/-- A call that persists its identifier, and one that loads it. -/
def persistedThenLoaded : List (Action UInt8) :=
  persisting 1 ++ [.io .ok, .finish, .call 2, .io .ok, .io .ok, .finish]

theorem write_once_after_load :
    ∃ s s', run (System.step byteIdentifier (vmFile "machine-identifier.bin"))
        (System.boot emptyFs) (persistedThenLoaded.take 10) = some s ∧
      run (System.step byteIdentifier (vmFile "machine-identifier.bin"))
        s (persistedThenLoaded.drop 10) = some s' ∧
      s'.fs.read (vmFile "machine-identifier.bin") =
        s.fs.read (vmFile "machine-identifier.bin") :=
  ⟨_, _, rfl, rfl, (@write_once_of_probesTruly UInt8 byteIdentifier
    (vmFile "machine-identifier.bin") emptyFs
    (persistedThenLoaded.take 10) (persistedThenLoaded.drop 10) _ _ 1
    (by decide) (by decide) rfl (List.mem_singleton_self _) rfl).1⟩

/-- A second call whose existence probe fails. -/
def persistedThenUnseen : List (Action UInt8) :=
  persisting 1 ++ [.io .ok, .finish, .call 2,
    .io (.failed "Input/output error (os error 5)".toList), .io .ok, .io .ok,
    .io .ok, .io (.wrote 2), .io .ok, .io .ok, .finish]

/-- It regenerates the identifier and replaces the one at the path. -/
theorem not_write_once_after_failed_probe :
    ∃ s s', run (System.step byteIdentifier (vmFile "machine-identifier.bin"))
        (System.boot emptyFs) (persistedThenUnseen.take 10) = some s ∧
      run (System.step byteIdentifier (vmFile "machine-identifier.bin"))
        s (persistedThenUnseen.drop 10) = some s' ∧
      s.results = [.ok 1] ∧ s'.results = [.ok 1, .ok 2] ∧
      s.fs.read (vmFile "machine-identifier.bin") = some [0x6d, 1] ∧
      s'.fs.read (vmFile "machine-identifier.bin") = some [0x6d, 2] :=
  ⟨_, _, rfl, rfl, rfl, rfl, rfl, rfl⟩

end Kasou.MachineIdentifier
