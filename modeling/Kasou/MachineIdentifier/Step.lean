import Kasou.MachineIdentifier.LoadOrCreate

/-!
# What one step of a call can do

`Call.Step` lists the steps of a call with what each does to the file system,
and `System.Step` those of the system.  The step functions are taken apart
here only; the invariants are proved by cases on these lists.
-/

namespace Kasou.MachineIdentifier

open CrashFs

variable {ι : Type}

/-- The steps of a call. -/
inductive Call.Step (V : VZGenericMachineIdentifier ι) (path : Path)
    (fs : Fs Path) : Call ι → IoResult → Fs Path → Call ι → Prop where
  | found (fresh : ι) (hfound : fs.lookup path ≠ none) :
      Step V path fs (.probe fresh) .ok fs .read
  | missing (fresh : ι) (hmissing : fs.lookup path = none) :
      Step V path fs (.probe fresh) .ok fs (persist path fresh)
  /-- The existence probe fails, whether or not there is a file. -/
  | unseen (fresh : ι) (e : Text) :
      Step V path fs (.probe fresh) (.failed e) fs (persist path fresh)
  | load (bytes : List UInt8) (hread : fs.read path = some bytes) :
      Step V path fs .read .ok fs (.done (restore V path bytes))
  | mkdir (id : ι) (d : Path) (rest : List Path) (fs' : Fs Path)
      (hmkdir : fs.mkdir d = some fs') :
      Step V path fs (.mkdir id d rest) .ok fs' (createDirAll id rest)
  | create (id : ι) (fs' : Fs Path) (ino : Nat)
      (hcreate : fs.create (tmp path) = some (fs', ino)) :
      Step V path fs (.create id) .ok fs' (writeAll V id ino 0)
  | write (id : ι) (ino off n : Nat) (hpos : n ≠ 0)
      (hbound : off + n ≤ (V.dataRepresentation id).length) :
      Step V path fs (.write id ino off) (.wrote n)
        (fs.pwrite ino off (((V.dataRepresentation id).drop off).take n))
        (writeAll V id ino (off + n))
  | writeZero (id : ι) (ino off : Nat) :
      Step V path fs (.write id ino off) (.wrote 0) fs (.done (.error
        (writeError path "failed to write whole buffer".toList)))
  | sync (id : ι) (ino : Nat) :
      Step V path fs (.sync id ino) .ok (fs.fsync ino) (.rename id)
  | rename (id : ι) (fs' : Fs Path)
      (hrename : fs.rename (tmp path) path = some fs') :
      Step V path fs (.rename id) .ok fs' (.done (.ok id))
  | fail (call : Call ι) (e : Text) (error : KasouError)
      (herror : call.failure path e = some error) :
      Step V path fs call (.failed e) fs (.done (.error error))

variable {V : VZGenericMachineIdentifier ι} {path : Path}

section StepSound

variable {fs fs' : Fs Path} {call call' : Call ι}

/-- A failed step that the call sees as one ends it. -/
theorem Call.step_failure_sound {e : Text}
    (hfailure : (call.failure path e).map
      (fun error => (fs, Call.done (.error error))) = some (fs', call')) :
    Call.Step V path fs call (.failed e) fs' call' := by
  obtain ⟨error, herror, heq⟩ := Option.map_eq_some_iff.mp hfailure
  obtain ⟨rfl, rfl⟩ := Prod.mk.inj heq
  exact .fail call e error herror

/-- Only the probe takes a failure for an answer. -/
theorem Call.step_failed_sound {e : Text}
    (hstep : call.step V path fs (.failed e) = some (fs', call')) :
    Call.Step V path fs call (.failed e) fs' call' := by
  cases call with
  | probe fresh =>
      obtain ⟨rfl, rfl⟩ := Prod.mk.inj (Option.some.inj hstep)
      exact .unseen fresh e
  | read | mkdir _ _ _ | create _ | write _ _ _ | sync _ _ | rename _
    | done _ =>
      exact Call.step_failure_sound hstep

/-- Only a call that is writing has written something. -/
theorem Call.step_wrote_sound {n : Nat}
    (hstep : call.step V path fs (.wrote n) = some (fs', call')) :
    Call.Step V path fs call (.wrote n) fs' call' := by
  cases call with
  | write id ino off =>
      rw [Call.step] at hstep
      by_cases hzero : n = 0
      · rw [if_pos hzero] at hstep
        obtain ⟨rfl, rfl⟩ := Prod.mk.inj (Option.some.inj hstep)
        exact hzero ▸ .writeZero id ino off
      · rw [if_neg hzero] at hstep
        split at hstep
        next hbound =>
          obtain ⟨rfl, rfl⟩ := Prod.mk.inj (Option.some.inj hstep)
          exact .write id ino off n hzero hbound
        · cases hstep
  | probe _ | read | mkdir _ _ _ | create _ | sync _ _ | rename _ | done _ =>
      cases hstep

theorem Call.step_ok_sound
    (hstep : call.step V path fs .ok = some (fs', call')) :
    Call.Step V path fs call .ok fs' call' := by
  cases call with
  | probe fresh =>
      obtain ⟨rfl, rfl⟩ := Prod.mk.inj (Option.some.inj hstep)
      split
      next hfound => exact .found fresh (Option.isSome_iff_ne_none.mp hfound)
      next hmissing => exact .missing fresh (by simpa using hmissing)
  | read =>
      obtain ⟨bytes, hread, heq⟩ := Option.map_eq_some_iff.mp hstep
      obtain ⟨rfl, rfl⟩ := Prod.mk.inj heq
      exact .load bytes hread
  | mkdir id d rest =>
      obtain ⟨fs₁, hmkdir, heq⟩ := Option.map_eq_some_iff.mp hstep
      obtain ⟨rfl, rfl⟩ := Prod.mk.inj heq
      exact .mkdir id d rest fs₁ hmkdir
  | create id =>
      obtain ⟨⟨fs₁, ino⟩, hcreate, heq⟩ := Option.map_eq_some_iff.mp hstep
      obtain ⟨rfl, rfl⟩ := Prod.mk.inj heq
      exact .create id fs₁ ino hcreate
  | sync id ino =>
      obtain ⟨rfl, rfl⟩ := Prod.mk.inj (Option.some.inj hstep)
      exact .sync id ino
  | rename id =>
      obtain ⟨fs₁, hrename, heq⟩ := Option.map_eq_some_iff.mp hstep
      obtain ⟨rfl, rfl⟩ := Prod.mk.inj heq
      exact .rename id fs₁ hrename
  | write _ _ _ | done _ => cases hstep

/-- The step function does nothing that `Call.Step` does not list. -/
theorem Call.step_sound {result : IoResult}
    (hstep : call.step V path fs result = some (fs', call')) :
    Call.Step V path fs call result fs' call' := by
  cases result with
  | ok => exact Call.step_ok_sound hstep
  | wrote n => exact Call.step_wrote_sound hstep
  | failed e => exact Call.step_failed_sound hstep

end StepSound

/-! ## How a call ends -/

/-- The error of a failed step is not the one for a corrupt file. -/
theorem failure_ne_corruptError {call : Call ι} {e : Text} {error : KasouError}
    (h : call.failure path e = some error) : error ≠ corruptError path := by
  have hne : ∀ {text : Text}, text.take 2 ≠ ['m', 'a'] →
      KasouError.validation text ≠ corruptError path := by
    intro text htext heq
    exact htext (congrArg (List.take 2) (KasouError.validation.inj heq))
  cases call with
  | probe fresh => cases h
  | read => exact Option.some.inj h ▸ hne (by simp)
  | mkdir id d rest => exact Option.some.inj h ▸ hne (by simp)
  | create id => exact Option.some.inj h ▸ hne (by simp)
  | write id ino off => exact Option.some.inj h ▸ hne (by simp)
  | sync id ino => exact Option.some.inj h ▸ hne (by simp)
  | rename id => exact Option.some.inj h ▸ hne (by simp)
  | done result => cases h

theorem createDirAll_ne_done (id : ι) (ds : List Path)
    (result : Except KasouError ι) : createDirAll id ds ≠ .done result := by
  cases ds <;> nofun

theorem writeAll_ne_done (id : ι) (ino off : Nat)
    (result : Except KasouError ι) : writeAll V id ino off ≠ .done result := by
  rw [writeAll]
  split <;> nofun

/-- A call ends with what it read, after its rename, or with the error of a
step that failed. -/
theorem Call.Step.of_done {fs fs' : Fs Path} {call : Call ι}
    {answer : IoResult} {result : Except KasouError ι}
    (hstep : Call.Step V path fs call answer fs' (.done result)) :
    (∃ bytes, fs.read path = some bytes ∧ fs' = fs ∧
        result = restore V path bytes) ∨
      (∃ id, call = .rename id ∧ fs.rename (tmp path) path = some fs' ∧
        result = .ok id) ∨
      ∃ error, result = .error error ∧ error ≠ corruptError path := by
  generalize hdone : Call.done result = call' at hstep
  cases hstep with
  | found fresh hfound => cases hdone
  | missing fresh hmissing =>
      exact absurd hdone.symm (createDirAll_ne_done _ _ _)
  | unseen fresh e => exact absurd hdone.symm (createDirAll_ne_done _ _ _)
  | load bytes hread =>
      exact Or.inl ⟨bytes, hread, rfl, Call.done.inj hdone⟩
  | mkdir id d rest fs' hmkdir =>
      exact absurd hdone.symm (createDirAll_ne_done _ _ _)
  | create id fs' ino hcreate =>
      exact absurd hdone.symm (writeAll_ne_done _ _ _ _)
  | write id ino off n hpos hbound =>
      exact absurd hdone.symm (writeAll_ne_done _ _ _ _)
  | writeZero id ino off =>
      have herror : (Call.write id ino off).failure path
          "failed to write whole buffer".toList = some _ := rfl
      exact Or.inr (Or.inr ⟨_, Call.done.inj hdone,
        failure_ne_corruptError herror⟩)
  | sync id ino => cases hdone
  | rename id fs' hrename =>
      exact Or.inr (Or.inl ⟨id, rfl, hrename, Call.done.inj hdone⟩)
  | fail call e error herror =>
      exact Or.inr (Or.inr ⟨error, Call.done.inj hdone,
        failure_ne_corruptError herror⟩)

/-! ## The steps of the system -/

/-- The steps of the system. -/
inductive System.Step (V : VZGenericMachineIdentifier ι) (path : Path)
    (s : System ι) : Action ι → System ι → Prop where
  | call (fresh : ι) (hcall : s.call = none) :
      Step V path s (.call fresh)
        { s with
          call := some (.probe fresh)
          generated := s.generated ++ [fresh] }
  | io (result : IoResult) (call call' : Call ι) (fs' : Fs Path)
      (hcall : s.call = some call)
      (hstep : call.Step V path s.fs result fs' call') :
      Step V path s (.io result) { s with fs := fs', call := some call' }
  | finish (result : Except KasouError ι)
      (hcall : s.call = some (.done result)) :
      Step V path s .finish
        { s with call := none, results := s.results ++ [result] }
  | kill : Step V path s .kill { s with call := none }
  | crash (kept : List Bool) (lost : Nat → List UInt8) :
      Step V path s (.crash kept lost)
        { s with fs := s.fs.crash kept lost, call := none }

theorem System.step_sound {s s' : System ι} {a : Action ι}
    (hstep : s.step V path a = some s') : System.Step V path s a s' := by
  cases a with
  | call fresh =>
      rw [step] at hstep
      split at hstep
      next hcall =>
        obtain rfl := Option.some.inj hstep
        exact .call fresh hcall
      · cases hstep
  | io result =>
      rw [step] at hstep
      split at hstep
      · cases hstep
      next call hcall =>
        obtain ⟨⟨fs', call'⟩, hio, rfl⟩ := Option.map_eq_some_iff.mp hstep
        exact .io result call call' fs' hcall (Call.step_sound hio)
  | finish =>
      rw [step] at hstep
      split at hstep
      next result hcall =>
        obtain rfl := Option.some.inj hstep
        exact .finish result hcall
      · cases hstep
  | kill =>
      obtain rfl := Option.some.inj hstep
      exact .kill
  | crash kept lost =>
      obtain rfl := Option.some.inj hstep
      exact .crash kept lost

/-- A result that has been returned stays returned. -/
theorem System.Step.mem_results {s s' : System ι} {a : Action ι}
    {result : Except KasouError ι} (hstep : System.Step V path s a s')
    (hmem : result ∈ s.results) : result ∈ s'.results := by
  cases hstep with
  | call fresh hcall => exact hmem
  | io answer call call' fs' hcall hio => exact hmem
  | finish result' hcall => exact List.mem_append_left _ hmem
  | kill => exact hmem
  | crash kept lost => exact hmem

end Kasou.MachineIdentifier
