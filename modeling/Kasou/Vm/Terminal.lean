import Kasou.Vm.Publication

/-!
# The Error state

`Error` is documented as terminal, and `can_transition_to` has no transition
out of it, but no writer of the state channel looks at the value it replaces.
A run keeps `Error` published exactly when it delivers no stop of the guest
and lets no host call publish its success after the error.  The delegate and
the framework decide whether that can happen: an error must find no success
that is still to be published, and no other report and no completion without
an error may follow it.
-/

namespace Kasou
namespace VmHandle

open TransitionSystem

/-- The steps that write another state than `Error` to the state channel:
the callback for a guest that stopped, and the publish of a host call whose
operation has completed without error. -/
def overwrites (h : VmHandle) : Action → Bool
  | .guestDidStop => true
  | .host _ =>
      match h.thread with
      | .running _ (.send _ _) => true
      | _ => false
  | _ => false

/-- The condition under which a published error stays: the two kinds of steps
that overwrite it do not happen. -/
def respectsError (h : VmHandle) (a : Action) : Prop :=
  h.state = .error → h.overwrites a = false

instance (h : VmHandle) (a : Action) : Decidable (h.respectsError a) :=
  inferInstanceAs (Decidable (_ → _))

theorem overwrites_enabled {h : VmHandle} {a : Action}
    (ha : h.overwrites a = true) : ∃ h', h.step a = some h' := by
  cases a with
  | guestDidStop => exact ⟨_, rfl⟩
  | host now =>
      rw [overwrites] at ha
      split at ha
      next call v rest hthread =>
        refine ⟨(h.sendState v).setThread (.running call rest), ?_⟩
        simp only [step, stepHost, hthread, stepBody]
      · cases ha
  | invoke call => cases ha
  | sync outcome => cases ha
  | poll found now => cases ha
  | complete answer => cases ha
  | didStopWithError error => cases ha

/-- A host step overwrites when it is about to write to the state channel. -/
theorem overwrites_host_iff {h : VmHandle} {now : Instant}
    (hlawful : h.thread.Lawful) :
    h.overwrites (.host now) = true ↔
      ∃ v, (h.mirrorEvent (.host now)).writes = some v ∧ v ≠ .error := by
  by_cases hsend : ∃ call v rest, h.thread = .running call (.send v rest)
  · obtain ⟨call, v, rest, hthread⟩ := hsend
    have hmirror : h.mirrorEvent (.host now) = .publish v := by
      simp only [mirrorEvent, hthread]
    rw [hthread] at hlawful
    rw [hmirror]
    exact iff_of_true (by simp only [overwrites, hthread]) ⟨v, rfl, hlawful.1⟩
  · have hsilent : h.mirrorEvent (.host now) = .silent := by
      rw [mirrorEvent]
      split
      next call v rest hthread => exact (hsend ⟨call, v, rest, hthread⟩).elim
      next => rfl
    have hkeeps : h.overwrites (.host now) = false := by
      rw [overwrites]
      split
      next call v rest hthread => exact (hsend ⟨call, v, rest, hthread⟩).elim
      next => rfl
    rw [hsilent, hkeeps]
    refine iff_of_false Bool.false_ne_true ?_
    rintro ⟨v, hv, -⟩
    cases hv

/-- An answer from the queue writes nothing to the state channel. -/
theorem writes_complete (h : VmHandle) (answer : Answer) :
    (h.mirrorEvent (.complete answer)).writes = none := by
  cases answer with
  | success =>
      rw [mirrorEvent]
      split
      · split <;> rfl
      · rfl
  | failure error => rfl
  | released => rfl

/-- A step overwrites an error exactly when it writes another state. -/
theorem overwrites_iff {h : VmHandle} {a : Action}
    (hlawful : h.thread.Lawful) :
    h.overwrites a = true ↔
      ∃ v, (h.mirrorEvent a).writes = some v ∧ v ≠ .error := by
  cases a with
  | guestDidStop => exact iff_of_true rfl ⟨.stopped, rfl, nofun⟩
  | didStopWithError error =>
      refine iff_of_false Bool.false_ne_true ?_
      rintro ⟨v, hv, hne⟩
      exact hne (Option.some.inj hv).symm
  | host now => exact overwrites_host_iff hlawful
  | complete answer =>
      refine iff_of_false Bool.false_ne_true ?_
      rintro ⟨v, hv, -⟩
      cases hv.symm.trans (writes_complete h answer)
  | invoke | sync | poll =>
      refine iff_of_false Bool.false_ne_true ?_
      rintro ⟨v, hv, -⟩
      cases hv

/-- One step from a published error: it stays exactly when the step is not one
of those that overwrite it. -/
theorem step_error_iff {h h' : VmHandle} {a : Action}
    (hlawful : h.thread.Lawful) (herror : h.state = .error)
    (hstep : h.step a = some h') :
    h'.state = .error ↔ h.overwrites a = false := by
  have hpublished : h'.state = (h.mirrorEvent a).writes.getD h.state :=
    (step_mirror hlawful hstep).1.published_eq
  have hoverwrites := overwrites_iff (a := a) hlawful
  rw [hpublished, herror, ← Bool.not_eq_true, hoverwrites]
  cases hwrites : (h.mirrorEvent a).writes with
  | none => simp
  | some v => simp

/-- **Error is terminal** exactly along the runs in which, once it has been
published, the guest is not reported to have stopped and no host call
publishes its success. -/
theorem error_terminal_iff (config : VmConfig) (schedule : List Action) :
    (∀ pre mid post h h', schedule = pre ++ mid ++ post →
      run step (create config) pre = some h → run step h mid = some h' →
      h.state = .error → h'.state = .error) ↔
    Guarded step respectsError (create config) schedule := by
  constructor
  · intro hterminal
    rw [guarded_iff]
    intro pre a post h hschedule hrun herror
    by_contra hoverwrites
    rw [Bool.not_eq_false] at hoverwrites
    obtain ⟨h', hstep⟩ := overwrites_enabled hoverwrites
    have hnext : run step h [a] = some h' :=
      run_cons_eq_some_iff.mpr ⟨h', hstep, rfl⟩
    have herror' : h'.state = .error :=
      hterminal pre [a] post h h' (by simp [hschedule]) hrun hnext herror
    rw [step_error_iff (lawful_of_run hrun) herror hstep,
      hoverwrites] at herror'
    cases herror'
  · rintro hrespects pre mid post h h' rfl hpre hmid herror
    have hguard : Guarded step respectsError h mid :=
      hrespects.of_append.of_run hpre
    refine (guarded_invariant
      (P := fun h => h.thread.Lawful ∧ h.state = .error) ?_
      ⟨lawful_of_run hpre, herror⟩ hguard hmid).2
    rintro h a h' ⟨hlawful, herror⟩ hrespect hstep
    exact ⟨(step_mirror hlawful hstep).2,
      (step_error_iff hlawful herror hstep).mpr (hrespect herror)⟩

/-- A machine that fails between the completion of `start` and the write of
the state channel that follows it. -/
def errorDuringStart : List Action :=
  [.invoke .start, .host 0, .host 0, .complete .success,
    .didStopWithError (.mk "VZErrorDomain".toList 1 "crash".toList none none []),
    .host 0, .host 0, .host 0, .host 0]

/-- The published error is then followed by `Running`. -/
theorem error_overwritten :
    ∃ h h', run step (create smokeConfig) (errorDuringStart.take 5) = some h ∧
      run step h (errorDuringStart.drop 5) = some h' ∧
      h.state = .error ∧ h'.state = .running :=
  ⟨_, _, rfl, rfl, rfl, rfl⟩

/-! ## What the delegate and the framework have to do -/

/-- Once `Error` has been published in a run of the schedule, it stays. -/
def KeepsError (config : VmConfig) (schedule : List Action) : Prop :=
  ∀ pre mid post h h', schedule = pre ++ mid ++ post →
    run step (create config) pre = some h → run step h mid = some h' →
      h.state = .error → h'.state = .error

/-- A condition on the callbacks and the completions alone: an error comes
only when no success is left to be published, and while it is published the
guest is not reported to have stopped and no operation that changes the state
completes without error. -/
def sparesError (h : VmHandle) : Action → Prop
  | .guestDidStop => h.state ≠ .error
  | .didStopWithError _ => h.thread.pending = none
  | .complete .success =>
      match h.thread with
      | .waiting _ op _ => h.state = .error → op.settles = none
      | _ => True
  | _ => True

theorem sparesError_iff {h : VmHandle} {a : Action} :
    h.sparesError a ↔ (h.mirrorEvent a).Spares .error h.mirror := by
  cases a with
  | guestDidStop => simp [sparesError, mirrorEvent, Mirror.Event.Spares, mirror]
  | didStopWithError error =>
      simp [sparesError, mirrorEvent, Mirror.Event.Spares, mirror]
  | complete answer =>
      cases answer with
      | success =>
          cases hthread : h.thread with
          | waiting call op rest =>
              simp only [sparesError, mirrorEvent, hthread]
              cases hop : op.settles with
              | none => exact iff_of_true (fun _ => rfl) trivial
              | some v => simp [Mirror.Event.Spares, mirror]
          | _ =>
              simp only [sparesError, mirrorEvent, hthread]
              exact iff_of_true trivial trivial
      | failure error => exact iff_of_true trivial trivial
      | released => exact iff_of_true trivial trivial
  | host now =>
      refine iff_of_true trivial ?_
      rw [mirrorEvent]
      split <;> trivial
  | invoke | sync | poll => exact iff_of_true trivial trivial

theorem sparesError_of_onQueue {h : VmHandle} {a : Action}
    (ha : a.onQueue = false) : h.sparesError a := by
  cases a with
  | complete answer => cases ha
  | guestDidStop => cases ha
  | didStopWithError error => cases ha
  | invoke | host | sync | poll => trivial

/-- A pending publish is of another state than `Error`. -/
theorem Body.ne_error_of_publishes {body : Body} {v : VmState}
    (hlawful : body.Lawful) (hv : body.publishes = some v) : v ≠ .error := by
  induction body with
  | send v' rest =>
      obtain rfl := Option.some.inj hv
      exact hlawful.1
  | emit kind rest ih => exact ih hlawful hv
  | syncFile path rest ih => exact ih hlawful hv
  | _ => cases hv

theorem Thread.ne_error_of_pending {t : Thread} {v : VmState}
    (hlawful : t.Lawful) (hv : t.pending = some v) : v ≠ .error := by
  cases t with
  | idle => cases hv
  | running call body => exact Body.ne_error_of_publishes hlawful hv
  | waiting call op rest => cases hv
  | answered call op answer rest =>
      cases answer with
      | success => exact Body.ne_error_of_publishes hlawful.2 hv
      | _ => cases hv

/-- Steps off the queue lead to a state in which `v` is published. -/
def Reaches (h : VmHandle) (v : VmState) : Prop :=
  ∃ more h', (∀ a ∈ more, a.onQueue = false) ∧
    run step h more = some h' ∧ h'.state = v

theorem Reaches.of_step {h h' : VmHandle} {a : Action} {v : VmState}
    (hreaches : h'.Reaches v) (ha : a.onQueue = false)
    (hstep : h.step a = some h') : h.Reaches v := by
  obtain ⟨more, t, hmore, hrun, hv⟩ := hreaches
  refine ⟨a :: more, t, ?_, run_cons_eq_some_iff.mpr ⟨h', hstep, hrun⟩, hv⟩
  exact List.forall_mem_cons.mpr ⟨ha, hmore⟩

theorem reaches_of_publishes {body : Body} {h : VmHandle} {call : HostCall}
    {v : VmState} (hthread : h.thread = .running call body)
    (hv : body.publishes = some v) : h.Reaches v := by
  induction body generalizing h with
  | send v' rest =>
      obtain rfl := Option.some.inj hv
      have hstep : h.step (.host 0) =
          some ((h.sendState v').setThread (.running call rest)) := by
        simp only [step, stepHost, hthread, stepBody]
      refine ⟨[.host 0], _, by simp [Action.onQueue],
        run_cons_eq_some_iff.mpr ⟨_, hstep, rfl⟩, ?_⟩
      exact Watch.borrow_send h.stateTx v'
  | emit kind rest ih =>
      have hstep : h.step (.host 0) =
          some ((h.emit 0 kind).setThread (.running call rest)) := by
        simp only [step, stepHost, hthread, stepBody]
      exact (ih rfl hv).of_step rfl hstep
  | syncFile path rest ih =>
      have hstep : h.step (.sync .synced) =
          some (h.setThread (.running call rest)) := by
        simp only [step, hthread]
      exact (ih rfl hv).of_step rfl hstep
  | _ => cases hv

/-- The host thread makes a publish that it owes, when it is left alone. -/
theorem reaches_of_pending {h : VmHandle} {v : VmState}
    (hv : h.thread.pending = some v) : h.Reaches v := by
  cases hthread : h.thread with
  | idle =>
      rw [hthread] at hv
      cases hv
  | waiting call op rest =>
      rw [hthread] at hv
      cases hv
  | running call body =>
      rw [hthread] at hv
      exact reaches_of_publishes hthread hv
  | answered call op answer rest =>
      rw [hthread] at hv
      cases answer with
      | success =>
          have hstep : h.step (.host 0) =
              some (h.setThread (.running call rest)) := by
            simp only [step, stepHost, hthread, Answer.result]
          exact (reaches_of_publishes rfl hv).of_step rfl hstep
      | _ => cases hv

/-- While `Error` stays published, a pending publish stays pending. -/
theorem pending_of_run {as : List Action} {h h' : VmHandle} {v : VmState}
    (hlawful : h.thread.Lawful) (hv : h.thread.pending = some v)
    (hrun : run step h as = some h')
    (hstays : ∀ pre t, pre <+: as → run step h pre = some t →
      t.state = .error) :
    h'.thread.pending = some v := by
  have hboth : h'.thread.Lawful ∧ h'.thread.pending = some v := by
    induction as using List.reverseRecOn generalizing h' with
    | nil =>
        obtain rfl := Option.some.inj hrun
        exact ⟨hlawful, hv⟩
    | append_singleton as a ih =>
        obtain ⟨t, ht, hstep⟩ := run_concat_eq_some_iff.mp hrun
        obtain ⟨htlawful, htv⟩ := ih ht fun pre u hpre hu =>
          hstays pre u (hpre.trans (List.prefix_append _ _)) hu
        obtain ⟨hmirror, hlawful'⟩ := step_mirror htlawful hstep
        have hne : v ≠ .error := Thread.ne_error_of_pending htlawful htv
        exact ⟨hlawful',
          hmirror.pending_eq htv hne (hstays _ h' List.prefix_rfl hrun)⟩
  exact hboth.2

/-- A step that spares a published error leaves it, and owes nothing that
would replace it. -/
theorem lasting_of_step {h h' : VmHandle} {a : Action}
    (hlasting : h.thread.Lawful ∧ h.mirror.Lasting .error)
    (hspares : h.sparesError a) (hstep : h.step a = some h') :
    (h'.thread.Lawful ∧ h'.mirror.Lasting .error) ∧
      (h.state = .error → h'.state = .error) := by
  obtain ⟨hmirror, hlawful'⟩ := step_mirror hlasting.1 hstep
  have hspares' := sparesError_iff.mp hspares
  exact ⟨⟨hlawful', hmirror.lasting hspares' hlasting.2⟩,
    hmirror.published_eq_of_spares hspares' hlasting.2⟩

/-- When the delegate and the framework spare a published error, it stays. -/
theorem keepsError_of_spares {config : VmConfig} {schedule : List Action}
    (hspares : Guarded step sparesError (create config) schedule) :
    KeepsError config schedule := by
  rintro pre mid post h h' rfl hpre hmid herror
  have hlasting : h.thread.Lawful ∧ h.mirror.Lasting .error :=
    guarded_invariant
      (P := fun h => h.thread.Lawful ∧ h.mirror.Lasting .error)
      (fun _ _ _ hold hspare hstep => (lasting_of_step hold hspare hstep).1)
      ⟨trivial, fun _ => rfl⟩ hspares.of_append.of_append hpre
  refine (guarded_invariant
    (P := fun h => (h.thread.Lawful ∧ h.mirror.Lasting .error) ∧
      h.state = .error) ?_ ⟨hlasting, herror⟩
    (hspares.of_append.of_run hpre) hmid).2
  rintro h a h' ⟨hold, herror⟩ hspare hstep
  obtain ⟨hnew, hkeeps⟩ := lasting_of_step hold hspare hstep
  exact ⟨hnew, hkeeps herror⟩

/-- An event of the delegate or the framework that does not spare a published
error replaces it, or lets the host thread replace it. -/
theorem not_keepsError_of_not_spares {config : VmConfig}
    {pre post : List Action} {a : Action} {h t : VmHandle}
    (hpre : run step (create config) pre = some h)
    (hpost : run step h (a :: post) = some t) (hnot : ¬ h.sparesError a) :
    ∃ more, (∀ b ∈ more, b.onQueue = false) ∧
      ¬ KeepsError config (pre ++ a :: post ++ more) := by
  obtain ⟨h₁, hstep, hrest⟩ := run_cons_eq_some_iff.mp hpost
  obtain ⟨hmirror, hlawful⟩ := step_mirror (lawful_of_run hpre) hstep
  have hone : run step h [a] = some h₁ :=
    run_cons_eq_some_iff.mpr ⟨h₁, hstep, rfl⟩
  rcases hmirror.of_not_spares (fun h => hnot (sparesError_iff.mpr h)) with
    ⟨herror, hreplaced⟩ | ⟨herror, howed⟩
  · refine ⟨[], nofun, fun hkeeps => hreplaced ?_⟩
    exact hkeeps pre [a] post h h₁ (by simp) hpre hone herror
  · obtain ⟨v, hv⟩ := Option.ne_none_iff_exists'.mp howed
    have hpre₁ : run step (create config) (pre ++ [a]) = some h₁ :=
      run_trans hpre hone
    by_cases hstays : ∀ before u, before <+: post →
        run step h₁ before = some u → u.state = .error
    · -- the publish is still owed at the end, and nothing holds it up
      have hpending := pending_of_run hlawful hv hrest hstays
      obtain ⟨more, u, hmore, hu, hpublished⟩ := reaches_of_pending hpending
      refine ⟨more, hmore, fun hkeeps => ?_⟩
      have hkept := hkeeps (pre ++ [a]) (post ++ more) [] h₁ u (by simp)
        hpre₁ (run_trans hrest hu) herror
      exact Thread.ne_error_of_pending hlawful hv (hpublished ▸ hkept)
    · push Not at hstays
      obtain ⟨before, u, ⟨after, rfl⟩, hu, hreplaced⟩ := hstays
      refine ⟨[], nofun, fun hkeeps => hreplaced ?_⟩
      exact hkeeps (pre ++ [a]) before after h₁ u (by simp) hpre₁ hu herror

/-- **Error is terminal**, also when the host thread goes on alone, exactly
along the runs in which the delegate and the framework do nothing that would
replace it: once it has been published the guest is not reported to have
stopped and no operation that changes the state completes without error, and
no success of an earlier one is left to be published when it comes. -/
theorem error_terminal_iff_environment {config : VmConfig}
    {schedule : List Action} {h : VmHandle}
    (hrun : run step (create config) schedule = some h) :
    (∀ more, (∀ a ∈ more, a.onQueue = false) →
      KeepsError config (schedule ++ more)) ↔
    Guarded step sparesError (create config) schedule := by
  constructor
  · intro hkeeps
    rw [guarded_iff]
    rintro pre a post h₁ rfl hpre
    by_contra hnot
    obtain ⟨h₁', hpre', hpost⟩ := run_append_eq_some_iff.mp hrun
    obtain rfl := Option.some.inj (hpre.symm.trans hpre')
    obtain ⟨more, hmore, hreplaced⟩ :=
      not_keepsError_of_not_spares hpre hpost hnot
    exact hreplaced (hkeeps more hmore)
  · intro hspares more hmore
    have hafter : Guarded step sparesError h more :=
      guarded_of_forall fun a ha _ => sparesError_of_onQueue (hmore a ha)
    exact keepsError_of_spares (hspares.append hrun hafter)

end VmHandle
end Kasou
