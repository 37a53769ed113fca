import Kasou.Library.Mirror
import Kasou.Vm.Step

/-!
# The published state and the true state

The handle is a simulation of `Mirror`: its state channel is the published
copy of the machine's true state, a delegate callback is a report, a
successful completion settles the state, and the write of `transition_state`
is the publish that the completion owes.  What the body of each method
publishes after its completion is what that completion settled.
-/

namespace Kasou

/-! ## What a method publishes -/

/-- The value that the rest of a body writes to the state channel before it
reads anything or dispatches anything. -/
def Body.publishes : Body → Option VmState
  | .send v _ => some v
  | .emit _ rest => rest.publishes
  | .syncFile _ rest => rest.publishes
  | .readState _ => none
  | .readClock _ => none
  | .dispatchVzOp _ _ => none
  | .dispatchVzUrlOp _ _ _ => none
  | .pollLease _ _ _ => none
  | .finish _ => none

/-- A body that publishes, once for each dispatched operation and never
otherwise, what the operation settles. -/
def Body.Lawful : Body → Prop
  | .readState rest => ∀ s, (rest s).publishes = none ∧ (rest s).Lawful
  | .readClock rest => ∀ t, (rest t).publishes = none ∧ (rest t).Lawful
  | .dispatchVzOp op rest => rest.publishes = op.settles ∧ rest.Lawful
  | .dispatchVzUrlOp op _ rest => rest.publishes = op.settles ∧ rest.Lawful
  | .send v rest => v ≠ .error ∧ rest.publishes = none ∧ rest.Lawful
  | .emit _ rest => rest.Lawful
  | .syncFile _ rest => rest.Lawful
  | .pollLease _ _ _ => True
  | .finish _ => True

namespace VmHandle

theorem lawful_transitionState {fromState toState : VmState} {rest : Body}
    (hne : toState ≠ .error) (hquiet : rest.publishes = none)
    (hrest : rest.Lawful) :
    (transitionState fromState toState rest).Lawful :=
  ⟨hne, hquiet, hrest⟩

theorem pollUntil_lawful (mac : Text) (timeout : Duration)
    (deadline : Option Instant) :
    (pollUntil mac timeout deadline).publishes = none ∧
      (pollUntil mac timeout deadline).Lawful := by
  cases deadline with
  | none => exact ⟨rfl, trivial⟩
  | some deadline => exact ⟨rfl, trivial⟩

theorem waitForIp_lawful (config : VmConfig) (timeout : Duration) :
    (waitForIp config timeout).publishes = none ∧
      (waitForIp config timeout).Lawful := by
  rw [waitForIp]
  cases config.network.macAddress with
  | none => exact ⟨rfl, trivial⟩
  | some mac =>
      rw [Body.Lawful, Body.publishes]
      exact ⟨rfl, fun now => pollUntil_lawful mac timeout _⟩

/-- The body of every method is lawful and publishes nothing before it has
dispatched its operation. -/
theorem body_lawful (config : VmConfig) (call : HostCall) :
    (call.body config).publishes = none ∧ (call.body config).Lawful := by
  cases call with
  | start =>
      exact ⟨rfl, fun _ => ⟨rfl, rfl, lawful_transitionState nofun rfl trivial⟩⟩
  | stop =>
      exact ⟨rfl, fun _ => ⟨rfl, rfl, lawful_transitionState nofun rfl trivial⟩⟩
  | pause =>
      exact ⟨rfl, fun _ => ⟨rfl, rfl, lawful_transitionState nofun rfl trivial⟩⟩
  | resume =>
      exact ⟨rfl, fun _ => ⟨rfl, rfl, lawful_transitionState nofun rfl trivial⟩⟩
  | saveState path => exact ⟨rfl, rfl, trivial⟩
  | restoreState path =>
      exact ⟨rfl, fun _ => ⟨rfl, rfl, lawful_transitionState nofun rfl trivial⟩⟩
  | requestStop => exact ⟨rfl, rfl, trivial⟩
  | waitForIp timeout => exact waitForIp_lawful config timeout

end VmHandle

/-- The write that the host thread owes the state channel: that of a call
whose operation has completed without error. -/
def Thread.pending : Thread → Option VmState
  | .idle => none
  | .running _ body => body.publishes
  | .waiting _ _ _ => none
  | .answered _ _ .success rest => rest.publishes
  | .answered _ _ _ _ => none

/-- The call in flight is the rest of a lawful body. -/
def Thread.Lawful : Thread → Prop
  | .idle => True
  | .running _ body => body.Lawful
  | .waiting _ op rest => rest.publishes = op.settles ∧ rest.Lawful
  | .answered _ op _ rest => rest.publishes = op.settles ∧ rest.Lawful

namespace VmHandle

/-- A move of the host thread neither incurs nor settles a debt. -/
theorem Moves.lawful {config : VmConfig} {state : VmState} {t t' : Thread}
    (hmoves : Moves config state t t') (ht : t.Lawful) :
    t'.pending = t.pending ∧ t'.Lawful := by
  cases hmoves with
  | invoke call => exact body_lawful config call
  | readState call rest => exact ht state
  | readClock call rest now => exact ht now
  | dispatch call op rest => exact ⟨rfl, ht⟩
  | dispatchUrl call op path rest => exact ⟨rfl, ht⟩
  | badPath call op path rest outcome => exact ⟨rfl, trivial⟩
  | receive call op rest => exact ⟨rfl, ht.2⟩
  | receiveError call op answer rest e herror =>
      refine ⟨?_, trivial⟩
      cases answer with
      | success => cases herror
      | failure error => rfl
      | released => rfl
  | sync call path rest => exact ⟨rfl, ht⟩
  | leaseFound call mac timeout deadline ip => exact ⟨rfl, trivial⟩
  | deadlinePassed call mac timeout deadline outcome => exact ⟨rfl, trivial⟩

/-- Every step leaves the call in flight lawful. -/
theorem Step.lawful {h h' : VmHandle} {a : Action} (hstep : Step h a h')
    (hlawful : h.thread.Lawful) : h'.thread.Lawful := by
  cases hstep with
  | callback a v hcallback => exact hlawful
  | complete call op rest answer hthread =>
      rw [hthread] at hlawful
      exact hlawful
  | publish now call v rest hthread =>
      rw [hthread] at hlawful
      exact hlawful.2.2
  | emit now call kind rest hthread =>
      rw [hthread] at hlawful
      exact hlawful
  | finish now call outcome hthread => trivial
  | pollAgain found now => exact hlawful
  | move a thread hhost hmoves => exact (hmoves.lawful hlawful).2

/-! ## The simulation -/

/-- The machine's true state with its published copy. -/
def mirror (h : VmHandle) : Mirror VmState where
  truth := h.vm
  published := h.state
  pending := h.thread.pending

/-- What a step does to the true state and its published copy. -/
def mirrorEvent (h : VmHandle) : Action → Mirror.Event VmState
  | .guestDidStop => .report .stopped
  | .didStopWithError _ => .report .error
  | .complete .success =>
      match h.thread with
      | .waiting _ op _ =>
          match op.settles with
          | some v => .settle v
          | none => .silent
      | _ => .silent
  | .host _ =>
      match h.thread with
      | .running _ (.send v _) => .publish v
      | _ => .silent
  | _ => .silent

@[simp] theorem mirror_report (h : VmHandle) (v : VmState) :
    ({ h with vm := v }.sendState v).mirror =
      { h.mirror with truth := v, published := v } := by
  simp [mirror, state, sendState]

@[simp] theorem mirror_publish (h : VmHandle) (v : VmState)
    (thread : Thread) :
    ((h.sendState v).setThread thread).mirror =
      { h.mirror with published := v, pending := thread.pending } := by
  simp [mirror, state, sendState, setThread]

/-- A step that touches neither state is silent when the debt is as before. -/
theorem mirror_silent {h h' : VmHandle} (hvm : h'.vm = h.vm)
    (hstate : h'.stateTx = h.stateTx)
    (hpending : h'.thread.pending = h.thread.pending) :
    h.mirror.Step .silent h'.mirror := by
  have hsame : h'.mirror = h.mirror := by
    rw [mirror, mirror, state, state, hvm, hstate, hpending]
  exact hsame ▸ .silent

theorem mirrorEvent_of_callback {h : VmHandle} {a : Action} {v : VmState}
    (ha : a.callback = some v) : h.mirrorEvent a = .report v := by
  cases a with
  | guestDidStop =>
      obtain rfl := Option.some.inj ha
      rfl
  | didStopWithError error =>
      obtain rfl := Option.some.inj ha
      rfl
  | invoke call => cases ha
  | host now => cases ha
  | sync outcome => cases ha
  | poll found now => cases ha
  | complete answer => cases ha

/-- A completion settles what its operation settles, and nothing unless its
error is nil. -/
theorem mirror_complete {h : VmHandle} {call : HostCall} {op : VzOp}
    {rest : Body} (answer : Answer)
    (hthread : h.thread = .waiting call op rest)
    (hrest : rest.publishes = op.settles) :
    h.mirror.Step (h.mirrorEvent (.complete answer))
      (mirror { h with
        vm := answer.settle op h.vm
        thread := .answered call op answer rest }) := by
  have hquiet : h.thread.pending = none := by rw [hthread, Thread.pending]
  cases answer with
  | failure error => exact mirror_silent rfl rfl hquiet.symm
  | released => exact mirror_silent rfl rfl hquiet.symm
  | success =>
      simp only [mirrorEvent, hthread]
      cases hop : op.settles with
      | none =>
          refine mirror_silent ?_ rfl ?_
          · rw [Answer.settle, hop, Option.getD_none]
          · rw [Thread.pending, hrest, hop, hquiet]
      | some v =>
          have hnext : mirror { h with
              vm := Answer.success.settle op h.vm
              thread := .answered call op .success rest } =
                { h.mirror with truth := v, pending := some v } := by
            rw [mirror, Thread.pending, hrest, hop, Answer.settle, hop]
            rfl
          exact hnext ▸ .settle v hquiet

theorem mirrorEvent_of_moves {h : VmHandle} {a : Action} {thread : Thread}
    (hhost : a.onQueue = false)
    (hmoves : Moves h.config h.state h.thread thread) :
    h.mirrorEvent a = .silent := by
  cases a with
  | host now =>
      rw [mirrorEvent]
      split
      next call v rest hthread =>
        rw [hthread] at hmoves
        cases hmoves
      · rfl
  | invoke call => rfl
  | sync outcome => rfl
  | poll found now => rfl
  | complete answer => cases hhost
  | guestDidStop => cases hhost
  | didStopWithError error => cases hhost

/-- **The handle simulates `Mirror`.** -/
theorem Step.mirror {h h' : VmHandle} {a : Action} (hstep : Step h a h')
    (hlawful : h.thread.Lawful) :
    h.mirror.Step (h.mirrorEvent a) h'.mirror := by
  cases hstep with
  | callback a v hcallback =>
      rw [mirrorEvent_of_callback hcallback, mirror_report]
      exact .report v
  | complete call op rest answer hthread =>
      rw [hthread] at hlawful
      exact mirror_complete answer hthread hlawful.1
  | publish now call v rest hthread =>
      rw [hthread] at hlawful
      have hpending : h.mirror.pending = some v := by
        rw [VmHandle.mirror, hthread]
        rfl
      rw [mirrorEvent, hthread, mirror_publish, Thread.pending, hlawful.2.1]
      exact .publish v hpending
  | emit now call kind rest hthread =>
      rw [mirrorEvent, hthread]
      exact mirror_silent rfl rfl (by rw [hthread]; rfl)
  | finish now call outcome hthread =>
      rw [mirrorEvent, hthread]
      exact mirror_silent rfl rfl (by rw [hthread]; rfl)
  | pollAgain found now => exact mirror_silent rfl rfl rfl
  | move a thread hhost hmoves =>
      rw [mirrorEvent_of_moves hhost hmoves]
      exact mirror_silent rfl rfl (hmoves.lawful hlawful).1

/-- What holds of the true state and its copy along every run. -/
theorem step_mirror {h h' : VmHandle} {a : Action}
    (hlawful : h.thread.Lawful) (hstep : h.step a = some h') :
    h.mirror.Step (h.mirrorEvent a) h'.mirror ∧ h'.thread.Lawful :=
  ⟨(step_sound hstep).mirror hlawful, (step_sound hstep).lawful hlawful⟩

/-! ## When the published state is the true one -/

open TransitionSystem

/-- The host thread does not write a state that the machine has left since the
completion handler ran. -/
def timely (h : VmHandle) : Action → Bool
  | .host _ =>
      match h.thread with
      | .running _ (.send v _) => h.vm == v
      | _ => true
  | _ => true

theorem timely_iff (h : VmHandle) (a : Action) :
    h.timely a = true ↔ (h.mirrorEvent a).Timely h.mirror := by
  cases a with
  | host now =>
      rw [timely, mirrorEvent]
      split
      · simp [Mirror.Event.Timely, mirror]
      · simp [Mirror.Event.Timely]
  | complete answer =>
      refine iff_of_true rfl ?_
      cases answer with
      | success =>
          rw [mirrorEvent]
          split
          · split <;> trivial
          · trivial
      | failure error => trivial
      | released => trivial
  | invoke call => exact iff_of_true rfl trivial
  | sync outcome => exact iff_of_true rfl trivial
  | poll found now => exact iff_of_true rfl trivial
  | guestDidStop => exact iff_of_true rfl trivial
  | didStopWithError error => exact iff_of_true rfl trivial

/-- Every step of a run from a new handle, taken while the call in flight is
lawful. -/
theorem lawful_of_run {config : VmConfig} {schedule : List Action}
    {h : VmHandle} (hrun : run step (create config) schedule = some h) :
    h.thread.Lawful :=
  run_invariant (P := fun h => h.thread.Lawful)
    (fun _ _ _ hlawful hstep => (step_mirror hlawful hstep).2) trivial hrun

/-- Along a run in which every write of the state channel by the host thread
is timely, the published state is the true one whenever no write is owed. -/
theorem agrees_of_timely {config : VmConfig} {schedule : List Action}
    {h : VmHandle}
    (htimely : Guarded step (fun h a => h.timely a = true) (create config)
      schedule)
    (hrun : run step (create config) schedule = some h) :
    h.mirror.Agrees := by
  refine (guarded_invariant
    (P := fun h => h.thread.Lawful ∧ h.mirror.Agrees) ?_
    ⟨trivial, fun _ => rfl⟩ htimely hrun).2
  rintro h a h' ⟨hlawful, hagrees⟩ htimely hstep
  obtain ⟨hmirror, hlawful'⟩ := step_mirror hlawful hstep
  exact ⟨hlawful', hmirror.agrees ((timely_iff h a).mp htimely) hagrees⟩

/-- A run keeps the published state true whenever no write is owed exactly
when each of its writes by the host thread is timely. -/
theorem agrees_iff_timely (config : VmConfig) (schedule : List Action) :
    (∀ pre post h, schedule = pre ++ post →
      run step (create config) pre = some h → h.mirror.Agrees) ↔
    Guarded step (fun h a => h.timely a = true) (create config) schedule := by
  constructor
  · intro hagrees
    rw [guarded_iff]
    intro pre a post h hschedule hrun
    by_contra hlate
    have hlawful := lawful_of_run hrun
    cases hstep : h.step a with
    | none =>
        cases a with
        | host now =>
            rw [timely] at hlate
            split at hlate
            next call v rest hthread =>
              simp [step, stepHost, stepBody, hthread] at hstep
            · exact hlate rfl
        | invoke call => exact hlate rfl
        | sync outcome => exact hlate rfl
        | poll found now => exact hlate rfl
        | complete answer => exact hlate rfl
        | guestDidStop => exact hlate rfl
        | didStopWithError error => exact hlate rfl
    | some h' =>
        have hnext : run step (create config) (pre ++ [a]) = some h' :=
          run_concat_eq_some_iff.mpr ⟨h, hrun, hstep⟩
        refine (step_mirror hlawful hstep).1.not_agrees_of_not_timely ?_
          (hagrees (pre ++ [a]) post h' (by simp [hschedule]) hnext)
        rwa [← timely_iff]
  · rintro htimely pre post h rfl hrun
    exact agrees_of_timely htimely.of_append hrun

/-- Along a run in which the host thread never writes a state that the machine
has left since the completion handler ran, `state()` is the machine's true
state whenever no host call is in flight. -/
theorem state_eq_vm_of_timely {config : VmConfig} {schedule : List Action}
    {h : VmHandle}
    (htimely : Guarded step (fun h a => h.timely a = true) (create config)
      schedule)
    (hrun : run step (create config) schedule = some h)
    (hidle : h.thread = .idle) : h.state = h.vm := by
  have hquiet : h.mirror.pending = none := by rw [mirror, hidle, Thread.pending]
  exact agrees_of_timely htimely hrun hquiet

/-- A guest that stops after the host call has returned. -/
def startThenGuestStop : List Action :=
  [.invoke .start, .host 0, .host 0, .complete .success, .host 0, .host 0,
    .host 0, .host 0, .guestDidStop]

theorem state_eq_vm_after_start_and_stop :
    ∃ h, run step (create smokeConfig) startThenGuestStop = some h ∧
      h.state = h.vm :=
  ⟨_, rfl, @state_eq_vm_of_timely smokeConfig startThenGuestStop _
    (by decide) rfl rfl⟩

/-- A guest that stops between the completion of `start` and the write of the
state channel that follows it. -/
def guestStopDuringStart : List Action :=
  [.invoke .start, .host 0, .host 0, .complete .success, .guestDidStop,
    .host 0, .host 0, .host 0, .host 0]

/-- The call then overwrites the news of the stop: no host call is in flight,
the machine is stopped and `state()` says that it runs. -/
theorem state_ne_vm_after_guest_stop :
    ∃ h, run step (create smokeConfig) guestStopDuringStart = some h ∧
      h.thread = .idle ∧ h.state = .running ∧ h.vm = .stopped :=
  ⟨_, rfl, rfl, rfl, rfl⟩

/-! ## What a dropped handle does -/

/-- Delegate callbacks leave the machine stopped or failed. -/
theorem mirrorEvent_within (h : VmHandle) (a : Action) :
    (h.mirrorEvent a).Within fun v => v = .stopped ∨ v = .error := by
  cases a with
  | guestDidStop => exact Or.inl rfl
  | didStopWithError error => exact Or.inr rfl
  | host now =>
      rw [mirrorEvent]
      split <;> trivial
  | complete answer =>
      cases answer with
      | success =>
          rw [mirrorEvent]
          split
          · split <;> trivial
          · trivial
      | failure error => trivial
      | released => trivial
  | invoke call => trivial
  | sync outcome => trivial
  | poll found now => trivial

/-- Along every run, the published state is the true one, or will be by the
write that is owed, unless the machine is stopped or has failed. -/
theorem covered_of_run {config : VmConfig} {schedule : List Action}
    {h : VmHandle} (hrun : run step (create config) schedule = some h) :
    h.mirror.Covered fun v => v = .stopped ∨ v = .error := by
  refine (run_invariant
    (P := fun h => h.thread.Lawful ∧
      h.mirror.Covered fun v => v = .stopped ∨ v = .error) ?_
    ⟨trivial, Or.inl (Or.inl rfl)⟩ hrun).2
  rintro h a h' ⟨hlawful, hcovered⟩ hstep
  obtain ⟨hmirror, hlawful'⟩ := step_mirror hlawful hstep
  exact ⟨hlawful', hmirror.covered (mirrorEvent_within h a) hcovered⟩

/-- With no host call in flight, the published state is the true one unless
the machine is stopped or has failed.  So a dropped handle hard-stops a
machine that truly runs and leaves alone one that is truly paused. -/
theorem drop_of_run {config : VmConfig} {schedule : List Action}
    {h : VmHandle} (hrun : run step (create config) schedule = some h)
    (hidle : h.thread = .idle) :
    (h.state = h.vm ∨ h.vm = .stopped ∨ h.vm = .error) ∧
      (h.vm = .running → h.drop = [.stop]) ∧
      (h.vm = .paused → h.drop = []) := by
  have hquiet : h.mirror.pending = none := by rw [mirror, hidle, Thread.pending]
  have hstate : h.state = h.vm ∨ h.vm = .stopped ∨ h.vm = .error :=
    (covered_of_run hrun).published_eq hquiet
  refine ⟨hstate, ?_, ?_⟩
  · intro hrunning
    rw [hrunning] at hstate
    have hpublished : h.state = .running := by simpa using hstate
    rw [drop, hpublished]
    rfl
  · intro hpaused
    rw [hpaused] at hstate
    have hpublished : h.state = .paused := by simpa using hstate
    rw [drop, hpublished]
    rfl

theorem drop_after_start :
    ∃ h, run step (create smokeConfig) (startThenGuestStop.take 8) = some h ∧
      h.vm = .running ∧ h.drop = [.stop] :=
  ⟨_, rfl, rfl, (@drop_of_run smokeConfig (startThenGuestStop.take 8) _
    rfl rfl).2.1 rfl⟩

end VmHandle
end Kasou
