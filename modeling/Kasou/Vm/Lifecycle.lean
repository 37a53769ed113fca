import Kasou.Vm.Accounting
import Kasou.Vm.History
import Kasou.Vm.Progress

/-!
# The lifecycle of a machine and its two records

The state channel and the `StateChanged` events are two records of the same
history.  When the delegate calls back only while no transition is under way,
the channel tells every change of the machine's state, and the events tell
those that the host has brought about.  When the framework moreover keeps to
`can_transition_to`, so do both records.
-/

namespace Kasou

/-! ## Calls that publish no transition -/

/-- A body that neither writes to the state channel nor announces a
transition. -/
def Body.Still : Body → Prop
  | .readState rest => ∀ s, (rest s).Still
  | .readClock rest => ∀ t, (rest t).Still
  | .dispatchVzOp _ rest => rest.Still
  | .dispatchVzUrlOp _ _ rest => rest.Still
  | .send _ _ => False
  | .emit kind rest => kind.stateChange = none ∧ rest.Still
  | .syncFile _ rest => rest.Still
  | .pollLease _ _ _ => True
  | .finish _ => True

/-- The rest of the call in flight publishes no transition. -/
def Thread.Still : Thread → Prop
  | .idle => True
  | .running _ body => body.Still
  | .waiting _ _ rest => rest.Still
  | .answered _ _ _ rest => rest.Still

theorem Body.Still.unsent {body : Body} (h : body.Still) :
    body.unsent = [] := by
  cases body with
  | emit kind rest =>
      rw [Body.unsent, h.1]
      rfl
  | _ => rfl

theorem Body.Still.publishes {body : Body} (h : body.Still) :
    body.publishes = none := by
  induction body with
  | send v rest ih => exact h.elim
  | emit kind rest ih => exact ih h.2
  | syncFile path rest ih => exact ih h
  | _ => rfl

/-- A still body may be gone on with whatever is published meanwhile. -/
theorem Body.Still.chained {body : Body} (h : body.Still) (s : VmState) :
    body.Chained s := by
  induction body generalizing s with
  | readState rest ih => exact fun v => ⟨(h v).unsent, ih v (h v) v⟩
  | readClock rest ih => exact fun t => ⟨(h t).unsent, ih t (h t) s⟩
  | dispatchVzOp op rest ih =>
      have hrest : rest.Still := h
      exact ⟨hrest.unsent, ih hrest s⟩
  | dispatchVzUrlOp op path rest ih =>
      have hrest : rest.Still := h
      exact ⟨hrest.unsent, ih hrest s⟩
  | send v rest ih => exact h.elim
  | emit kind rest ih => exact ⟨h.2.unsent, ih h.2 s⟩
  | syncFile path rest ih =>
      have hrest : rest.Still := h
      exact ⟨hrest.unsent, ih hrest s⟩
  | pollLease mac timeout deadline => trivial
  | finish outcome => trivial

theorem Thread.Still.pending {thread : Thread} (h : thread.Still) :
    thread.pending = none := by
  cases thread with
  | running call body => exact Body.Still.publishes h
  | answered call op answer rest =>
      cases answer with
      | success => exact Body.Still.publishes h
      | _ => rfl
  | _ => rfl

theorem Thread.Still.chained {thread : Thread} (h : thread.Still)
    (s : VmState) : thread.Chained s := by
  cases thread with
  | idle => trivial
  | running call body => exact Body.Still.chained h s
  | waiting call op rest =>
      have hrest : rest.Still := h
      exact ⟨hrest.unsent, hrest.chained s⟩
  | answered call op answer rest =>
      have hrest : rest.Still := h
      exact ⟨hrest.unsent, hrest.chained s⟩

namespace VmHandle

theorem pollUntil_still (mac : Text) (timeout : Duration)
    (deadline : Option Instant) : (pollUntil mac timeout deadline).Still := by
  cases deadline with
  | none => trivial
  | some deadline => trivial

/-- The calls without a target have a still body. -/
theorem body_still {config : VmConfig} {call : HostCall}
    (htarget : call.target = none) : (call.body config).Still := by
  cases call with
  | saveState path => exact ⟨rfl, trivial⟩
  | requestStop => exact ⟨rfl, trivial⟩
  | waitForIp timeout =>
      rw [HostCall.body, waitForIp]
      cases config.network.macAddress with
      | none => trivial
      | some mac => exact fun now => pollUntil_still mac timeout _
  | _ => cases htarget

/-- The call in flight publishes no transition if it has no target. -/
def StillUntargeted (h : VmHandle) : Prop :=
  ∀ call, h.thread.call = some call → call.target = none → h.thread.Still

theorem Moves.still {config : VmConfig} {state : VmState} {t t' : Thread}
    (hmoves : Moves config state t t') (hbusy : t ≠ .idle)
    (ht : t.Still) : t'.Still := by
  cases hmoves with
  | invoke call => exact (hbusy rfl).elim
  | readState call rest => exact ht state
  | readClock call rest now => exact ht now
  | dispatch call op rest => exact ht
  | dispatchUrl call op path rest => exact ht
  | badPath call op path rest outcome => trivial
  | receive call op rest => exact ht
  | receiveError call op answer rest e herror => trivial
  | sync call path rest => exact ht
  | leaseFound call mac timeout deadline ip => exact ⟨rfl, trivial⟩
  | deadlinePassed call mac timeout deadline outcome => trivial

theorem Step.still {h h' : VmHandle} {a : Action} (hstep : Step h a h')
    (hbusy : h.thread ≠ .idle) (hstill : h.thread.Still) :
    h'.thread.Still := by
  cases hstep with
  | callback a v hcallback => exact hstill
  | complete call op rest answer hthread =>
      rw [hthread] at hstill
      exact hstill
  | publish now call v rest hthread =>
      rw [hthread] at hstill
      exact hstill.elim
  | emit now call kind rest hthread =>
      rw [hthread] at hstill
      exact hstill.2
  | finish now call outcome hthread => trivial
  | pollAgain found now => exact hstill
  | move a thread hhost hmoves => exact hmoves.still hbusy hstill

theorem Step.stillUntargeted {h h' : VmHandle} {a : Action}
    (hstep : Step h a h') (h₀ : h.StillUntargeted) : h'.StillUntargeted := by
  intro call hcall htarget
  rcases hstep.call_eq with hidle | hsame | ⟨c, hbegins⟩
  · rw [hidle] at hcall
    cases hcall
  · rw [hsame] at hcall
    refine hstep.still ?_ (h₀ call hcall htarget)
    intro hidle
    rw [hidle] at hcall
    cases hcall
  · rw [hbegins] at hcall ⊢
    obtain rfl := Option.some.inj hcall
    exact body_still htarget

end VmHandle

/-! ## The changes of the machine's state -/

/-- A change of the machine's state, with the operation that has brought it
about; none for a change that the delegate is told of. -/
structure VmChange where
  op : Option VzOp
  before : VmState
  after : VmState
  deriving DecidableEq

/-- The change without its cause. -/
def VmChange.states (c : VmChange) : VmState × VmState := (c.before, c.after)

/-- The state that a machine passes through during an operation; none for an
operation that does not change its state. -/
def VzOp.through : VzOp → Option VmState
  | .start => some .starting
  | .stop => some .stopping
  | .pause => some .pausing
  | .resume => some .resuming
  | .save => some .saving
  | .restore => some .restoring
  | .requestStop => none

/-- The table has a path between the states through that of the operation. -/
def VzOp.documents (op : VzOp) (before after : VmState) : Bool :=
  op.through.any fun mid =>
    before.canTransitionTo mid && mid.canTransitionTo after

/-- The table has the change. -/
def VmChange.documented (c : VmChange) : Bool :=
  match c.op with
  | none => c.before.canTransitionTo c.after
  | some op => op.documents c.before c.after

namespace VmHandle

/-- The change of the machine's state in a step. -/
def vmChange (h : VmHandle) : Action → Option VmChange
  | .complete .success =>
      match h.thread with
      | .waiting _ op _ => op.settles.map fun v => ⟨some op, h.vm, v⟩
      | _ => none
  | .guestDidStop => some ⟨none, h.vm, .stopped⟩
  | .didStopWithError _ => some ⟨none, h.vm, .error⟩
  | _ => none

/-- The changes of the machine's state along a schedule, in order. -/
def vmChanges (config : VmConfig) (schedule : List Action) : List VmChange :=
  TransitionSystem.trace step vmChange (create config) schedule

/-- Those that the host has brought about, as they are announced. -/
def hostChanges (changes : List VmChange) : List (VmState × VmState) :=
  (changes.filter fun c => c.op.isSome).map VmChange.states

theorem hostChanges_append (cs ds : List VmChange) :
    hostChanges (cs ++ ds) = hostChanges cs ++ hostChanges ds := by
  rw [hostChanges, List.filter_append, List.map_append]
  rfl

/-- The machine changes as the model of its published copy says. -/
theorem vmChange_eq (h : VmHandle) (a : Action) :
    (h.vmChange a).toList.map VmChange.states =
        ((h.mirrorEvent a).change h.mirror).toList ∧
      hostChanges (h.vmChange a).toList =
        ((h.mirrorEvent a).settled h.mirror).toList := by
  cases a with
  | complete answer =>
      cases answer with
      | success =>
          rw [vmChange, mirrorEvent]
          cases h.thread with
          | waiting call op rest => cases op <;> exact ⟨rfl, rfl⟩
          | _ => exact ⟨rfl, rfl⟩
      | _ => exact ⟨rfl, rfl⟩
  | host now =>
      rw [mirrorEvent]
      split <;> exact ⟨rfl, rfl⟩
  | _ => exact ⟨rfl, rfl⟩

/-- A step writes to the state channel what its event says. -/
theorem Step.stateTx_eq {h h' : VmHandle} {a : Action} (hstep : Step h a h') :
    h'.stateTx =
      (h.mirrorEvent a).writes.elim h.stateTx fun v => h.stateTx.send v := by
  cases hstep with
  | callback a v hcallback =>
      rw [mirrorEvent_of_callback hcallback]
      rfl
  | complete call op rest answer hthread =>
      have hnone : (h.mirrorEvent (.complete answer)).writes = none := by
        cases answer with
        | success =>
            simp only [mirrorEvent, hthread]
            cases op <;> rfl
        | _ => rfl
      rw [hnone]
      rfl
  | publish now call v rest hthread =>
      rw [mirrorEvent, hthread]
      rfl
  | emit now call kind rest hthread =>
      rw [mirrorEvent, hthread]
      rfl
  | finish now call outcome hthread =>
      rw [mirrorEvent, hthread]
      rfl
  | pollAgain found now => rfl
  | move a thread hhost hmoves =>
      rw [mirrorEvent_of_moves hhost hmoves]
      rfl

theorem Step.replacements_eq {h h' : VmHandle} {a : Action}
    (hstep : Step h a h') :
    h'.stateTx.replacements = h.stateTx.replacements ++
      ((h.mirrorEvent a).replaces h.mirror).toList := by
  rw [hstep.stateTx_eq, Mirror.Event.replaces]
  cases (h.mirrorEvent a).writes with
  | none => simp
  | some v =>
      rw [Option.elim_some, Watch.replacements_send]
      rfl

/-- A step that writes without being a callback is a publish. -/
theorem publishes_eq {h : VmHandle} {a : Action} :
    (h.mirrorEvent a).publishes h.mirror =
      if a.callback = none then (h.mirrorEvent a).replaces h.mirror
      else none := by
  cases a with
  | host now =>
      rw [mirrorEvent]
      split <;> rfl
  | complete answer =>
      cases answer with
      | success =>
          rw [mirrorEvent]
          cases h.thread with
          | waiting call op rest => cases op <;> rfl
          | _ => rfl
      | _ => rfl
  | _ => rfl

theorem Step.announced_eq {h h' : VmHandle} {a : Action}
    (hstep : Step h a h') (hchained : h.thread.Chained h.state) :
    h'.announced = h.announced ++
      ((h.mirrorEvent a).publishes h.mirror).toList := by
  have hreplaced := hstep.replacements_eq
  rw [publishes_eq]
  cases hstep.records hchained with
  | callback v hcallback hstate hannounced hchained' =>
      have hsome : ¬ a.callback = none := by
        rw [hcallback]
        exact Option.some_ne_none v
      rw [if_neg hsome, hannounced]
      exact (List.append_nil _).symm
  | publish v hcallback hstate hannounced hchained' =>
      rw [hstate, Watch.replacements_send] at hreplaced
      rw [if_pos hcallback, hannounced,
        ← List.append_cancel_left hreplaced]
      rfl
  | nothing hcallback hstate hannounced hchained' =>
      rw [hstate] at hreplaced
      have hnone := List.self_eq_append_right.mp hreplaced
      rw [if_pos hcallback, hannounced, hnone, List.append_nil]

/-! ## The two records -/

open TransitionSystem

/-- The delegate does not call back while a transition is under way. -/
def undisturbed (h : VmHandle) (a : Action) : Bool :=
  a.callback.isNone || h.thread.call.all fun call => call.target.isNone

/-- The two records tell these changes, up to a publish that is owed. -/
structure Tells (h : VmHandle) (changes : List VmChange) : Prop where
  lawful : h.thread.Lawful
  chained : h.thread.Chained h.state
  still : h.StillUntargeted
  current : h.mirror.Current
  states :
    h.stateTx.replacements ++ h.mirror.owed = changes.map VmChange.states
  events : h.announced ++ h.mirror.owed = hostChanges changes

theorem tells_create (config : VmConfig) : (create config).Tells [] where
  lawful := trivial
  chained := trivial
  still := by
    intro call hcall
    cases hcall
  current := rfl
  states := rfl
  events := rfl

/-- A callback that disturbs no transition finds the call in flight still. -/
theorem still_of_undisturbed {h : VmHandle} {a : Action} {v : VmState}
    (hundisturbed : h.undisturbed a = true) (hcallback : a.callback = some v)
    (hstill : h.StillUntargeted) : h.thread.Still := by
  rw [undisturbed, hcallback, Option.isNone_some, Bool.false_or,
    Option.all_eq_true] at hundisturbed
  cases hcall : h.thread.call with
  | none =>
      cases hthread : h.thread with
      | idle => trivial
      | _ =>
          rw [hthread] at hcall
          cases hcall
  | some call =>
      exact hstill call hcall
        (Option.isNone_iff_eq_none.mp (hundisturbed call hcall))

theorem inTurn_of_undisturbed {h : VmHandle} {a : Action}
    (hundisturbed : h.undisturbed a = true) (hstill : h.StillUntargeted) :
    (h.mirrorEvent a).InTurn h.mirror := by
  cases hcallback : a.callback with
  | some v =>
      have hthread := still_of_undisturbed hundisturbed hcallback hstill
      rw [mirrorEvent_of_callback hcallback]
      exact hthread.pending
  | none =>
      cases hevent : h.mirrorEvent a with
      | report v =>
          have hpublishes := publishes_eq (h := h) (a := a)
          rw [if_pos hcallback, hevent] at hpublishes
          cases hpublishes
      | _ => trivial

theorem Step.tells {h h' : VmHandle} {a : Action} {changes : List VmChange}
    (hstep : Step h a h') (hundisturbed : h.undisturbed a = true)
    (htells : h.Tells changes) :
    h'.Tells (changes ++ (h.vmChange a).toList) := by
  have hturn := inTurn_of_undisturbed hundisturbed htells.still
  have hmirror := hstep.mirror htells.lawful
  obtain ⟨hstates, hhost⟩ := vmChange_eq h a
  refine ⟨hstep.lawful htells.lawful, ?_, hstep.stillUntargeted htells.still,
    hmirror.current hturn htells.current, ?_, ?_⟩
  · cases hstep.records htells.chained with
    | callback v hcallback hstate hannounced hchained =>
        have hstill :=
          still_of_undisturbed hundisturbed hcallback htells.still
        cases hstep with
        | callback _ w _ => exact hstill.chained _
        | move _ thread hhost' _ =>
            rw [callback_eq_none_of_not_onQueue hhost'] at hcallback
            cases hcallback
        | _ => cases hcallback
    | publish v hcallback hstate hannounced hchained =>
        rwa [state, hstate, Watch.borrow_send]
    | nothing hcallback hstate hannounced hchained =>
        rw [state, hstate]
        exact hchained.elim id id
  · rw [hstep.replacements_eq, List.append_assoc,
      hmirror.replaces_owed hturn htells.current, ← List.append_assoc,
      htells.states, List.map_append, hstates]
  · rw [hstep.announced_eq htells.chained, List.append_assoc,
      hmirror.publishes_owed hturn htells.current, ← List.append_assoc,
      htells.events, hostChanges_append, hhost]

theorem tells_of_run {config : VmConfig} {schedule : List Action}
    {h : VmHandle}
    (hundisturbed : Guarded step (fun h a => h.undisturbed a = true)
      (create config) schedule)
    (hrun : run step (create config) schedule = some h) :
    h.Tells (vmChanges config schedule) := by
  have hstart := tells_create config
  rw [← List.nil_append (vmChanges config schedule)]
  refine guarded_traced_invariant ?_ hstart hundisturbed hrun
  intro h a h' changes htells hundisturbed hstep
  exact (step_sound hstep).tells hundisturbed htells

/-- **The channel tells every change, the events those of the host.**  In
every run in which the delegate calls back only while no transition is under
way, whenever no call is in flight the state channel has recorded exactly the
changes of the machine's state, and the `StateChanged` events exactly those
that the host has brought about, in order and with the states that they
left. -/
theorem records_of_undisturbed {config : VmConfig} {schedule : List Action}
    {h : VmHandle}
    (hundisturbed : Guarded step (fun h a => h.undisturbed a = true)
      (create config) schedule)
    (hrun : run step (create config) schedule = some h)
    (hidle : h.thread = .idle) :
    h.stateTx.replacements =
        (vmChanges config schedule).map VmChange.states ∧
      stateChanges h.eventBus.sent =
        hostChanges (vmChanges config schedule) := by
  have htells := tells_of_run hundisturbed hrun
  have howed : h.mirror.owed = [] := by
    rw [Mirror.owed, mirror, hidle]
    rfl
  have hstates := htells.states
  have hevents := htells.events
  rw [howed, List.append_nil] at hstates hevents
  rw [announced, hidle] at hevents
  exact ⟨hstates, (List.append_nil _).symm.trans hevents⟩

/-- A machine that is started, stops when it is requested to, and is started
again. -/
def startedTwice : List Action :=
  [.invoke .start, .host 0, .host 0, .complete .success, .host 0, .host 0,
    .host 0, .host 0, .invoke .requestStop, .host 1, .complete .success,
    .guestDidStop, .host 1, .host 1, .host 1, .invoke .start, .host 2,
    .host 2, .complete .success, .host 2, .host 2, .host 2, .host 2]

theorem records_of_undisturbed_startedTwice :
    ∃ h, run step (create smokeConfig) startedTwice = some h ∧
      h.stateTx.replacements =
        [(.stopped, .running), (.running, .stopped), (.stopped, .running)] ∧
      stateChanges h.eventBus.sent =
        [(.stopped, .running), (.stopped, .running)] :=
  ⟨_, rfl, @records_of_undisturbed smokeConfig startedTwice _ (by decide)
    rfl rfl⟩

/-! ## Runs that keep to the table -/

/-- The framework keeps to the table: an operation succeeds only where the
table has its path, and the delegate is told only of changes that it has. -/
def keepsTable (h : VmHandle) (a : Action) : Bool :=
  (h.vmChange a).all VmChange.documented

theorem documented_of_keepsTable {config : VmConfig} {schedule : List Action}
    {h : VmHandle}
    (hkeeps : Guarded step (fun h a => h.keepsTable a = true) (create config)
      schedule)
    (hrun : run step (create config) schedule = some h) :
    ∀ c ∈ vmChanges config schedule, c.documented = true := by
  have hstart : ∀ c ∈ ([] : List VmChange), c.documented = true :=
    List.forall_mem_nil _
  rw [← List.nil_append (vmChanges config schedule)]
  refine guarded_traced_invariant
    (P := fun _ seen => ∀ c : VmChange, c ∈ seen → c.documented = true) ?_
    hstart hkeeps hrun
  intro h a h' seen hseen hkeeps hstep c hc
  rcases List.mem_append.mp hc with hold | hnew
  · exact hseen c hold
  · exact (Option.all_eq_true _ _).mp hkeeps c (Option.mem_toList.mp hnew)

/-- No documented change leaves a terminal state. -/
theorem not_documented_of_terminal {c : VmChange}
    (hterminal : c.before.isTerminal = true) : c.documented = false := by
  have hnone := (VmState.isTerminal_iff c.before).mp hterminal
  obtain ⟨op, before, after⟩ := c
  cases op with
  | none => exact hnone after
  | some op =>
      simp only [VmChange.documented, VzOp.documents]
      cases op.through with
      | none => rfl
      | some mid =>
          rw [Option.any_some, hnone mid]
          rfl

/-- **Both records keep to the table.**  In every run in which the framework
keeps to `can_transition_to` and calls the delegate back only while no
transition is under way, every `StateChanged` event announces a path of the
table through the state of some operation, every value of the state channel
replaces one that the table leads to it from, directly or on such a path, and
nothing replaces a terminal state. -/
theorem records_documented {config : VmConfig} {schedule : List Action}
    {h : VmHandle}
    (hundisturbed : Guarded step (fun h a => h.undisturbed a = true)
      (create config) schedule)
    (hkeeps : Guarded step (fun h a => h.keepsTable a = true) (create config)
      schedule)
    (hrun : run step (create config) schedule = some h) :
    (∀ c ∈ stateChanges h.eventBus.sent,
      ∃ op : VzOp, op.documents c.1 c.2 = true) ∧
    (∀ c ∈ h.stateTx.replacements, c.1.canTransitionTo c.2 = true ∨
      ∃ op : VzOp, op.documents c.1 c.2 = true) ∧
    ∀ before v after, h.stateTx.sent = before ++ v :: after →
      v.isTerminal = true → after = [] := by
  have htells := tells_of_run hundisturbed hrun
  have hdocumented := documented_of_keepsTable hkeeps hrun
  have hreplaced : ∀ c ∈ h.stateTx.replacements,
      ∃ change ∈ vmChanges config schedule, change.states = c := by
    intro c hc
    have hmem : c ∈ (vmChanges config schedule).map VmChange.states := by
      rw [← htells.states]
      exact List.mem_append_left _ hc
    exact List.mem_map.mp hmem
  refine ⟨?_, ?_, ?_⟩
  · intro c hc
    have hmem : c ∈ hostChanges (vmChanges config schedule) := by
      rw [← htells.events, announced]
      exact List.mem_append_left _ (List.mem_append_left _ hc)
    obtain ⟨⟨op, before, after⟩, hchange, rfl⟩ := List.mem_map.mp hmem
    obtain ⟨hin, hhost⟩ := List.mem_filter.mp hchange
    obtain ⟨op', hop⟩ := Option.isSome_iff_exists.mp hhost
    obtain rfl : op = some op' := hop
    exact ⟨op', hdocumented _ hin⟩
  · intro c hc
    obtain ⟨⟨op, before, after⟩, hin, rfl⟩ := hreplaced c hc
    cases op with
    | none => exact Or.inl (hdocumented _ hin)
    | some op => exact Or.inr ⟨op, hdocumented _ hin⟩
  · intro before v after hsent hterminal
    cases after with
    | nil => rfl
    | cons w after =>
        obtain ⟨change, hin, hstates⟩ :=
          hreplaced (v, w) (Watch.mem_replacements hsent)
        obtain rfl : change.before = v := congrArg Prod.fst hstates
        have hnot := not_documented_of_terminal hterminal
        rw [hdocumented change hin] at hnot
        cases hnot

/-- A machine that is started, paused, resumed and then fails. -/
def pausedThenFailed : List Action :=
  [.invoke .start, .host 0, .host 0, .complete .success, .host 0, .host 0,
    .host 0, .host 0, .invoke .pause, .host 1, .host 1, .complete .success,
    .host 1, .host 1, .host 1, .host 1, .invoke .resume, .host 2, .host 2,
    .complete .success, .host 2, .host 2, .host 2, .host 2,
    .didStopWithError (.mk "VZErrorDomain".toList 1 "crash".toList none none
      [])]

theorem records_documented_pausedThenFailed :
    ∃ h, run step (create smokeConfig) pausedThenFailed = some h ∧
      h.stateTx.sent = [.running, .paused, .running, .error] ∧
      ∀ before v after, h.stateTx.sent = before ++ v :: after →
        v.isTerminal = true → after = [] :=
  ⟨_, rfl, rfl, (@records_documented smokeConfig pausedThenFailed _ (by decide)
    (by decide) rfl).2.2⟩

end VmHandle
end Kasou
