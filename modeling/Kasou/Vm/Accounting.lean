import Kasou.Vm.Trace

/-!
# What each call leaves behind

A call is all or nothing on both output channels: one that returns `Ok` leaves
exactly its own events and its own value, and one that fails leaves nothing.
Each method's body is summed up once, by the runs it has.
-/

namespace Kasou

/-! ## Runs of the pieces of a body -/

section Inversion

variable {rest : Body} {es : List Effect} {o : Outcome}

theorem Body.runs_finish {o' : Outcome} (h : (Body.finish o').Runs es o) :
    es = [] ∧ o = o' := by
  cases h
  exact ⟨rfl, rfl⟩

/-- A dispatched operation is answered; an answer that is an error ends the
call with it. -/
theorem Body.runs_dispatch {op : VzOp}
    (h : (Body.dispatchVzOp op rest).Runs es o) :
    ∃ answer es', es = .answered op answer :: es' ∧
      ((answer.result op = .ok () ∧ rest.Runs es' o) ∨
        ∃ e, answer.result op = .error e ∧ es' = [] ∧
          o = .returned (.error e)) := by
  cases h with
  | dispatch _ _ answer es _ hanswer hrest =>
      exact ⟨answer, es, rfl, Or.inl ⟨hanswer, hrest⟩⟩
  | dispatchError _ _ answer e hanswer =>
      exact ⟨answer, [], rfl, Or.inr ⟨e, hanswer, rfl, rfl⟩⟩

theorem Body.runs_dispatchUrl {op : VzOp} {path : Path}
    (h : (Body.dispatchVzUrlOp op path rest).Runs es o) :
    (∃ e, path.toStr = none ∧ es = [] ∧ o = .returned (.error e)) ∨
      (path.toStr.isSome = true ∧ (Body.dispatchVzOp op rest).Runs es o) := by
  cases h with
  | badPath _ _ _ hpath => exact Or.inl ⟨_, hpath, rfl, rfl⟩
  | dispatchUrl _ _ _ _ _ hpath hrest => exact Or.inr ⟨hpath, hrest⟩

theorem VmHandle.runs_transitionState {fromState toState : VmState}
    (h : (transitionState fromState toState rest).Runs es o) :
    ∃ es', es = .wrote toState ::
      .emitted (.stateChanged fromState toState) :: es' ∧
      rest.Runs es' o := by
  cases h with
  | send _ _ _ _ h =>
      cases h with
      | emit _ _ es' _ hrest => exact ⟨es', rfl, hrest⟩

/-- The loop of `wait_for_ip` looks in vain as long as the deadline has not
passed, and ends with the first address found or at the deadline. -/
theorem Body.runs_pollLease {mac : Text} {timeout : Duration}
    {deadline : Instant} (h : (Body.pollLease mac timeout deadline).Runs es o) :
    ∃ early : List Instant, (∀ t ∈ early, t < deadline) ∧
      ((∃ ip now, es = early.map (Effect.looked none) ++
          [.looked (some ip) now, .emitted (.ipAssigned ip)] ∧
          o = .returned (.ok (.ip ip))) ∨
        ∃ now, deadline ≤ now ∧
          es = early.map (Effect.looked none) ++ [.looked none now] ∧
          o = .returned (.error (noLeaseError mac timeout))) := by
  generalize hbody : Body.pollLease mac timeout deadline = body at h
  induction h with
  | leaseFound _ _ _ ip now =>
      exact ⟨[], by simp, Or.inl ⟨ip, now, rfl, rfl⟩⟩
  | deadlinePassed _ _ _ now hnow =>
      cases hbody
      exact ⟨[], by simp, Or.inr ⟨now, hnow, rfl, rfl⟩⟩
  | pollAgain _ _ _ now es o hnow _ ih =>
      cases hbody
      obtain ⟨early, hearly, hrest⟩ := ih rfl
      refine ⟨now :: early, ?_, ?_⟩
      · exact List.forall_mem_cons.mpr ⟨Nat.lt_of_not_le hnow, hearly⟩
      · rcases hrest with ⟨ip, t, rfl, rfl⟩ | ⟨t, ht, rfl, rfl⟩
        · exact Or.inl ⟨ip, t, rfl, rfl⟩
        · exact Or.inr ⟨t, ht, rfl, rfl⟩
  | _ => cases hbody

end Inversion

/-! ## Runs of the methods -/

namespace VmHandle

variable {es : List Effect} {o : Outcome}

/-- An operation that reads the state, is answered, and publishes the state it
leads to. -/
theorem runs_operation {op : VzOp} {target : VmState}
    (h : (Body.readState fun before => .dispatchVzOp op
      (transitionState before target finishOk)).Runs es o) :
    ∃ before answer,
      (answer.result op = .ok () ∧ o = .returned (.ok .unit) ∧
        es = [.read before, .answered op answer, .wrote target,
          .emitted (.stateChanged before target)]) ∨
      ∃ e, answer.result op = .error e ∧ o = .returned (.error e) ∧
        es = [.read before, .answered op answer] := by
  cases h with
  | readState _ before _ _ h =>
      obtain ⟨answer, es', rfl, hanswer⟩ := Body.runs_dispatch h
      refine ⟨before, answer, ?_⟩
      rcases hanswer with ⟨hok, hrest⟩ | ⟨e, herror, rfl, rfl⟩
      · obtain ⟨es'', rfl, hfinish⟩ := runs_transitionState hrest
        obtain ⟨rfl, rfl⟩ := Body.runs_finish hfinish
        exact Or.inl ⟨hok, rfl, rfl⟩
      · exact Or.inr ⟨e, herror, rfl, rfl⟩

/-- `save_state` syncs and announces the file after a successful answer only,
whatever comes of the sync. -/
theorem runs_saveState {path : Path} (h : (saveState path).Runs es o) :
    (∃ e, path.toStr = none ∧ o = .returned (.error e) ∧ es = []) ∨
      ∃ answer,
        (∃ outcome, answer.result .save = .ok () ∧
          o = .returned (.ok .unit) ∧
          es = [.answered .save answer, .synced path outcome,
            .emitted (.snapshotCreated path)]) ∨
        ∃ e, answer.result .save = .error e ∧ o = .returned (.error e) ∧
          es = [.answered .save answer] := by
  rcases Body.runs_dispatchUrl h with ⟨e, hpath, rfl, rfl⟩ | ⟨-, h⟩
  · exact Or.inl ⟨e, hpath, rfl, rfl⟩
  · obtain ⟨answer, es', rfl, hanswer⟩ := Body.runs_dispatch h
    refine Or.inr ⟨answer, ?_⟩
    rcases hanswer with ⟨hok, hrest⟩ | ⟨e, herror, rfl, rfl⟩
    · cases hrest with
      | syncFile _ _ outcome _ _ hrest =>
          cases hrest with
          | emit _ _ _ _ hrest =>
              obtain ⟨rfl, rfl⟩ := Body.runs_finish hrest
              exact Or.inl ⟨outcome, hok, rfl, rfl⟩
    · exact Or.inr ⟨e, herror, rfl, rfl⟩

theorem runs_restoreState {path : Path} (h : (restoreState path).Runs es o) :
    ∃ before,
      (∃ answer, o = .returned (.ok .unit) ∧
        es = [.read before, .answered .restore answer, .wrote .paused,
          .emitted (.stateChanged before .paused),
          .emitted (.snapshotRestored path)]) ∨
      ∃ e, o = .returned (.error e) ∧
        (es = [.read before] ∨
          ∃ answer, es = [.read before, .answered .restore answer]) := by
  cases h with
  | readState _ before _ _ h =>
      refine ⟨before, ?_⟩
      rcases Body.runs_dispatchUrl h with ⟨e, -, rfl, rfl⟩ | ⟨-, h⟩
      · exact Or.inr ⟨e, rfl, Or.inl rfl⟩
      · obtain ⟨answer, es', rfl, hanswer⟩ := Body.runs_dispatch h
        rcases hanswer with ⟨-, hrest⟩ | ⟨e, -, rfl, rfl⟩
        · obtain ⟨es'', rfl, hemit⟩ := runs_transitionState hrest
          cases hemit with
          | emit _ _ _ _ hfinish =>
              obtain ⟨rfl, rfl⟩ := Body.runs_finish hfinish
              exact Or.inl ⟨answer, rfl, rfl⟩
        · exact Or.inr ⟨e, rfl, Or.inr ⟨answer, rfl⟩⟩

theorem runs_requestStop (h : requestStop.Runs es o) :
    ∃ answer,
      (o = .returned (.ok .unit) ∧
        es = [.answered .requestStop answer, .emitted .shutdownRequested]) ∨
      ∃ e, o = .returned (.error e) ∧
        es = [.answered .requestStop answer] := by
  obtain ⟨answer, es', rfl, hanswer⟩ := Body.runs_dispatch h
  refine ⟨answer, ?_⟩
  rcases hanswer with ⟨-, hrest⟩ | ⟨e, -, rfl, rfl⟩
  · cases hrest with
    | emit _ _ _ _ hrest =>
        obtain ⟨rfl, rfl⟩ := Body.runs_finish hrest
        exact Or.inl ⟨rfl, rfl⟩
  · exact Or.inr ⟨e, rfl, rfl⟩

/-- `wait_for_ip` without an address fails at once, and with a deadline that
is no instant it panics; else it runs its loop. -/
theorem runs_waitForIp {config : VmConfig} {timeout : Duration}
    (h : (waitForIp config timeout).Runs es o) :
    (∃ e, config.network.macAddress = none ∧ o = .returned (.error e) ∧
      es = []) ∨
    ∃ mac now, config.network.macAddress = some mac ∧
      ((∃ message, Instant.checkedAdd now timeout = none ∧
        o = .panicked message ∧ es = [.clock now]) ∨
      ∃ deadline es', Instant.checkedAdd now timeout = some deadline ∧
        es = .clock now :: es' ∧
        (Body.pollLease mac timeout deadline).Runs es' o) := by
  rw [waitForIp] at h
  cases hmac : config.network.macAddress with
  | none =>
      simp only [hmac] at h
      obtain ⟨rfl, rfl⟩ := Body.runs_finish h
      exact Or.inl ⟨_, rfl, rfl, rfl⟩
  | some mac =>
      simp only [hmac] at h
      cases h with
      | readClock _ now es' _ h =>
          refine Or.inr ⟨mac, now, rfl, ?_⟩
          change (pollUntil mac timeout _).Runs es' o at h
          cases hdeadline : Instant.checkedAdd now timeout with
          | none =>
              rw [hdeadline] at h
              obtain ⟨rfl, rfl⟩ := Body.runs_finish h
              exact Or.inl ⟨_, rfl, rfl, rfl⟩
          | some deadline =>
              rw [hdeadline] at h
              exact Or.inr ⟨deadline, es', rfl, rfl, h⟩

end VmHandle

/-! ## What a call announces and publishes -/

/-- The state that a successful call publishes, if it publishes one. -/
def HostCall.target : HostCall → Option VmState
  | start => some .running
  | stop => some .stopped
  | pause => some .paused
  | resume => some .running
  | restoreState _ => some .paused
  | saveState _ | requestStop | waitForIp _ => none

/-- The events that belong to a call that has ended: those of its success,
with the state it read first, and none if it did not succeed. -/
inductive CallRecord.Announces : CallRecord → List VmEventKind → Prop where
  | transition (call : HostCall) (target before : VmState) (es : List Effect)
      (htarget : call.target = some target)
      (hcall : ∀ path, call ≠ .restoreState path) :
      Announces ⟨call, .read before :: es, .returned (.ok .unit)⟩
        [.stateChanged before target]
  | saved (path : Path) (es : List Effect) :
      Announces ⟨.saveState path, es, .returned (.ok .unit)⟩
        [.snapshotCreated path]
  | restored (path : Path) (before : VmState) (es : List Effect) :
      Announces ⟨.restoreState path, .read before :: es, .returned (.ok .unit)⟩
        [.stateChanged before .paused, .snapshotRestored path]
  | requested (es : List Effect) :
      Announces ⟨.requestStop, es, .returned (.ok .unit)⟩ [.shutdownRequested]
  | assigned (timeout : Duration) (ip : Text) (es : List Effect) :
      Announces ⟨.waitForIp timeout, es, .returned (.ok (.ip ip))⟩
        [.ipAssigned ip]
  | failed (call : HostCall) (es : List Effect) (e : KasouError) :
      Announces ⟨call, es, .returned (.error e)⟩ []
  | panicked (call : HostCall) (es : List Effect) (message : Text) :
      Announces ⟨call, es, .panicked message⟩ []

/-- The values that belong to a call that has ended. -/
def CallRecord.published (r : CallRecord) : List VmState :=
  match r.outcome with
  | .returned (.ok _) => r.call.target.toList
  | .returned (.error _) => []
  | .panicked _ => []

/-- The call left exactly its own events and its own value. -/
def CallRecord.LeavesItsOwn (r : CallRecord) : Prop :=
  r.Announces r.events ∧ r.written = r.published

namespace VmHandle

variable {es : List Effect} {o : Outcome}

theorem leaves_operation {op : VzOp} {target : VmState} {call : HostCall}
    (htarget : call.target = some target)
    (hcall : ∀ path, call ≠ .restoreState path)
    (h : (Body.readState fun before => .dispatchVzOp op
      (transitionState before target finishOk)).Runs es o) :
    CallRecord.LeavesItsOwn ⟨call, es, o⟩ := by
  obtain ⟨before, answer, ⟨-, rfl, rfl⟩ | ⟨e, -, rfl, rfl⟩⟩ :=
    runs_operation h
  · refine ⟨.transition call target before _ htarget hcall, ?_⟩
    rw [CallRecord.published, htarget]
    rfl
  · exact ⟨.failed call _ e, rfl⟩

theorem filterMap_early {β : Type} {f : Effect → Option β}
    (hf : ∀ t, f (.looked none t) = none) (early : List Instant) :
    (early.map (Effect.looked none)).filterMap f = [] := by
  rw [List.filterMap_eq_nil_iff, List.forall_mem_map]
  exact fun t _ => hf t

theorem leaves_waitForIp {config : VmConfig} {timeout : Duration}
    (h : (waitForIp config timeout).Runs es o) :
    CallRecord.LeavesItsOwn ⟨.waitForIp timeout, es, o⟩ := by
  rcases runs_waitForIp h with ⟨e, -, rfl, rfl⟩ | ⟨mac, now, -, hrest⟩
  · exact ⟨.failed _ _ e, rfl⟩
  rcases hrest with ⟨message, -, rfl, rfl⟩ | ⟨deadline, es', -, hes, hpoll⟩
  · exact ⟨.panicked _ _ message, rfl⟩
  obtain ⟨early, -, ⟨ip, t, rfl, rfl⟩ | ⟨t, -, rfl, rfl⟩⟩ :=
    Body.runs_pollLease hpoll
  · subst hes
    constructor
    · rw [CallRecord.events, List.filterMap_cons_none rfl,
        List.filterMap_append, filterMap_early fun _ => rfl]
      exact .assigned timeout ip _
    · rw [CallRecord.written, List.filterMap_cons_none rfl,
        List.filterMap_append, filterMap_early fun _ => rfl]
      rfl
  · subst hes
    constructor
    · rw [CallRecord.events, List.filterMap_cons_none rfl,
        List.filterMap_append, filterMap_early fun _ => rfl]
      exact .failed _ _ _
    · rw [CallRecord.written, List.filterMap_cons_none rfl,
        List.filterMap_append, filterMap_early fun _ => rfl]
      rfl

/-- Whatever a method's body runs to, it leaves exactly its own. -/
theorem leavesItsOwn_of_runs {config : VmConfig} {r : CallRecord}
    (h : (r.call.body config).Runs r.effects r.outcome) :
    r.LeavesItsOwn := by
  obtain ⟨call, es, o⟩ := r
  cases call with
  | start => exact leaves_operation rfl (by simp) h
  | stop => exact leaves_operation rfl (by simp) h
  | pause => exact leaves_operation rfl (by simp) h
  | resume => exact leaves_operation rfl (by simp) h
  | saveState path =>
      rcases runs_saveState h with ⟨e, -, rfl, rfl⟩ | ⟨answer, h⟩
      · exact ⟨.failed _ _ e, rfl⟩
      · rcases h with ⟨outcome, -, rfl, rfl⟩ | ⟨e, -, rfl, rfl⟩
        · exact ⟨.saved path _, rfl⟩
        · exact ⟨.failed _ _ e, rfl⟩
  | restoreState path =>
      obtain ⟨before, ⟨answer, rfl, rfl⟩ | ⟨e, rfl, rfl | ⟨answer, rfl⟩⟩⟩ :=
        runs_restoreState h
      · exact ⟨.restored path before _, rfl⟩
      · exact ⟨.failed _ _ e, rfl⟩
      · exact ⟨.failed _ _ e, rfl⟩
  | requestStop =>
      obtain ⟨answer, ⟨rfl, rfl⟩ | ⟨e, rfl, rfl⟩⟩ := runs_requestStop h
      · exact ⟨.requested _, rfl⟩
      · exact ⟨.failed _ _ e, rfl⟩
  | waitForIp timeout => exact leaves_waitForIp h

/-! ## Whole runs -/

/-- The ledger of a run accounts for both output channels of the handle that
it leads to. -/
structure Accounted (config : VmConfig) (as : List Action)
    (h : VmHandle) : Prop where
  /-- The calls of the ledger are those that have ended, in order. -/
  returns : h.returns =
    (ledger config as).finished.map fun r => (r.call, r.outcome)
  /-- The event bus carries their events in that order, and those so far of
  the call in flight. -/
  eventBus : h.eventBus.sent.map VmEvent.kind =
    (ledger config as).finished.flatMap CallRecord.events ++
      (ledger config as).current.filterMap Effect.event
  /-- Between calls there is nothing else. -/
  idle : h.thread = .idle → (ledger config as).current = []
  /-- The state channel carries what was seen to be put there, by the calls'
  own effects and by delegate callbacks. -/
  stateTx : h.stateTx.sent =
    (seen config as).filterMap Observation.written
  effects : (seen config as).filterMap Observation.hostEffect =
    (ledger config as).finished.flatMap CallRecord.effects ++
      (ledger config as).current
  /-- Each call that has ended left exactly its own events and values: none
  at all if it did not return `Ok`. -/
  own : ∀ r ∈ (ledger config as).finished, r.LeavesItsOwn

/-- Failed calls leave no trace and successful ones leave exactly theirs, in
every run of a new handle. -/
theorem run_accounted (config : VmConfig) (as : List Action) (h : VmHandle)
    (hrun : TransitionSystem.run step (create config) as = some h) :
    Accounted config as h := by
  have hseen := run_seen hrun
  constructor
  · rw [hseen.returns, Ledger.ended_eq, ledger]
  · rw [hseen.events, Ledger.events_eq, ledger]
  · intro hidle
    have hcompletes := hseen.explains.completes
    rw [hidle] at hcompletes
    exact hcompletes
  · exact hseen.states
  · rw [Ledger.effects_eq, ledger]
  · intro r hr
    exact leavesItsOwn_of_runs (hseen.explains.allRun r hr)

/-- A start that fails and one that succeeds, with the guest reported stopped
in between. -/
def failedThenStarted : List Action :=
  [.invoke .start, .host 0, .host 0,
    .complete (.failure (.mk "VZErrorDomain".toList 1 "busy".toList none none
      [])), .host 0, .host 0, .guestDidStop,
    .invoke .start, .host 0, .host 0, .complete .success, .host 0, .host 0,
    .host 0, .host 0]

theorem failedThenStarted_accounted :
    ∃ h, TransitionSystem.run step (create smokeConfig) failedThenStarted =
      some h ∧ Accounted smokeConfig failedThenStarted h :=
  ⟨_, rfl, run_accounted _ _ _ rfl⟩

end VmHandle

end Kasou
