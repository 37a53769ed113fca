import Kasou.Vm.Publication

/-!
# The event history and the state channel

`transition_state` writes a transition to the state channel and then to the
event bus, with a `from` that was read at the start of the call.  The delegate
writes to the state channel alone.  So the events replay the channel as long
as no delegate callback has arrived, and a single callback is enough to part
the two histories for good.
-/

namespace Kasou

/-- The transition that the host thread has written to the state channel and
is about to announce. -/
def Body.unsent : Body → List (VmState × VmState)
  | .emit kind _ => kind.stateChange.toList
  | _ => []

/-- A body that announces each transition right after writing it, and nothing
else as a transition.  The announced `from` is the value that the host thread
has last read or written, which is `s` when the body is entered. -/
def Body.Chained (s : VmState) : Body → Prop
  | .readState rest => ∀ s', (rest s').unsent = [] ∧ (rest s').Chained s'
  | .readClock rest => ∀ t, (rest t).unsent = [] ∧ (rest t).Chained s
  | .dispatchVzOp _ rest => rest.unsent = [] ∧ rest.Chained s
  | .dispatchVzUrlOp _ _ rest => rest.unsent = [] ∧ rest.Chained s
  | .send v rest => rest.unsent = [(s, v)] ∧ rest.Chained v
  | .emit _ rest => rest.unsent = [] ∧ rest.Chained s
  | .syncFile _ rest => rest.unsent = [] ∧ rest.Chained s
  | .pollLease _ _ _ => True
  | .finish _ => True

/-- The transition that the call in flight is about to announce. -/
def Thread.unsent : Thread → List (VmState × VmState)
  | .running _ body => body.unsent
  | _ => []

/-- The call in flight is the rest of a chained body. -/
def Thread.Chained (s : VmState) : Thread → Prop
  | .idle => True
  | .running _ body => body.Chained s
  | .waiting _ _ rest => rest.unsent = [] ∧ rest.Chained s
  | .answered _ _ _ rest => rest.unsent = [] ∧ rest.Chained s

namespace VmHandle

theorem pollUntil_chained (s : VmState) (mac : Text) (timeout : Duration)
    (deadline : Option Instant) :
    (pollUntil mac timeout deadline).unsent = [] ∧
      (pollUntil mac timeout deadline).Chained s := by
  cases deadline with
  | none => exact ⟨rfl, trivial⟩
  | some deadline => exact ⟨rfl, trivial⟩

theorem waitForIp_chained (s : VmState) (config : VmConfig)
    (timeout : Duration) :
    (waitForIp config timeout).unsent = [] ∧
      (waitForIp config timeout).Chained s := by
  rw [waitForIp]
  cases config.network.macAddress with
  | none => exact ⟨rfl, trivial⟩
  | some mac =>
      rw [Body.Chained]
      exact ⟨rfl, fun now => pollUntil_chained s mac timeout _⟩

/-- The body of every method is chained, whatever is published when it is
entered: those that publish a transition read the state first. -/
theorem body_chained (config : VmConfig) (s : VmState) (call : HostCall) :
    (call.body config).unsent = [] ∧ (call.body config).Chained s := by
  cases call with
  | start => exact ⟨rfl, fun _ => ⟨rfl, rfl, rfl, rfl, trivial⟩⟩
  | stop => exact ⟨rfl, fun _ => ⟨rfl, rfl, rfl, rfl, trivial⟩⟩
  | pause => exact ⟨rfl, fun _ => ⟨rfl, rfl, rfl, rfl, trivial⟩⟩
  | resume => exact ⟨rfl, fun _ => ⟨rfl, rfl, rfl, rfl, trivial⟩⟩
  | saveState path => exact ⟨rfl, rfl, rfl, rfl, trivial⟩
  | restoreState path =>
      exact ⟨rfl, fun _ => ⟨rfl, rfl, rfl, rfl, rfl, trivial⟩⟩
  | requestStop => exact ⟨rfl, rfl, rfl, trivial⟩
  | waitForIp timeout => exact waitForIp_chained s config timeout

/-- A move of the host thread announces nothing.  It keeps the value the
thread goes by, or takes over the published one. -/
theorem Moves.chained {config : VmConfig} {state s : VmState} {t t' : Thread}
    (hmoves : Moves config state t t') (ht : t.Chained s) :
    t'.unsent = t.unsent ∧ (t'.Chained s ∨ t'.Chained state) := by
  cases hmoves with
  | invoke call => exact ⟨(body_chained config s call).1,
      Or.inl (body_chained config s call).2⟩
  | readState call rest => exact ⟨(ht state).1, Or.inr (ht state).2⟩
  | readClock call rest now => exact ⟨(ht now).1, Or.inl (ht now).2⟩
  | dispatch call op rest => exact ⟨rfl, Or.inl ht⟩
  | dispatchUrl call op path rest => exact ⟨rfl, Or.inl ht⟩
  | badPath call op path rest outcome => exact ⟨rfl, Or.inl trivial⟩
  | receive call op rest => exact ⟨ht.1, Or.inl ht.2⟩
  | receiveError call op answer rest e herror => exact ⟨rfl, Or.inl trivial⟩
  | sync call path rest => exact ⟨ht.1, Or.inl ht.2⟩
  | leaseFound call mac timeout deadline ip =>
      exact ⟨rfl, Or.inl ⟨rfl, trivial⟩⟩
  | deadlinePassed call mac timeout deadline outcome =>
      exact ⟨rfl, Or.inl trivial⟩

/-! ## The two histories -/

/-- The transitions announced so far, with the one about to be announced. -/
def announced (h : VmHandle) : List (VmState × VmState) :=
  stateChanges h.eventBus.sent ++ h.thread.unsent

/-- What one step adds to the two histories: a callback adds to the state
channel only, a publish adds to both, and nothing else adds to either. -/
inductive Records (s : VmState) (h : VmHandle) (a : Action)
    (h' : VmHandle) : Prop where
  | callback (v : VmState) (hcallback : a.callback = some v)
      (hstate : h'.stateTx = h.stateTx.send v)
      (hannounced : h'.announced = h.announced)
      (hchained : h'.thread.Chained s)
  | publish (v : VmState) (hcallback : a.callback = none)
      (hstate : h'.stateTx = h.stateTx.send v)
      (hannounced : h'.announced = h.announced ++ [(s, v)])
      (hchained : h'.thread.Chained v)
  | nothing (hcallback : a.callback = none)
      (hstate : h'.stateTx = h.stateTx)
      (hannounced : h'.announced = h.announced)
      (hchained : h'.thread.Chained s ∨ h'.thread.Chained h.state)

theorem callback_eq_none_of_not_onQueue {a : Action}
    (hhost : a.onQueue = false) : a.callback = none := by
  cases a with
  | invoke call => rfl
  | host now => rfl
  | sync outcome => rfl
  | poll found now => rfl
  | complete answer => cases hhost
  | guestDidStop => cases hhost
  | didStopWithError error => cases hhost

theorem Step.records {s : VmState} {h h' : VmHandle} {a : Action}
    (hstep : Step h a h') (hchained : h.thread.Chained s) :
    Records s h a h' := by
  cases hstep with
  | callback a v hcallback => exact .callback v hcallback rfl rfl hchained
  | complete call op rest answer hthread =>
      rw [hthread] at hchained
      refine .nothing rfl rfl ?_ (Or.inl hchained)
      rw [announced, announced, hthread]
      rfl
  | publish now call v rest hthread =>
      rw [hthread] at hchained
      refine .publish v rfl rfl ?_ hchained.2
      calc stateChanges h.eventBus.sent ++ rest.unsent
          = stateChanges h.eventBus.sent ++ [(s, v)] := by rw [hchained.1]
        _ = h.announced ++ [(s, v)] := by
            rw [announced, hthread]
            simp [Thread.unsent, Body.unsent]
  | emit now call kind rest hthread =>
      rw [hthread] at hchained
      refine .nothing rfl rfl ?_ (Or.inl hchained.2)
      calc stateChanges (h.eventBus.sent ++ [⟨now, h.config.id, kind⟩]) ++
            rest.unsent
          = stateChanges h.eventBus.sent ++ kind.stateChange.toList := by
            rw [hchained.1, List.append_nil, stateChanges_append,
              stateChanges_singleton]
        _ = h.announced := by rw [announced, hthread]; rfl
  | finish now call outcome hthread =>
      refine .nothing rfl rfl ?_ (Or.inl trivial)
      rw [announced, announced, hthread]
      rfl
  | pollAgain found now => exact .nothing rfl rfl rfl (Or.inl hchained)
  | move a thread hhost hmoves =>
      obtain ⟨hunsent, hthread⟩ := hmoves.chained hchained
      refine .nothing (callback_eq_none_of_not_onQueue hhost) rfl ?_ hthread
      rw [announced, announced]
      exact congrArg _ hunsent

/-- As long as no callback arrives, the announced transitions are those of
the state channel. -/
def InStep (h : VmHandle) : Prop :=
  h.thread.Chained h.state ∧ h.announced = h.stateTx.replacements

theorem Records.inStep {h h' : VmHandle} {a : Action}
    (hrecords : Records h.state h a h') (hcallback : a.callback = none)
    (h₀ : h.InStep) : h'.InStep := by
  cases hrecords with
  | callback v hsome => rw [hsome] at hcallback; cases hcallback
  | publish v hnone hstate hannounced hchained =>
      refine ⟨?_, ?_⟩
      · rwa [state, hstate, Watch.borrow_send]
      · rw [hannounced, hstate, Watch.replacements_send, h₀.2]
        rfl
  | nothing hnone hstate hannounced hchained =>
      refine ⟨?_, by rw [hannounced, hstate, h₀.2]⟩
      rw [state, hstate]
      exact hchained.elim id id

/-- The state channel is ahead of the announced transitions by `n` writes. -/
def AheadBy (n : Nat) (h : VmHandle) : Prop :=
  (∃ s, h.thread.Chained s) ∧
    h.stateTx.sent.length = h.announced.length + n

theorem Records.aheadBy {s : VmState} {n : Nat} {h h' : VmHandle} {a : Action}
    (hrecords : Records s h a h') (h₀ : h.AheadBy n) :
    h'.AheadBy (n + a.callback.toList.length) := by
  obtain ⟨-, hlength⟩ := h₀
  cases hrecords with
  | callback v hsome hstate hannounced hchained =>
      refine ⟨⟨s, hchained⟩, ?_⟩
      simp only [hstate, Watch.sent_send, List.length_append, hannounced,
        hsome, Option.toList_some, List.length_singleton]
      omega
  | publish v hnone hstate hannounced hchained =>
      refine ⟨⟨v, hchained⟩, ?_⟩
      simp only [hstate, Watch.sent_send, List.length_append, hannounced,
        hnone, Option.toList_none, List.length_singleton, List.length_nil]
      omega
  | nothing hnone hstate hannounced hchained =>
      refine ⟨hchained.elim (fun hs => ⟨s, hs⟩) (fun hs => ⟨_, hs⟩), ?_⟩
      simpa [hstate, hannounced, hnone] using hlength

/-! ## Whole runs -/

open TransitionSystem

theorem inStep_create (config : VmConfig) : (create config).InStep :=
  ⟨trivial, rfl⟩

/-- Along a run without callbacks, the announced transitions are those of the
state channel. -/
theorem inStep_of_run {h h' : VmHandle} {schedule : List Action}
    (h₀ : h.InStep) (hquiet : ∀ a ∈ schedule, a.callback = none)
    (hrun : run step h schedule = some h') : h'.InStep := by
  have hguard : Guarded step (fun _ a => a.callback = none) h schedule := by
    rw [guarded_iff]
    rintro pre a post h rfl -
    exact hquiet a (by simp)
  refine guarded_invariant ?_ h₀ hguard hrun
  intro h a h' h₀ hcallback hstep
  exact ((step_sound hstep).records h₀.1).inStep hcallback h₀

/-- The states that the delegate reports in a schedule. -/
def callbacks (schedule : List Action) : List VmState :=
  schedule.filterMap Action.callback

theorem callbacks_eq_nil_iff {schedule : List Action} :
    callbacks schedule = [] ↔ ∀ a ∈ schedule, a.callback = none := by
  simp [callbacks, List.filterMap_eq_nil_iff]

/-- Each callback puts the state channel ahead by one more write, for good. -/
theorem aheadBy_of_run {h h' : VmHandle} {n : Nat} {schedule : List Action}
    (h₀ : h.AheadBy n) (hrun : run step h schedule = some h') :
    h'.AheadBy (n + (callbacks schedule).length) := by
  induction schedule generalizing h n with
  | nil =>
      rw [run_nil, Option.some.injEq] at hrun
      exact hrun ▸ h₀
  | cons a as ih =>
      obtain ⟨h₁, hstep, has⟩ := run_cons_eq_some_iff.mp hrun
      obtain ⟨s, hchained⟩ := h₀.1
      have h₁ahead : h₁.AheadBy (n + a.callback.toList.length) :=
        ((step_sound hstep).records hchained).aheadBy h₀
      have hcount : (callbacks (a :: as)).length =
          a.callback.toList.length + (callbacks as).length := by
        cases hcallback : a.callback <;>
          simp [callbacks, hcallback, Nat.add_comm]
      rw [hcount, ← Nat.add_assoc]
      exact ih h₁ahead has

theorem aheadBy_create (config : VmConfig) : (create config).AheadBy 0 :=
  ⟨⟨.stopped, trivial⟩, rfl⟩

/-- Events are only ever added to the bus. -/
theorem Step.eventBus_grows {h h' : VmHandle} {a : Action}
    (hstep : Step h a h') : h.eventBus.sent <+: h'.eventBus.sent := by
  cases hstep with
  | emit now call kind rest hthread => exact List.prefix_append _ _
  | callback a v hcallback => exact List.prefix_rfl
  | complete call op rest answer hthread => exact List.prefix_rfl
  | publish now call v rest hthread => exact List.prefix_rfl
  | finish now call outcome hthread => exact List.prefix_rfl
  | pollAgain found now => exact List.prefix_rfl
  | move a thread hhost hmoves => exact List.prefix_rfl

theorem eventBus_grows_of_run {h h' : VmHandle} {schedule : List Action}
    (hrun : run step h schedule = some h') :
    h.eventBus.sent <+: h'.eventBus.sent :=
  run_invariant (P := fun h' => h.eventBus.sent <+: h'.eventBus.sent)
    (fun _ _ _ hprefix hstep =>
      hprefix.trans (step_sound hstep).eventBus_grows)
    List.prefix_rfl hrun

/-! ## When the events replay the state channel -/

/-- The announced transitions tell the history of a state channel. -/
structure Replays (w : Watch VmState)
    (changes : List (VmState × VmState)) : Prop where
  /-- The announced states are the values written, in order. -/
  values : changes.map Prod.snd = w.sent
  /-- Each announced `from` is the value that the write replaced. -/
  replaced : changes.map Prod.fst = w.replacements.map Prod.fst
  /-- Each announced `from` is the `to` of the announcement before it. -/
  chained : changes.IsChain fun earlier later => later.1 = earlier.2
  /-- The first announced `from` is the channel's initial value. -/
  first : ∀ change ∈ changes.head?, change.1 = w.initial
  /-- The last announced `to` is the current value. -/
  last : ∀ change ∈ changes.getLast?, change.2 = w.borrow

theorem replays_iff {w : Watch VmState} {changes : List (VmState × VmState)} :
    Replays w changes ↔ changes = w.replacements := by
  constructor
  · intro hreplays
    have hvalues : changes.map Prod.snd = w.replacements.map Prod.snd := by
      rw [hreplays.values, Watch.replacements_map_snd]
    calc changes = (changes.map Prod.fst).zip (changes.map Prod.snd) := by
          rw [List.zip_map', List.map_id']
      _ = (w.replacements.map Prod.fst).zip
            (w.replacements.map Prod.snd) := by
          rw [hreplays.replaced, hvalues]
      _ = w.replacements := by rw [List.zip_map', List.map_id']
  · rintro rfl
    exact ⟨w.replacements_map_snd, rfl, w.isChain_replacements,
      w.head?_replacements, w.getLast?_replacements⟩

/-- A subscriber that subscribed before the first transition is given all
transitions ever announced. -/
theorem stateChanges_received {config : VmConfig} {pre post : List Action}
    {h₀ h : VmHandle} (hpre : run step (create config) pre = some h₀)
    (hearly : h₀.stateTx.sent = []) (hpost : run step h₀ post = some h) :
    stateChanges (h.eventBus.received h₀.eventBus.subscribe) =
      stateChanges h.eventBus.sent := by
  obtain ⟨-, hlength⟩ := aheadBy_of_run (aheadBy_create config) hpre
  have hnone : stateChanges h₀.eventBus.sent = [] := by
    rw [hearly, announced, List.length_append, List.length_nil] at hlength
    exact List.length_eq_zero_iff.mp (by omega)
  rw [Broadcast.sent_eq_append_received (eventBus_grows_of_run hpost),
    stateChanges_append, hnone, List.nil_append]

/-- The events given to a subscriber that subscribed before the first
transition and has not lagged replay the state channel exactly when no
delegate callback has arrived since and the host thread is not between its
two writes. -/
theorem replays_iff_no_callback {config : VmConfig} {pre post : List Action}
    {h₀ h : VmHandle} (hpre : run step (create config) pre = some h₀)
    (hearly : h₀.stateTx.sent = []) (hpost : run step h₀ post = some h) :
    Replays h.stateTx
        (stateChanges (h.eventBus.received h₀.eventBus.subscribe)) ↔
      (∀ a ∈ post, a.callback = none) ∧ h.thread.unsent = [] := by
  obtain ⟨-, hearlyLength⟩ := aheadBy_of_run (aheadBy_create config) hpre
  have hpreQuiet : callbacks pre = [] := by
    rw [hearly, List.length_nil] at hearlyLength
    exact List.length_eq_zero_iff.mp (by omega)
  have hrun : run step (create config) (pre ++ post) = some h :=
    run_trans hpre hpost
  obtain ⟨-, hlength⟩ := aheadBy_of_run (aheadBy_create config) hrun
  rw [stateChanges_received hpre hearly hpost, replays_iff,
    ← callbacks_eq_nil_iff]
  constructor
  · intro hreplays
    have hsame : (stateChanges h.eventBus.sent).length =
        h.stateTx.sent.length := by
      rw [hreplays, Watch.length_replacements]
    rw [announced, callbacks, List.filterMap_append] at hlength
    simp only [List.length_append] at hlength
    constructor
    · exact List.length_eq_zero_iff.mp (by rw [callbacks]; omega)
    · exact List.length_eq_zero_iff.mp (by omega)
  · rintro ⟨hquiet, hunsent⟩
    have hinStep : h.InStep := by
      refine inStep_of_run (inStep_create config) ?_ hrun
      rw [← callbacks_eq_nil_iff, callbacks, List.filterMap_append]
      rw [callbacks] at hpreQuiet hquiet
      rw [hpreQuiet, hquiet, List.append_nil]
    rw [← hinStep.2, announced, hunsent, List.append_nil]

/-- A guest that starts and is stopped by its owner. -/
def startThenStop : List Action :=
  [.invoke .start, .host 0, .host 0, .complete .success, .host 0, .host 0,
    .host 0, .host 0,
    .invoke .stop, .host 0, .host 0, .complete .success, .host 0, .host 0,
    .host 0, .host 0]

theorem replays_after_start_and_stop :
    ∃ h, run step (create smokeConfig) startThenStop = some h ∧
      Replays h.stateTx
        (stateChanges (h.eventBus.received
          (create smokeConfig).eventBus.subscribe)) :=
  ⟨_, rfl, (@replays_iff_no_callback smokeConfig [] startThenStop _ _
    rfl rfl rfl).mpr ⟨by decide, rfl⟩⟩

/-- A guest that stops by itself is not announced: the subscriber's history
ends with `Running` while the state channel holds `Stopped`. -/
theorem not_replays_after_guest_stop :
    ∃ h, run step (create smokeConfig) startThenGuestStop = some h ∧
      h.thread = .idle ∧
      h.stateTx.sent = [.running, .stopped] ∧
      stateChanges (h.eventBus.received
        (create smokeConfig).eventBus.subscribe) = [(.stopped, .running)] ∧
      ¬ Replays h.stateTx
        (stateChanges (h.eventBus.received
          (create smokeConfig).eventBus.subscribe)) :=
  ⟨_, rfl, rfl, rfl, rfl, fun hreplays => absurd hreplays.values (by decide)⟩

end VmHandle
end Kasou
