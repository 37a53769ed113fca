import Kasou.Vm.Handle

/-!
# What is seen of a run of the handle

`observe` says what a step shows: which call begins or ends, what the host
thread reads, sends, emits, is answered or finds, and which value a delegate
callback publishes.  The ledger sorts these observations by call.
`Body.Runs` is the meaning of a method body as a whole, with the effects it
has on the way; every call in the ledger is a run of its body.
-/

namespace Kasou

/-- What the host thread does or learns in a step. -/
inductive Effect where
  /-- `self.state()`. -/
  | read (state : VmState)
  /-- `Instant::now()`. -/
  | clock (now : Instant)
  /-- `rx.recv()` returns. -/
  | answered (op : VzOp) (answer : Answer)
  /-- A value is written to the state channel. -/
  | wrote (state : VmState)
  /-- An event is put on the event bus. -/
  | emitted (kind : VmEventKind)
  /-- A saved file is reopened and synced. -/
  | synced (path : Path) (outcome : SyncOutcome)
  /-- A lease lookup, with a clock reading after it. -/
  | looked (found : Option Text) (now : Instant)

/-- What a step shows. -/
inductive Observation where
  | invoked (call : HostCall)
  | effect (effect : Effect)
  /-- A delegate callback publishes a state. -/
  | callback (state : VmState)
  | returned (call : HostCall) (outcome : Outcome)

namespace Effect

def written : Effect → Option VmState
  | wrote state => some state
  | _ => none

def event : Effect → Option VmEventKind
  | emitted kind => some kind
  | _ => none

end Effect

namespace Observation

/-- The value that a step puts in the state channel. -/
def written : Observation → Option VmState
  | effect e => e.written
  | callback state => some state
  | _ => none

/-- What the host thread does or learns. -/
def hostEffect : Observation → Option Effect
  | effect e => some e
  | _ => none

/-- The event that a step puts on the event bus. -/
def event : Observation → Option VmEventKind
  | effect e => e.event
  | _ => none

/-- The call that a step ends. -/
def ended : Observation → Option (HostCall × Outcome)
  | returned call outcome => some (call, outcome)
  | _ => none

end Observation

namespace VmHandle

/-- What the host thread's next step in a body shows. -/
def observeBody (h : VmHandle) (now : Instant) (call : HostCall) :
    Body → Option Observation
  | .readState _ => some (.effect (.read h.state))
  | .readClock _ => some (.effect (.clock now))
  | .dispatchVzOp _ _ => none
  | .dispatchVzUrlOp _ _ _ => none
  | .send toState _ => some (.effect (.wrote toState))
  | .emit kind _ => some (.effect (.emitted kind))
  | .syncFile _ _ => none
  | .pollLease _ _ _ => none
  | .finish outcome => some (.returned call outcome)

/-- What a step shows. -/
def observe (h : VmHandle) : Action → Option Observation
  | .invoke call => some (.invoked call)
  | .host now =>
      match h.thread with
      | .running call body => h.observeBody now call body
      | .answered _ op answer _ => some (.effect (.answered op answer))
      | _ => none
  | .sync outcome =>
      match h.thread with
      | .running _ (.syncFile path _) => some (.effect (.synced path outcome))
      | _ => none
  | .poll found now => some (.effect (.looked found now))
  | .complete _ => none
  | .guestDidStop => some (.callback .stopped)
  | .didStopWithError _ => some (.callback .error)

end VmHandle

/-! ## The ledger of calls -/

/-- A call that has ended, with its effects in order. -/
structure CallRecord where
  call : HostCall
  effects : List Effect
  outcome : Outcome

namespace CallRecord

/-- The events that the call put on the event bus. -/
def events (r : CallRecord) : List VmEventKind :=
  r.effects.filterMap Effect.event

/-- The values that the call put in the state channel. -/
def written (r : CallRecord) : List VmState :=
  r.effects.filterMap Effect.written

end CallRecord

/-- The calls that have ended, oldest first, with the effects so far of the
call in flight. -/
structure Ledger where
  finished : List CallRecord
  current : List Effect

namespace Ledger

/-- Enter an observation. -/
def add (l : Ledger) : Observation → Ledger
  | .invoked _ => l
  | .effect e => { l with current := l.current ++ [e] }
  | .callback _ => l
  | .returned call outcome =>
      { finished := l.finished ++ [⟨call, l.current, outcome⟩]
        current := [] }

/-- The ledger of all that was seen. -/
def ofTrace (seen : List Observation) : Ledger := seen.foldl add ⟨[], []⟩

@[simp] theorem ofTrace_concat (seen : List Observation) (o : Observation) :
    ofTrace (seen ++ [o]) = (ofTrace seen).add o := by
  rw [ofTrace, List.foldl_concat, ofTrace]

/-- The calls of the ledger are those seen to end. -/
theorem ended_eq (seen : List Observation) :
    seen.filterMap Observation.ended =
      (ofTrace seen).finished.map fun r => (r.call, r.outcome) := by
  induction seen using List.reverseRecOn with
  | nil => rfl
  | append_singleton seen o ih =>
      rw [List.filterMap_append, ih, ofTrace_concat]
      cases o <;> simp [add, Observation.ended]

/-- The effects seen are those of the calls, and of the call in flight. -/
theorem effects_eq (seen : List Observation) :
    seen.filterMap Observation.hostEffect =
      (ofTrace seen).finished.flatMap CallRecord.effects ++
        (ofTrace seen).current := by
  induction seen using List.reverseRecOn with
  | nil => rfl
  | append_singleton seen o ih =>
      rw [List.filterMap_append, ih, ofTrace_concat]
      cases o <;> simp [add, Observation.hostEffect]

/-- The events seen are those of the calls, and of the call in flight. -/
theorem events_eq (seen : List Observation) :
    seen.filterMap Observation.event =
      (ofTrace seen).finished.flatMap CallRecord.events ++
        (ofTrace seen).current.filterMap Effect.event := by
  have hevent : Observation.event =
      fun o => o.hostEffect.bind Effect.event := by
    funext o
    cases o <;> rfl
  rw [hevent, ← List.filterMap_filterMap, effects_eq, List.filterMap_append,
    List.filterMap_flatMap]
  rfl

end Ledger

/-! ## The meaning of a body -/

/-- The error of a `wait_for_ip` whose deadline has passed. -/
def noLeaseError (mac : Text) (timeout : Duration) : KasouError :=
  .operationFailed ("VM did not obtain DHCP IP within ".toList ++
    (toString timeout.secs.toNat).toList ++ "s (MAC: ".toList ++ mac ++
    ")".toList)

/-- A body runs to its end with these effects and this outcome. -/
inductive Body.Runs : Body → List Effect → Outcome → Prop where
  | readState (rest : VmState → Body) (state : VmState) (es : List Effect)
      (o : Outcome) (hrest : Runs (rest state) es o) :
      Runs (.readState rest) (.read state :: es) o
  | readClock (rest : Instant → Body) (now : Instant) (es : List Effect)
      (o : Outcome) (hrest : Runs (rest now) es o) :
      Runs (.readClock rest) (.clock now :: es) o
  | dispatch (op : VzOp) (rest : Body) (answer : Answer) (es : List Effect)
      (o : Outcome) (hanswer : answer.result op = .ok ())
      (hrest : Runs rest es o) :
      Runs (.dispatchVzOp op rest) (.answered op answer :: es) o
  | dispatchError (op : VzOp) (rest : Body) (answer : Answer) (e : KasouError)
      (hanswer : answer.result op = .error e) :
      Runs (.dispatchVzOp op rest) [.answered op answer]
        (.returned (.error e))
  | badPath (op : VzOp) (path : Path) (rest : Body)
      (hpath : path.toStr = none) :
      Runs (.dispatchVzUrlOp op path rest) []
        (.returned (.error (.invalidConfig
          ("path not UTF-8: ".toList ++ path.display))))
  | dispatchUrl (op : VzOp) (path : Path) (rest : Body) (es : List Effect)
      (o : Outcome) (hpath : path.toStr.isSome = true)
      (hrest : Runs (.dispatchVzOp op rest) es o) :
      Runs (.dispatchVzUrlOp op path rest) es o
  | send (toState : VmState) (rest : Body) (es : List Effect) (o : Outcome)
      (hrest : Runs rest es o) :
      Runs (.send toState rest) (.wrote toState :: es) o
  | emit (kind : VmEventKind) (rest : Body) (es : List Effect) (o : Outcome)
      (hrest : Runs rest es o) :
      Runs (.emit kind rest) (.emitted kind :: es) o
  | syncFile (path : Path) (rest : Body) (outcome : SyncOutcome)
      (es : List Effect) (o : Outcome) (hrest : Runs rest es o) :
      Runs (.syncFile path rest) (.synced path outcome :: es) o
  | leaseFound (mac : Text) (timeout : Duration) (deadline : Instant)
      (ip : Text) (now : Instant) :
      Runs (.pollLease mac timeout deadline)
        [.looked (some ip) now, .emitted (.ipAssigned ip)]
        (.returned (.ok (.ip ip)))
  | deadlinePassed (mac : Text) (timeout : Duration) (deadline : Instant)
      (now : Instant) (hnow : deadline ≤ now) :
      Runs (.pollLease mac timeout deadline) [.looked none now]
        (.returned (.error (noLeaseError mac timeout)))
  | pollAgain (mac : Text) (timeout : Duration) (deadline : Instant)
      (now : Instant) (es : List Effect) (o : Outcome)
      (hnow : ¬deadline ≤ now)
      (hrest : Runs (.pollLease mac timeout deadline) es o) :
      Runs (.pollLease mac timeout deadline) (.looked none now :: es) o
  | finish (o : Outcome) : Runs (.finish o) [] o

/-! ## From steps to runs of bodies -/

/-- What is left to run of the call in flight. -/
def Thread.remaining : Thread → Option (HostCall × Body)
  | .idle => none
  | .running call body => some (call, body)
  | .waiting call op rest => some (call, .dispatchVzOp op rest)
  | .answered call op _ rest => some (call, .dispatchVzOp op rest)

/-- After the effects `current`, whatever the rest of the call in flight runs
to completes a run of the call's body. -/
def Thread.Completes (config : VmConfig) (current : List Effect)
    (thread : Thread) : Prop :=
  match thread.remaining with
  | none => current = []
  | some (call, body) => ∀ es o, body.Runs es o →
      (call.body config).Runs (current ++ es) o

namespace Thread

variable {config : VmConfig} {current : List Effect} {call : HostCall}
  {body body' : Body} {thread thread' : Thread}

/-- One more effect of the call in flight. -/
theorem Completes.effect {e : Effect} (h : thread.Completes config current)
    (hthread : thread.remaining = some (call, body))
    (hthread' : thread'.remaining = some (call, body'))
    (hruns : ∀ es o, body'.Runs es o → body.Runs (e :: es) o) :
    thread'.Completes config (current ++ [e]) := by
  rw [Completes, hthread] at h
  rw [Completes, hthread']
  intro es o hes
  rw [List.append_assoc]
  exact h (e :: es) o (hruns es o hes)

/-- The call in flight moves on without an effect. -/
theorem Completes.move (h : thread.Completes config current)
    (hthread : thread.remaining = some (call, body))
    (hthread' : thread'.remaining = some (call, body'))
    (hruns : ∀ es o, body'.Runs es o → body.Runs es o) :
    thread'.Completes config current := by
  rw [Completes, hthread] at h
  rw [Completes, hthread']
  exact fun es o hes => h es o (hruns es o hes)

end Thread

/-- Every call that has ended was a run of its body. -/
def Ledger.AllRun (config : VmConfig) (l : Ledger) : Prop :=
  ∀ r ∈ l.finished, (r.call.body config).Runs r.effects r.outcome

/-- The ledger explains where the host thread is. -/
structure Ledger.Explains (config : VmConfig) (thread : Thread)
    (l : Ledger) : Prop where
  allRun : l.AllRun config
  completes : thread.Completes config l.current

/-- What a step shows accounts for all it does: to the state channel, to the
event bus, to the results, and to the host thread. -/
structure VmHandle.Accounts (h : VmHandle) (o : Option Observation)
    (h' : VmHandle) : Prop where
  sameConfig : h'.config = h.config
  states : h'.stateTx.sent = h.stateTx.sent ++ o.toList.filterMap
    Observation.written
  events : h'.eventBus.sent.map VmEvent.kind =
    h.eventBus.sent.map VmEvent.kind ++ o.toList.filterMap Observation.event
  returns : h'.returns = h.returns ++ o.toList.filterMap Observation.ended
  thread : ∀ l : Ledger, l.Explains h.config h.thread →
    (o.toList.foldl Ledger.add l).Explains h.config h'.thread

namespace VmHandle

variable {h : VmHandle} {call : HostCall} {body body' : Body}
  {thread' : Thread}

/-- A step that shows an effect and otherwise only moves the host thread on
in its call. -/
theorem accounts_effect {e : Effect} (hwritten : e.written = none)
    (hevent : e.event = none)
    (hthread : h.thread.remaining = some (call, body))
    (hthread' : thread'.remaining = some (call, body'))
    (hruns : ∀ es o, body'.Runs es o → body.Runs (e :: es) o) :
    h.Accounts (some (.effect e)) (h.setThread thread') where
  sameConfig := rfl
  states := by simp [setThread, Observation.written, hwritten]
  events := by simp [setThread, Observation.event, hevent]
  returns := by simp [setThread, Observation.ended]
  thread l hl := ⟨hl.allRun, hl.completes.effect hthread hthread' hruns⟩

/-- A step that shows nothing and only moves the host thread on. -/
theorem accounts_move
    (hthread : h.thread.remaining = some (call, body))
    (hthread' : thread'.remaining = some (call, body'))
    (hruns : ∀ es o, body'.Runs es o → body.Runs es o) :
    h.Accounts none (h.setThread thread') where
  sameConfig := rfl
  states := by simp [setThread]
  events := by simp [setThread]
  returns := by simp [setThread]
  thread l hl := ⟨hl.allRun, hl.completes.move hthread hthread' hruns⟩

/-- The host thread writes to the state channel. -/
theorem accounts_send {toState : VmState} {rest : Body}
    (hthread : h.thread = .running call (.send toState rest)) :
    h.Accounts (some (.effect (.wrote toState)))
      ((h.sendState toState).setThread (.running call rest)) where
  sameConfig := rfl
  states := rfl
  events := by simp [setThread, sendState, Observation.event, Effect.event]
  returns := by simp [setThread, sendState, Observation.ended]
  thread l hl :=
    ⟨hl.allRun, hl.completes.effect (congrArg Thread.remaining hthread) rfl
      fun es o hes => .send toState rest es o hes⟩

/-- The host thread broadcasts an event. -/
theorem accounts_emit {now : Instant} {kind : VmEventKind} {rest : Body}
    (hthread : h.thread = .running call (.emit kind rest)) :
    h.Accounts (some (.effect (.emitted kind)))
      ((h.emit now kind).setThread (.running call rest)) where
  sameConfig := rfl
  states := by simp [setThread, emit, Observation.written, Effect.written]
  events := by
    simp [setThread, emit, Broadcast.send, Observation.event, Effect.event]
  returns := by simp [setThread, emit, Observation.ended]
  thread l hl :=
    ⟨hl.allRun, hl.completes.effect (congrArg Thread.remaining hthread) rfl
      fun es o hes => .emit kind rest es o hes⟩

/-- The call in flight returns. -/
theorem accounts_finish {outcome : Outcome}
    (hthread : h.thread = .running call (.finish outcome)) :
    h.Accounts (some (.returned call outcome))
      { h with
        thread := .idle
        returns := h.returns ++ [(call, outcome)] } where
  sameConfig := rfl
  states := by simp [Observation.written]
  events := by simp [Observation.event]
  returns := rfl
  thread l hl := by
    have hcompletes := hl.completes
    rw [hthread] at hcompletes
    constructor
    · intro r hr
      rcases List.mem_append.mp hr with hr | hr
      · exact hl.allRun r hr
      · obtain rfl := List.mem_singleton.mp hr
        have hrun := hcompletes [] outcome (.finish outcome)
        rwa [List.append_nil] at hrun
    · exact rfl

/-- A delegate callback. -/
theorem accounts_callback (v : VmState) :
    h.Accounts (some (.callback v)) ({ h with vm := v }.sendState v) where
  sameConfig := rfl
  states := rfl
  events := by simp [sendState, Observation.event]
  returns := by simp [sendState, Observation.ended]
  thread _ hl := hl

/-- A call begins. -/
theorem accounts_invoke (hidle : h.thread = .idle) :
    h.Accounts (some (.invoked call))
      (h.setThread (.running call (call.body h.config))) where
  sameConfig := rfl
  states := by simp [setThread, Observation.written]
  events := by simp [setThread, Observation.event]
  returns := by simp [setThread, Observation.ended]
  thread l hl := by
    have hcompletes := hl.completes
    rw [hidle] at hcompletes
    have hcurrent : l.current = [] := hcompletes
    refine ⟨hl.allRun, fun es o hes => ?_⟩
    change Body.Runs _ (l.current ++ es) o
    rwa [hcurrent, List.nil_append]

/-- A completion handler is invoked or released. -/
theorem accounts_complete {op : VzOp} {rest : Body} (answer : Answer)
    (hthread : h.thread = .waiting call op rest) :
    h.Accounts none
      { h with
        vm := answer.settle op h.vm
        thread := .answered call op answer rest } where
  sameConfig := rfl
  states := by simp
  events := by simp
  returns := by simp
  thread _ hl :=
    ⟨hl.allRun, hl.completes.move (congrArg Thread.remaining hthread) rfl
      fun _ _ hes => hes⟩

theorem stepBody_accounts {h' : VmHandle} {now : Instant}
    (hthread : h.thread = .running call body)
    (hstep : h.stepBody now call body = some h') :
    h.Accounts (h.observeBody now call body) h' := by
  have hremaining := congrArg Thread.remaining hthread
  cases body with
  | readState rest =>
      obtain rfl := Option.some.inj hstep
      exact accounts_effect rfl rfl hremaining rfl
        fun es o hes => .readState rest h.state es o hes
  | readClock rest =>
      obtain rfl := Option.some.inj hstep
      exact accounts_effect rfl rfl hremaining rfl
        fun es o hes => .readClock rest now es o hes
  | dispatchVzOp op rest =>
      obtain rfl := Option.some.inj hstep
      exact accounts_move hremaining rfl fun _ _ hes => hes
  | dispatchVzUrlOp op path rest =>
      rw [stepBody] at hstep
      split at hstep
      next hpath =>
        obtain rfl := Option.some.inj hstep
        refine accounts_move hremaining rfl fun es o hes => ?_
        cases hes
        exact .badPath op path rest hpath
      next url hpath =>
        obtain rfl := Option.some.inj hstep
        refine accounts_move hremaining rfl fun es o hes => ?_
        exact .dispatchUrl op path rest es o (hpath ▸ rfl) hes
  | send v rest =>
      obtain rfl := Option.some.inj hstep
      exact accounts_send hthread
  | emit kind rest =>
      obtain rfl := Option.some.inj hstep
      exact accounts_emit hthread
  | syncFile path rest => cases hstep
  | pollLease mac timeout deadline => cases hstep
  | finish outcome =>
      obtain rfl := Option.some.inj hstep
      exact accounts_finish hthread

theorem stepHost_accounts {h' : VmHandle} {now : Instant}
    (hstep : h.stepHost now = some h') :
    h.Accounts (h.observe (.host now)) h' := by
  cases hthread : h.thread with
  | idle => simp [stepHost, hthread] at hstep
  | waiting call op rest => simp [stepHost, hthread] at hstep
  | running call body =>
      simp only [stepHost, hthread] at hstep
      simp only [observe, hthread]
      exact stepBody_accounts hthread hstep
  | answered call op answer rest =>
      have hremaining := congrArg Thread.remaining hthread
      simp only [stepHost, hthread] at hstep
      simp only [observe, hthread]
      cases hresult : answer.result op with
      | ok value =>
          simp only [hresult, Option.some.injEq] at hstep
          subst hstep
          exact accounts_effect rfl rfl hremaining rfl
            fun es o hes => .dispatch op rest answer es o hresult hes
      | error e =>
          simp only [hresult, Option.some.injEq] at hstep
          subst hstep
          refine accounts_effect rfl rfl hremaining rfl fun es o hes => ?_
          cases hes
          exact .dispatchError op rest answer e hresult

theorem stepPoll_accounts {h' : VmHandle} {found : Option Text}
    {now : Instant} (hstep : h.stepPoll found now = some h') :
    h.Accounts (some (.effect (.looked found now))) h' := by
  rw [stepPoll] at hstep
  split at hstep
  next call mac timeout deadline hthread =>
    have hremaining := congrArg Thread.remaining hthread
    cases found with
    | some ip =>
        obtain rfl := Option.some.inj hstep
        refine accounts_effect rfl rfl hremaining rfl fun es o hes => ?_
        cases hes with
        | emit _ _ es o hes =>
            cases hes
            exact .leaseFound mac timeout deadline ip now
    | none =>
        by_cases hnow : deadline ≤ now
        · simp only [hnow, if_true, Option.some.injEq] at hstep
          subst hstep
          refine accounts_effect rfl rfl hremaining rfl fun es o hes => ?_
          cases hes
          exact .deadlinePassed mac timeout deadline now hnow
        · simp only [hnow, if_false, Option.some.injEq] at hstep
          subst hstep
          have haccounts : h.Accounts (some (.effect (.looked none now)))
              (h.setThread h.thread) :=
            accounts_effect rfl rfl hremaining hremaining fun es o hes =>
              .pollAgain mac timeout deadline now es o hnow hes
          exact haccounts
  · cases hstep

/-- Every step is accounted for by what it shows. -/
theorem step_accounts {h' : VmHandle} {a : Action}
    (hstep : h.step a = some h') : h.Accounts (h.observe a) h' := by
  cases a with
  | invoke call =>
      rw [step] at hstep
      split at hstep
      next hthread =>
        obtain rfl := Option.some.inj hstep
        exact accounts_invoke hthread
      · cases hstep
  | host now => exact stepHost_accounts hstep
  | sync outcome =>
      rw [step] at hstep
      split at hstep
      next call path rest hthread =>
        obtain rfl := Option.some.inj hstep
        simp only [observe, hthread]
        exact accounts_effect rfl rfl (congrArg Thread.remaining hthread) rfl
          fun es o hes => .syncFile path rest outcome es o hes
      · cases hstep
  | poll found now => exact stepPoll_accounts hstep
  | complete answer =>
      rw [step] at hstep
      split at hstep
      next call op rest hthread =>
        obtain rfl := Option.some.inj hstep
        exact accounts_complete answer hthread
      · cases hstep
  | guestDidStop =>
      obtain rfl := Option.some.inj hstep
      exact accounts_callback .stopped
  | didStopWithError error =>
      obtain rfl := Option.some.inj hstep
      exact accounts_callback .error

/-! ## Runs -/

/-- What is seen of a run of a new handle. -/
def seen (config : VmConfig) (as : List Action) : List Observation :=
  TransitionSystem.trace step observe (create config) as

/-- The calls of a run of a new handle. -/
def ledger (config : VmConfig) (as : List Action) : Ledger :=
  .ofTrace (seen config as)

/-- What has been seen of a run accounts for the whole state it leads to. -/
structure Seen (config : VmConfig) (h : VmHandle)
    (seen : List Observation) : Prop where
  sameConfig : h.config = config
  states : h.stateTx.sent = seen.filterMap Observation.written
  events : h.eventBus.sent.map VmEvent.kind = seen.filterMap Observation.event
  returns : h.returns = seen.filterMap Observation.ended
  explains : (Ledger.ofTrace seen).Explains config h.thread

theorem Seen.step {config : VmConfig} {h' : VmHandle} {a : Action}
    {seen : List Observation} (hseen : Seen config h seen)
    (hstep : h.step a = some h') :
    Seen config h' (seen ++ (h.observe a).toList) := by
  have haccounts := step_accounts hstep
  have hexplains := hseen.explains
  rw [← hseen.sameConfig] at hexplains
  constructor
  · rw [haccounts.sameConfig, hseen.sameConfig]
  · rw [haccounts.states, hseen.states, List.filterMap_append]
  · rw [haccounts.events, hseen.events, List.filterMap_append]
  · rw [haccounts.returns, hseen.returns, List.filterMap_append]
  · rw [Ledger.ofTrace, List.foldl_append, ← hseen.sameConfig]
    exact haccounts.thread _ hexplains

theorem run_seen {config : VmConfig} {as : List Action} {h : VmHandle}
    (hrun : TransitionSystem.run step (create config) as = some h) :
    Seen config h (seen config as) := by
  have hstart : Seen config (create config) [] :=
    ⟨rfl, rfl, rfl, rfl, fun _ hr => absurd hr List.not_mem_nil, rfl⟩
  exact TransitionSystem.traced_invariant
    (fun _ _ _ _ hseen hstep => hseen.step hstep) hstart hrun

end VmHandle

end Kasou
