import Kasou.Vm.Handle

/-!
# What one step of the handle can do

`Moves` lists the moves of the host thread that change nothing else, and
`Step` all steps of the system, each with its exact effect.  `step_sound` is
the one place where the step function is taken apart; the invariants are
proved by cases on `Step`.
-/

namespace Kasou
namespace VmHandle

/-- The moves of the host thread that leave the rest of the system alone, for
a handle with configuration `config` and published state `state`. -/
inductive Moves (config : VmConfig) (state : VmState) :
    Thread → Thread → Prop where
  | invoke (call : HostCall) :
      Moves config state .idle (.running call (call.body config))
  | readState (call : HostCall) (rest : VmState → Body) :
      Moves config state (.running call (.readState rest))
        (.running call (rest state))
  | readClock (call : HostCall) (rest : Instant → Body) (now : Instant) :
      Moves config state (.running call (.readClock rest))
        (.running call (rest now))
  | dispatch (call : HostCall) (op : VzOp) (rest : Body) :
      Moves config state (.running call (.dispatchVzOp op rest))
        (.waiting call op rest)
  | dispatchUrl (call : HostCall) (op : VzOp) (path : Path) (rest : Body) :
      Moves config state (.running call (.dispatchVzUrlOp op path rest))
        (.waiting call op rest)
  | badPath (call : HostCall) (op : VzOp) (path : Path) (rest : Body)
      (outcome : Outcome) :
      Moves config state (.running call (.dispatchVzUrlOp op path rest))
        (.running call (.finish outcome))
  | receive (call : HostCall) (op : VzOp) (rest : Body) :
      Moves config state (.answered call op .success rest)
        (.running call rest)
  | receiveError (call : HostCall) (op : VzOp) (answer : Answer) (rest : Body)
      (e : KasouError) (herror : answer.result op = .error e) :
      Moves config state (.answered call op answer rest)
        (.running call (.finish (.returned (.error e))))
  | sync (call : HostCall) (path : Path) (rest : Body) :
      Moves config state (.running call (.syncFile path rest))
        (.running call rest)
  | leaseFound (call : HostCall) (mac : Text) (timeout : Duration)
      (deadline : Instant) (ip : Text) :
      Moves config state (.running call (.pollLease mac timeout deadline))
        (.running call
          (.emit (.ipAssigned ip) (.finish (.returned (.ok (.ip ip))))))
  | deadlinePassed (call : HostCall) (mac : Text) (timeout : Duration)
      (deadline : Instant) (outcome : Outcome) :
      Moves config state (.running call (.pollLease mac timeout deadline))
        (.running call (.finish outcome))

/-- The steps of the system. -/
inductive Step (h : VmHandle) : Action → VmHandle → Prop where
  /-- A delegate callback. -/
  | callback (a : Action) (v : VmState) (hcallback : a.callback = some v) :
      Step h a ({ h with vm := v }.sendState v)
  /-- A completion handler is invoked or released. -/
  | complete (call : HostCall) (op : VzOp) (rest : Body) (answer : Answer)
      (hthread : h.thread = .waiting call op rest) :
      Step h (.complete answer)
        { h with
          vm := answer.settle op h.vm
          thread := .answered call op answer rest }
  /-- The host thread writes to the state channel. -/
  | publish (now : Instant) (call : HostCall) (v : VmState) (rest : Body)
      (hthread : h.thread = .running call (.send v rest)) :
      Step h (.host now) ((h.sendState v).setThread (.running call rest))
  /-- The host thread broadcasts an event. -/
  | emit (now : Instant) (call : HostCall) (kind : VmEventKind) (rest : Body)
      (hthread : h.thread = .running call (.emit kind rest)) :
      Step h (.host now) ((h.emit now kind).setThread (.running call rest))
  /-- The call returns. -/
  | finish (now : Instant) (call : HostCall) (outcome : Outcome)
      (hthread : h.thread = .running call (.finish outcome)) :
      Step h (.host now)
        { h with
          thread := .idle
          returns := h.returns ++ [(call, outcome)] }
  /-- `wait_for_ip` has found nothing yet and waits for its next round. -/
  | pollAgain (found : Option Text) (now : Instant) :
      Step h (.poll found now) h
  /-- The host thread moves on without any other effect. -/
  | move (a : Action) (thread : Thread) (hhost : a.onQueue = false)
      (hmoves : Moves h.config h.state h.thread thread) :
      Step h a (h.setThread thread)

theorem stepBody_sound {h h' : VmHandle} {now : Instant} {call : HostCall}
    {body : Body} (hthread : h.thread = .running call body)
    (hstep : h.stepBody now call body = some h') :
    Step h (.host now) h' := by
  have hmove : ∀ {thread : Thread},
      Moves h.config h.state (.running call body) thread →
        Step h (.host now) (h.setThread thread) :=
    fun hmoves => .move _ _ rfl (hthread ▸ hmoves)
  cases body with
  | readState rest =>
      obtain rfl := Option.some.inj hstep
      exact hmove (.readState call rest)
  | readClock rest =>
      obtain rfl := Option.some.inj hstep
      exact hmove (.readClock call rest now)
  | dispatchVzOp op rest =>
      obtain rfl := Option.some.inj hstep
      exact hmove (.dispatch call op rest)
  | dispatchVzUrlOp op path rest =>
      rw [stepBody] at hstep
      split at hstep
      · obtain rfl := Option.some.inj hstep
        exact hmove (.badPath call op path rest _)
      · obtain rfl := Option.some.inj hstep
        exact hmove (.dispatchUrl call op path rest)
  | send v rest =>
      obtain rfl := Option.some.inj hstep
      exact .publish now call v rest hthread
  | emit kind rest =>
      obtain rfl := Option.some.inj hstep
      exact .emit now call kind rest hthread
  | syncFile path rest => cases hstep
  | pollLease mac timeout deadline => cases hstep
  | finish outcome =>
      obtain rfl := Option.some.inj hstep
      exact .finish now call outcome hthread

theorem stepHost_sound {h h' : VmHandle} {now : Instant}
    (hstep : h.stepHost now = some h') : Step h (.host now) h' := by
  rw [stepHost] at hstep
  split at hstep
  · cases hstep
  next call body hthread => exact stepBody_sound hthread hstep
  · cases hstep
  next call op answer rest hthread =>
    split at hstep
    next hok =>
      obtain rfl := Option.some.inj hstep
      have hsuccess : answer = .success := by
        cases answer <;> first | rfl | cases hok
      subst hsuccess
      exact .move _ _ rfl (hthread ▸ .receive call op rest)
    next e herror =>
      obtain rfl := Option.some.inj hstep
      exact .move _ _ rfl (hthread ▸ .receiveError call op answer rest e herror)

theorem stepPoll_sound {h h' : VmHandle} {found : Option Text} {now : Instant}
    (hstep : h.stepPoll found now = some h') :
    Step h (.poll found now) h' := by
  rw [stepPoll] at hstep
  split at hstep
  next call mac timeout deadline hthread =>
    split at hstep
    next ip =>
      obtain rfl := Option.some.inj hstep
      exact .move _ _ rfl
        (hthread ▸ .leaseFound call mac timeout deadline ip)
    · split at hstep
      · obtain rfl := Option.some.inj hstep
        exact .move _ _ rfl
          (hthread ▸ .deadlinePassed call mac timeout deadline _)
      · obtain rfl := Option.some.inj hstep
        exact .pollAgain _ _
  · cases hstep

/-- The step function does nothing that `Step` does not list. -/
theorem step_sound {h h' : VmHandle} {a : Action}
    (hstep : h.step a = some h') : Step h a h' := by
  cases a with
  | invoke call =>
      rw [step] at hstep
      split at hstep
      next hthread =>
        obtain rfl := Option.some.inj hstep
        exact .move _ _ rfl (hthread ▸ .invoke call)
      · cases hstep
  | host now => exact stepHost_sound hstep
  | sync outcome =>
      rw [step] at hstep
      split at hstep
      next call path rest hthread =>
        obtain rfl := Option.some.inj hstep
        exact .move _ _ rfl (hthread ▸ .sync call path rest)
      · cases hstep
  | poll found now => exact stepPoll_sound hstep
  | complete answer =>
      rw [step] at hstep
      split at hstep
      next call op rest hthread =>
        obtain rfl := Option.some.inj hstep
        exact .complete call op rest answer hthread
      · cases hstep
  | guestDidStop =>
      obtain rfl := Option.some.inj hstep
      exact .callback _ _ rfl
  | didStopWithError error =>
      obtain rfl := Option.some.inj hstep
      exact .callback _ _ rfl

end VmHandle
end Kasou
