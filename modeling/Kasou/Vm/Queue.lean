import Kasou.Vm.Dispatch
import Kasou.Vm.Progress

/-!
# The handle on its queue

In the handle's model an operation that was dispatched is answered in one
step.  Here the handle has its calls on the queue: the block of a call is run
or dropped, the framework invokes the completion handler any number of times
and releases it, also long after the call has returned, and the host thread
waits on the channel of its own call.  Seen from outside the two systems are
the same.
-/

namespace Kasou

open TransitionSystem

/-- A handle with the calls that it has dispatched. -/
structure QueuedHandle where
  handle : VmHandle
  calls : List DispatchCall

/-- The steps of a handle on its queue. -/
inductive QueuedHandle.Action where
  /-- A step of the handle's owner, of the host thread or of the delegate. -/
  | handle (a : Kasou.Action)
  /-- Something happens to a call on the queue. -/
  | queue (i : Nat) (a : DispatchAction)

namespace DispatchCall

/-- The state of the machine after something happened to a call: an operation
has completed when its handler is invoked first. -/
def settle (c : DispatchCall) (a : DispatchAction) (vm : VmState) : VmState :=
  match c, a with
  | .dispatched op channel, .invoke error =>
      if channel.handler = .alive true then
        (Answer.ofError error).settle op vm
      else vm
  | _, _ => vm

/-- The call has returned, and its sender is gone. -/
def isOver : DispatchCall → Bool
  | .dispatched _ channel =>
      channel.received.isSome && !channel.handler.hasSender
  | .rejected _ => true

end DispatchCall

namespace QueuedHandle

/-- A new handle. -/
def create (config : VmConfig) : QueuedHandle := ⟨.create config, []⟩

/-- The host thread puts an operation on the queue and waits for it; an
operation whose path is refused ends the call. -/
def dispatch (q : QueuedHandle) (call : HostCall) (op : VzOp) (rest : Body)
    (request : DispatchRequest) : QueuedHandle where
  handle :=
    match DispatchCall.make request with
    | .dispatched _ _ => q.handle.setThread (.waiting call op rest)
    | .rejected e =>
        q.handle.setThread (.running call (.finish (.returned (.error e))))
  calls := q.calls ++ [.make request]

/-- The host thread returns from `rx.recv()`. -/
def receive (q : QueuedHandle) (call : HostCall) (rest : Body) :
    Option QueuedHandle :=
  q.calls.getLast?.bind fun c => (c.step .receive).bind fun c' =>
    c'.result.map fun r =>
      { handle := q.handle.setThread (.running call (rest.afterResult r))
        calls := q.calls.dropLast ++ [c'] }

/-- The host thread's next step. -/
def stepHost (q : QueuedHandle) (now : Instant) : Option QueuedHandle :=
  match q.handle.thread with
  | .running call (.dispatchVzOp op rest) =>
      some (q.dispatch call op rest (.vzOp op))
  | .running call (.dispatchVzUrlOp op path rest) =>
      some (q.dispatch call op rest (.vzUrlOp op path))
  | .waiting call _ rest => q.receive call rest
  | _ => (q.handle.stepHost now).map fun h => { q with handle := h }

/-- Something happens on the queue or in the framework. -/
def stepQueue (q : QueuedHandle) (i : Nat) (a : DispatchAction) :
    Option QueuedHandle :=
  q.calls[i]?.bind fun c => (c.step a).map fun c' =>
    { handle := { q.handle with vm := c.settle a q.handle.vm }
      calls := q.calls.set i c' }

/-- The step function of a handle on its queue.  An answer takes several
steps, and only the host thread receives. -/
def step (q : QueuedHandle) : Action → Option QueuedHandle
  | .handle (.complete _) => none
  | .handle (.host now) => q.stepHost now
  | .handle a => (q.handle.step a).map fun h => { q with handle := h }
  | .queue _ .receive => none
  | .queue i a => q.stepQueue i a

/-- How a handle on its queue stands to one that is answered in one step. -/
inductive Refines (q : QueuedHandle) (h : VmHandle) : Prop where
  /-- The host thread does not wait. -/
  | awake (hawake : ∀ call op rest, q.handle.thread ≠ .waiting call op rest)
      (hover : ∀ c ∈ q.calls, c.isOver = true) (hsame : h = q.handle)
  /-- The host thread waits, and its sender is still there. -/
  | waiting {call : HostCall} {op : VzOp} {rest : Body}
      {before : List DispatchCall} {handler : OneShot.Handler}
      (hthread : q.handle.thread = .waiting call op rest)
      (hcalls : q.calls = before ++ [.dispatched op ⟨handler, none, none⟩])
      (hsender : handler.hasSender = true)
      (hover : ∀ c ∈ before, c.isOver = true) (hsame : h = q.handle)
  /-- The host thread waits, but its answer has come. -/
  | answered {call : HostCall} {op : VzOp} {rest : Body}
      {before : List DispatchCall} {handler : OneShot.Handler}
      {message : Option (Except KasouError Unit)} {answer : Answer}
      (hthread : q.handle.thread = .waiting call op rest)
      (hcalls : q.calls = before ++
        [.dispatched op ⟨handler, message, none⟩])
      (hsender : handler.hasSender = false)
      (hanswer : message.getD (.error .queueCancelled) = answer.result op)
      (hover : ∀ c ∈ before, c.isOver = true)
      (hsame : h = q.handle.setThread (.answered call op answer rest))

end QueuedHandle

/-! ## Calls that are over -/

namespace DispatchCall

variable {c c' : DispatchCall} {a : DispatchAction}

/-- Nothing that happens to a call that is over matters. -/
theorem isOver_of_step (hover : c.isOver = true) (hstep : c.step a = some c') :
    c'.isOver = true ∧ ∀ vm, c.settle a vm = vm := by
  cases c with
  | rejected e => cases hstep
  | dispatched op channel =>
      obtain ⟨channel', hchannel, rfl⟩ := Option.map_eq_some_iff.mp hstep
      rw [isOver, Bool.and_eq_true, Bool.not_eq_true'] at hover
      obtain ⟨hreceived, hsender⟩ := hover
      have hnotArmed : channel.handler ≠ .alive true := by
        intro harmed
        rw [harmed] at hsender
        cases hsender
      have hnotQueued : channel.handler ≠ .queued := by
        intro hqueued
        rw [hqueued] at hsender
        cases hsender
      cases a with
      | run => exact absurd (OneShot.step_run_iff.mp hchannel).1 hnotQueued
      | cancel =>
          exact absurd (OneShot.step_cancel_iff.mp hchannel).1 hnotQueued
      | invoke error =>
          rcases OneShot.step_invoke_iff.mp hchannel with
            ⟨harmed, -⟩ | ⟨-, rfl⟩
          · exact absurd harmed hnotArmed
          · exact ⟨by rw [isOver, hreceived, hsender]; rfl,
              fun vm => if_neg hnotArmed⟩
      | release =>
          obtain ⟨-, rfl⟩ := OneShot.step_release_iff.mp hchannel
          exact ⟨by rw [isOver, hreceived]; rfl, fun vm => rfl⟩
      | receive =>
          have hnone := (OneShot.step_receive_iff.mp hchannel).1
          rw [hnone] at hreceived
          cases hreceived

end DispatchCall

/-! ## Steps that the queue has no part in -/

/-- The host thread is about to put an operation on the queue. -/
def Thread.dispatches : Thread → Bool
  | .running _ (.dispatchVzOp _ _) => true
  | .running _ (.dispatchVzUrlOp _ _ _) => true
  | _ => false

theorem Thread.eq_of_dispatches {t : Thread} (h : t.dispatches = true) :
    ∃ call op rest, t = .running call (.dispatchVzOp op rest) ∨
      ∃ path, t = .running call (.dispatchVzUrlOp op path rest) := by
  unfold dispatches at h
  split at h
  · exact ⟨_, _, _, Or.inl rfl⟩
  · exact ⟨_, _, _, Or.inr ⟨_, rfl⟩⟩
  · cases h

namespace QueuedHandle

variable {q q' : QueuedHandle} {h h' : VmHandle} {a : Kasou.Action}

/-- Only a dispatch makes the host thread wait. -/
theorem not_waiting_of_step
    (hawake : ∀ call op rest, h.thread ≠ .waiting call op rest)
    (hhost : ∀ now, a = .host now → h.thread.dispatches = false)
    (hstep : h.step a = some h') :
    ∀ call op rest, h'.thread ≠ .waiting call op rest := by
  intro call op rest hwaits
  cases VmHandle.step_sound hstep with
  | callback a v hcallback => exact hawake call op rest hwaits
  | complete call op rest answer hthread => cases hwaits
  | publish now call v rest hthread => cases hwaits
  | emit now call kind rest hthread => cases hwaits
  | finish now call outcome hthread => cases hwaits
  | pollAgain found now => exact hawake call op rest hwaits
  | move a thread hoffQueue hmoves =>
      obtain rfl : thread = .waiting call op rest := hwaits
      have hdispatches : h.thread.dispatches = true := by
        generalize h.thread = before at hmoves
        cases hmoves with
        | dispatch => rfl
        | dispatchUrl => rfl
      obtain ⟨call', op', rest', hthread | ⟨path, hthread⟩⟩ :=
        Thread.eq_of_dispatches hdispatches
      all_goals
        cases a with
        | host now =>
            rw [hhost now rfl] at hdispatches
            cases hdispatches
        | invoke call =>
            rw [VmHandle.step, hthread] at hstep
            cases hstep
        | sync outcome =>
            rw [VmHandle.step, hthread] at hstep
            cases hstep
        | poll found now =>
            rw [VmHandle.step, VmHandle.stepPoll, hthread] at hstep
            cases hstep
        | _ => cases hoffQueue

/-- While the host thread does not wait, only its dispatches differ. -/
theorem step_handle_eq
    (hawake : ∀ call op rest, q.handle.thread ≠ .waiting call op rest)
    (hhost : ∀ now, a = .host now → q.handle.thread.dispatches = false) :
    q.step (.handle a) =
      (q.handle.step a).map fun h => { q with handle := h } := by
  cases a with
  | invoke call => rfl
  | sync outcome => rfl
  | poll found now => rfl
  | guestDidStop => rfl
  | didStopWithError error => rfl
  | host now =>
      have hnot := hhost now rfl
      rw [step, stepHost]
      split
      next call op rest hthread =>
        rw [hthread] at hnot
        cases hnot
      next call op path rest hthread =>
        rw [hthread] at hnot
        cases hnot
      next call op rest hthread => exact absurd hthread (hawake _ _ _)
      · rfl
  | complete answer =>
      have hnone : q.handle.step (.complete answer) = none := by
        rw [VmHandle.step]
        split
        next call op rest hthread => exact absurd hthread (hawake _ _ _)
        · rfl
      rw [hnone]
      rfl

/-- An operation is put on the queue, or refused, where the handle's own step
waits for it or is refused. -/
theorem refines_dispatch {now : Instant}
    (hover : ∀ c ∈ q.calls, c.isOver = true)
    (hdispatches : q.handle.thread.dispatches = true) :
    Option.Rel Refines (q.step (.handle (.host now)))
      (q.handle.step (.host now)) := by
  have hwaiting : ∀ {call op rest request}
      (_ : DispatchCall.make request = .dispatched op .new),
      (q.dispatch call op rest request).Refines
        (q.handle.setThread (.waiting call op rest)) := by
    intro call op rest request hmake
    refine @Refines.waiting _ _ call op rest q.calls .queued ?_ ?_ rfl hover ?_
    · rw [dispatch, hmake]
      rfl
    · rw [dispatch, hmake]
      rfl
    · rw [dispatch, hmake]
  obtain ⟨call, op, rest, hthread | ⟨path, hthread⟩⟩ :=
    Thread.eq_of_dispatches hdispatches
  · rw [step, stepHost, VmHandle.step, VmHandle.stepHost, hthread]
    exact .some (hwaiting rfl)
  · rw [step, stepHost, VmHandle.step, VmHandle.stepHost, hthread]
    dsimp only [VmHandle.stepBody]
    cases hpath : path.toStr with
    | some text =>
        exact .some (hwaiting (by simp [DispatchCall.make, hpath]))
    | none =>
        refine .some (.awake ?_ ?_ ?_)
        · intro call' op' rest' hwaits
          simp [dispatch, DispatchCall.make, hpath, VmHandle.setThread]
            at hwaits
        · intro c hc
          rcases List.mem_append.mp hc with hold | hnew
          · exact hover c hold
          · rw [List.mem_singleton.mp hnew]
            simp [DispatchCall.make, hpath, DispatchCall.isOver]
        · simp [dispatch, DispatchCall.make, hpath]

/-- While the host thread does not wait, the two go step by step. -/
theorem refines_awake
    (hawake : ∀ call op rest, q.handle.thread ≠ .waiting call op rest)
    (hover : ∀ c ∈ q.calls, c.isOver = true) :
    Option.Rel Refines (q.step (.handle a)) (q.handle.step a) := by
  by_cases hhost : ∀ now, a = .host now → q.handle.thread.dispatches = false
  · rw [step_handle_eq hawake hhost]
    cases hstep : q.handle.step a with
    | none => exact .none
    | some h' =>
        have hawake' := not_waiting_of_step hawake hhost hstep
        exact .some (.awake hawake' hover rfl)
  · push Not at hhost
    obtain ⟨now, rfl, hdispatches⟩ := hhost
    exact refines_dispatch hover (Bool.not_eq_false _ ▸ hdispatches)

/-- What changes a handle without regard to its thread changes both. -/
theorem Refines.map (hrefines : q.Refines h) {f : VmHandle → VmHandle}
    (hthread : ∀ g, (f g).thread = g.thread)
    (hset : ∀ g t, f (g.setThread t) = (f g).setThread t) :
    Refines { q with handle := f q.handle } (f h) := by
  cases hrefines with
  | awake hawake hover hsame =>
      refine .awake ?_ hover (congrArg f hsame)
      intro call op rest hwaits
      exact hawake call op rest ((hthread _).symm.trans hwaits)
  | waiting hwaits hcalls hsender hover hsame =>
      exact .waiting ((hthread _).trans hwaits) hcalls hsender hover
        (congrArg f hsame)
  | answered hwaits hcalls hsender hanswer hover hsame =>
      exact .answered ((hthread _).trans hwaits) hcalls hsender hanswer hover
        ((congrArg f hsame).trans (hset _ _))

/-- The host thread receives exactly the answer that has come. -/
theorem refines_receive {call : HostCall} {op : VzOp} {rest : Body}
    {before : List DispatchCall} {handler : OneShot.Handler}
    {message : Option (Except KasouError Unit)} {answer : Answer}
    (hcalls : q.calls = before ++ [.dispatched op ⟨handler, message, none⟩])
    (hsender : handler.hasSender = false)
    (hanswer : message.getD (.error .queueCancelled) = answer.result op)
    (hover : ∀ c ∈ before, c.isOver = true) :
    ∃ q', q.receive call rest = some q' ∧ q'.Refines
      (q.handle.setThread
        (.running call (rest.afterResult (answer.result op)))) := by
  have hstep : DispatchCall.step (.dispatched op ⟨handler, message, none⟩)
      .receive = some (.dispatched op ⟨handler, none, some message⟩) := by
    have hchannel : OneShot.step ⟨handler, message, none⟩ .receive =
        some ⟨handler, none, some message⟩ := by
      rw [OneShot.step_receive_iff]
      refine ⟨rfl, ?_⟩
      cases message with
      | some r => exact Or.inl ⟨r, rfl, rfl⟩
      | none => exact Or.inr ⟨rfl, hsender, rfl⟩
    exact congrArg (Option.map _) hchannel
  refine ⟨{ handle := q.handle.setThread
              (.running call (rest.afterResult (answer.result op)))
            calls := before ++
              [.dispatched op ⟨handler, none, some message⟩] }, ?_, ?_⟩
  · rw [receive, hcalls, List.getLast?_concat, Option.bind_some, hstep,
      List.dropLast_concat, ← hanswer]
    rfl
  · refine .awake ?_ ?_ rfl
    · intro call' op' rest' hwaits
      cases hwaits
    · intro c hc
      rcases List.mem_append.mp hc with hold | hnew
      · exact hover c hold
      · rw [List.mem_singleton.mp hnew, DispatchCall.isOver, hsender]
        rfl

/-- The host thread is in `rx.recv()`. -/
def InRecv (h : VmHandle) : Prop :=
  ∃ call op rest, h.thread = .waiting call op rest ∨
    ∃ answer, h.thread = .answered call op answer rest

/-- A step that neither is possible while the host thread is in `rx.recv()`
nor has to do with the queue is the same in both. -/
theorem refines_of_inert (hrefines : q.Refines h)
    (hinert : ∀ g, InRecv g → g.step a = none)
    (hlocal : q.step (.handle a) =
      (q.handle.step a).map fun h => { q with handle := h }) :
    Option.Rel Refines (q.step (.handle a)) (h.step a) := by
  cases hrefines with
  | awake hawake hover hsame =>
      rw [hsame]
      exact refines_awake hawake hover
  | waiting hthread hcalls hsender hover hsame =>
      have hnone := hinert q.handle ⟨_, _, _, Or.inl hthread⟩
      rw [hsame, hlocal, hnone]
      exact .none
  | answered hthread hcalls hsender hanswer hover hsame =>
      have hnone := hinert q.handle ⟨_, _, _, Or.inl hthread⟩
      rw [hlocal, hnone, hsame, hinert _ ⟨_, _, _, Or.inr ⟨_, rfl⟩⟩]
      exact .none

theorem refines_host (hrefines : q.Refines h) (now : Instant) :
    Option.Rel Refines (q.step (.handle (.host now)))
      (h.step (.host now)) := by
  cases hrefines with
  | awake hawake hover hsame =>
      rw [hsame]
      exact refines_awake hawake hover
  | @waiting call op rest before handler hthread hcalls hsender hover hsame =>
      have hblocked : DispatchCall.step
          (.dispatched op ⟨handler, none, none⟩) .receive = none := by
        have hchannel : OneShot.step (⟨handler, none, none⟩ :
            OneShot (Except KasouError Unit)) .receive = none := by
          rw [OneShot.step, if_pos hsender]
        exact congrArg (Option.map _) hchannel
      have hnone : q.receive call rest = none := by
        rw [receive, hcalls, List.getLast?_concat, Option.bind_some, hblocked]
        rfl
      rw [hsame, step, stepHost, VmHandle.step, VmHandle.stepHost, hthread]
      dsimp only
      rw [hnone]
      exact .none
  | @answered call op rest before handler message answer hthread hcalls hsender
      hanswer hover hsame =>
      obtain ⟨q', hreceive, hrefines⟩ :=
        @refines_receive q call op rest _ _ _ _ hcalls hsender hanswer hover
      have hhost : h.step (.host now) = some (q.handle.setThread
          (.running call (rest.afterResult (answer.result op)))) := by
        rw [hsame]
        cases hresult : answer.result op with
        | ok value =>
            simp [VmHandle.step, VmHandle.stepHost, VmHandle.setThread,
              hresult, Body.afterResult]
        | error e =>
            simp [VmHandle.step, VmHandle.stepHost, VmHandle.setThread,
              hresult, Body.afterResult]
      rw [hhost, step, stepHost, hthread]
      dsimp only
      rw [hreceive]
      exact .some hrefines

/-- But for the answers, every step of the one is a step of the other. -/
theorem refines_step_handle (hrefines : q.Refines h)
    (hcomplete : ∀ answer, a ≠ .complete answer) :
    Option.Rel Refines (q.step (.handle a)) (h.step a) := by
  cases a with
  | complete answer => exact absurd rfl (hcomplete answer)
  | host now => exact refines_host hrefines now
  | guestDidStop =>
      exact .some (hrefines.map (f := VmHandle.guestDidStop) (fun _ => rfl)
        fun _ _ => rfl)
  | didStopWithError error =>
      exact .some (hrefines.map (f := fun g => g.didStopWithError error)
        (fun _ => rfl) fun _ _ => rfl)
  | invoke call =>
      refine refines_of_inert hrefines ?_ rfl
      rintro g ⟨_, _, _, hthread | ⟨_, hthread⟩⟩
      all_goals rw [VmHandle.step, hthread]
  | sync outcome =>
      refine refines_of_inert hrefines ?_ rfl
      rintro g ⟨_, _, _, hthread | ⟨_, hthread⟩⟩
      all_goals rw [VmHandle.step, hthread]
  | poll found now =>
      refine refines_of_inert hrefines ?_ rfl
      rintro g ⟨_, _, _, hthread | ⟨_, hthread⟩⟩
      all_goals rw [VmHandle.step, VmHandle.stepPoll, hthread]

/-! ## Steps of the queue -/

section Queue

variable {call : HostCall} {op : VzOp} {rest : Body}
  {before : List DispatchCall} {handler : OneShot.Handler}
  {c c' : DispatchCall} {b : DispatchAction} {i : Nat}

/-- What a step of the queue can do. -/
theorem step_queue_iff : q.step (.queue i b) = some q' ↔
    b ≠ .receive ∧ ∃ c c', q.calls[i]? = some c ∧ c.step b = some c' ∧
      q' = { handle := { q.handle with vm := c.settle b q.handle.vm }
             calls := q.calls.set i c' } := by
  have hqueue : q.stepQueue i b = some q' ↔
      ∃ c c', q.calls[i]? = some c ∧ c.step b = some c' ∧
        q' = { handle := { q.handle with vm := c.settle b q.handle.vm }
               calls := q.calls.set i c' } := by
    simp only [stepQueue, Option.bind_eq_some_iff, Option.map_eq_some_iff]
    constructor
    · rintro ⟨c, hc, c', hc', rfl⟩
      exact ⟨c, c', hc, hc', rfl⟩
    · rintro ⟨c, c', hc, hc', rfl⟩
      exact ⟨c, hc, c', hc', rfl⟩
  cases b with
  | receive => exact iff_of_false (by intro h; cases h) fun h => h.1 rfl
  | _ => exact hqueue.trans (and_iff_right (by intro h; cases h)).symm

/-- A step of the last call. -/
theorem step_queue_last (hcalls : q.calls = before ++ [c])
    (hstep : c.step b = some c') (hb : b ≠ .receive) :
    q.step (.queue before.length b) =
      some { handle := { q.handle with vm := c.settle b q.handle.vm }
             calls := before ++ [c'] } := by
  refine step_queue_iff.mpr ⟨hb, c, c', ?_, hstep, ?_⟩
  · rw [hcalls, List.getElem?_concat_length]
  · rw [hcalls, List.set_append_right _ _ (Nat.le_refl _), Nat.sub_self]
    rfl

/-- A step of the last call is one of its channel. -/
theorem channel_of_step_last {channel : OneShot (Except KasouError Unit)}
    (hcalls : q.calls = before ++ [.dispatched op channel])
    (hstep : q.step (.queue before.length b) = some q') :
    b ≠ .receive ∧ ∃ channel',
      channel.step (b.onChannel op) = some channel' ∧
      q' = { handle :=
               { q.handle with
                 vm := DispatchCall.settle (.dispatched op channel) b
                   q.handle.vm }
             calls := before ++ [.dispatched op channel'] } := by
  obtain ⟨hb, c, c', hget, hone, -⟩ := step_queue_iff.mp hstep
  rw [hcalls, List.getElem?_concat_length] at hget
  obtain rfl := Option.some.inj hget
  obtain ⟨channel', hchannel, rfl⟩ := Option.map_eq_some_iff.mp hone
  rw [step_queue_last hcalls hone hb] at hstep
  exact ⟨hb, channel', hchannel, (Option.some.inj hstep).symm⟩

/-- Only the last call is not over. -/
theorem eq_last_of_not_over {x : DispatchCall}
    (hcalls : q.calls = before ++ [x]) (hget : q.calls[i]? = some c)
    (hover : ∀ c ∈ before, c.isOver = true) (hnot : c.isOver ≠ true) :
    i = before.length ∧ c = x := by
  rw [hcalls] at hget
  by_cases hi : i < before.length
  · rw [List.getElem?_append_left hi] at hget
    exact absurd (hover c (List.mem_of_getElem? hget)) hnot
  · have hlength := (List.getElem?_eq_some_iff.mp hget).1
    rw [List.length_append, List.length_singleton] at hlength
    obtain rfl : i = before.length := by omega
    rw [List.getElem?_concat_length] at hget
    exact ⟨rfl, (Option.some.inj hget).symm⟩

/-- A call that is over may stand otherwise and still be over. -/
theorem Refines.set (hrefines : q.Refines h) (hget : q.calls[i]? = some c)
    (hover : c.isOver = true) (hover' : c'.isOver = true) :
    Refines { q with calls := q.calls.set i c' } h := by
  have hset : ∀ {cs : List DispatchCall}, (∀ c ∈ cs, c.isOver = true) →
      ∀ c ∈ cs.set i c', c.isOver = true := by
    intro cs hcs c hc
    rcases List.mem_or_eq_of_mem_set hc with hold | rfl
    · exact hcs c hold
    · exact hover'
  have hbefore : ∀ {before : List DispatchCall} {x : DispatchCall},
      q.calls = before ++ [x] → x.isOver = false →
        q.calls.set i c' = before.set i c' ++ [x] := by
    intro before x hcalls hx
    have hi : i < before.length := by
      by_contra hi
      rw [hcalls, List.getElem?_append_right (by omega)] at hget
      have hc := List.mem_singleton.mp (List.mem_of_getElem? hget)
      rw [hc, hx] at hover
      cases hover
    rw [hcalls, List.set_append_left _ _ hi]
  cases hrefines with
  | awake hawake hall hsame => exact .awake hawake (hset hall) hsame
  | waiting hthread hcalls hsender hall hsame =>
      exact .waiting hthread (hbefore hcalls rfl) hsender (hset hall) hsame
  | answered hthread hcalls hsender hanswer hall hsame =>
      exact .answered hthread (hbefore hcalls rfl) hsender hanswer (hset hall)
        hsame

/-- The operation that the host thread waits for is answered. -/
theorem refines_complete {answer : Answer}
    {message : Option (Except KasouError Unit)}
    (hthread : q.handle.thread = .waiting call op rest)
    (hsender : handler.hasSender = false)
    (hanswer : message.getD (.error .queueCancelled) = answer.result op)
    (hover : ∀ c ∈ before, c.isOver = true) :
    ∃ h', q.handle.step (.complete answer) = some h' ∧
      Refines
        { handle := { q.handle with vm := answer.settle op q.handle.vm }
          calls := before ++ [.dispatched op ⟨handler, message, none⟩] }
        h' := by
  refine ⟨{ q.handle with
            vm := answer.settle op q.handle.vm
            thread := .answered call op answer rest }, ?_, ?_⟩
  · rw [VmHandle.step, hthread]
  · exact .answered hthread rfl hsender hanswer hover rfl

/-- What happens to the call that the host thread waits for leaves it waiting
or is its answer. -/
theorem refines_waiting
    (hthread : q.handle.thread = .waiting call op rest)
    (hcalls : q.calls = before ++ [.dispatched op ⟨handler, none, none⟩])
    (hsender : handler.hasSender = true)
    (hover : ∀ c ∈ before, c.isOver = true)
    (hstep : q.step (.queue before.length b) = some q') :
    q'.Refines q.handle ∨ ∃ answer h',
      q.handle.step (.complete answer) = some h' ∧ q'.Refines h' := by
  obtain ⟨hb, channel', hchannel, rfl⟩ := channel_of_step_last hcalls hstep
  cases b with
  | receive => exact absurd rfl hb
  | run =>
      obtain ⟨-, rfl⟩ := OneShot.step_run_iff.mp hchannel
      exact Or.inl (.waiting hthread rfl rfl hover rfl)
  | cancel =>
      obtain ⟨-, rfl⟩ := OneShot.step_cancel_iff.mp hchannel
      exact Or.inr ⟨.released, refines_complete hthread rfl rfl hover⟩
  | release =>
      obtain ⟨-, rfl⟩ := OneShot.step_release_iff.mp hchannel
      exact Or.inr ⟨.released, refines_complete hthread rfl rfl hover⟩
  | invoke error =>
      rcases OneShot.step_invoke_iff.mp hchannel with
        ⟨harmed, rfl⟩ | ⟨hspent, -⟩
      · have hsettle : DispatchCall.settle
            (.dispatched op ⟨handler, none, none⟩) (.invoke error)
            q.handle.vm = (Answer.ofError error).settle op q.handle.vm :=
          if_pos harmed
        rw [hsettle]
        exact Or.inr ⟨.ofError error, refines_complete hthread rfl rfl hover⟩
      · obtain rfl : handler = .alive false := hspent
        cases hsender

/-- Nothing that happens to a call that was answered changes the answer. -/
theorem refines_answered {answer : Answer}
    {message : Option (Except KasouError Unit)}
    (hthread : q.handle.thread = .waiting call op rest)
    (hcalls : q.calls = before ++ [.dispatched op ⟨handler, message, none⟩])
    (hsender : handler.hasSender = false)
    (hanswer : message.getD (.error .queueCancelled) = answer.result op)
    (hover : ∀ c ∈ before, c.isOver = true)
    (hstep : q.step (.queue before.length b) = some q') :
    q'.Refines (q.handle.setThread (.answered call op answer rest)) := by
  obtain ⟨hb, channel', hchannel, rfl⟩ := channel_of_step_last hcalls hstep
  cases b with
  | receive => exact absurd rfl hb
  | run =>
      obtain ⟨hqueued, -⟩ := OneShot.step_run_iff.mp hchannel
      obtain rfl : handler = .queued := hqueued
      cases hsender
  | cancel =>
      obtain ⟨hqueued, -⟩ := OneShot.step_cancel_iff.mp hchannel
      obtain rfl : handler = .queued := hqueued
      cases hsender
  | release =>
      obtain ⟨-, rfl⟩ := OneShot.step_release_iff.mp hchannel
      exact .answered hthread rfl rfl hanswer hover rfl
  | invoke error =>
      have hnotArmed : handler ≠ .alive true := by
        rintro rfl
        cases hsender
      have hsettle : DispatchCall.settle
          (.dispatched op ⟨handler, message, none⟩) (.invoke error)
          q.handle.vm = q.handle.vm := if_neg hnotArmed
      rcases OneShot.step_invoke_iff.mp hchannel with ⟨harmed, -⟩ | ⟨-, rfl⟩
      · exact absurd harmed hnotArmed
      · rw [hsettle]
        exact .answered hthread rfl hsender hanswer hover rfl

/-- A step of the queue leaves everything as it is or is an answer. -/
theorem refines_step_queue (hrefines : q.Refines h)
    (hstep : q.step (.queue i b) = some q') :
    q'.Refines h ∨
      ∃ answer h', h.step (.complete answer) = some h' ∧ q'.Refines h' := by
  obtain ⟨hb, c, c', hget, hone, hq'⟩ := step_queue_iff.mp hstep
  by_cases hover : c.isOver = true
  · obtain ⟨hover', hsettle⟩ := DispatchCall.isOver_of_step hover hone
    rw [hq', hsettle]
    exact Or.inl (hrefines.set hget hover hover')
  · cases hrefines with
    | awake hawake hall hsame =>
        exact absurd (hall c (List.mem_of_getElem? hget)) hover
    | waiting hthread hcalls hsender hall hsame =>
        obtain ⟨rfl, -⟩ := eq_last_of_not_over hcalls hget hall hover
        rw [hsame]
        exact refines_waiting hthread hcalls hsender hall hstep
    | answered hthread hcalls hsender hanswer hall hsame =>
        obtain ⟨rfl, -⟩ := eq_last_of_not_over hcalls hget hall hover
        rw [hsame]
        exact Or.inl
          (refines_answered hthread hcalls hsender hanswer hall hstep)

/-- Every answer can come, in one or two steps of the queue. -/
theorem exists_run_answer (answer : Answer)
    (hcalls : q.calls = before ++ [.dispatched op ⟨handler, none, none⟩])
    (hsender : handler.hasSender = true) :
    ∃ as handler' message, handler'.hasSender = false ∧
      message.getD (.error .queueCancelled) = answer.result op ∧
      run step q as = some
        { handle := { q.handle with vm := answer.settle op q.handle.vm }
          calls := before ++ [.dispatched op ⟨handler', message, none⟩] } := by
  have harm : ∃ as, run step q as = some
      { q with calls := before ++
          [.dispatched op ⟨.alive true, none, none⟩] } := by
    cases handler with
    | gone => cases hsender
    | alive armed =>
        obtain rfl : armed = true := hsender
        exact ⟨[], by rw [run_nil, ← hcalls]⟩
    | queued =>
        have hrun := step_queue_last (b := .run) hcalls rfl
          (by intro h; cases h)
        exact ⟨[.queue before.length .run],
          run_cons_eq_some_iff.mpr ⟨_, hrun, rfl⟩⟩
  obtain ⟨as, harmed⟩ := harm
  have hfinish : ∀ (b : DispatchAction) c', b ≠ .receive →
      DispatchCall.step (.dispatched op ⟨.alive true, none, none⟩) b =
        some c' →
      run step q (as ++ [.queue before.length b]) = some
        { handle :=
            { q.handle with
              vm := DispatchCall.settle
                (.dispatched op ⟨.alive true, none, none⟩) b q.handle.vm }
          calls := before ++ [c'] } := by
    intro b c' hb hone
    refine run_concat_eq_some_iff.mpr ⟨_, harmed, ?_⟩
    exact step_queue_last rfl hone hb
  have hinvoke : ∀ error : Option NSError, (.invoke error : DispatchAction) ≠
      .receive := by
    intro error h
    cases h
  cases answer with
  | success =>
      exact ⟨_, _, _, rfl, rfl, hfinish (.invoke none) _ (hinvoke _) rfl⟩
  | failure error =>
      exact ⟨_, _, _, rfl, rfl,
        hfinish (.invoke (some error)) _ (hinvoke _) rfl⟩
  | released =>
      exact ⟨_, _, none, rfl, rfl,
        hfinish .release _ (by intro h; cases h) rfl⟩

end Queue

/-! ## The two systems -/

/-- The handle's model follows the handle on its queue. -/
theorem simulates : Simulation step VmHandle.step Refines := by
  intro q a q' h hrefines hstep
  cases a with
  | queue i b =>
      rcases refines_step_queue hrefines hstep with hsame |
        ⟨answer, h', hcomplete, hrefines'⟩
      · exact ⟨[], h, rfl, hsame⟩
      · exact ⟨[.complete answer], h',
          run_cons_eq_some_iff.mpr ⟨h', hcomplete, rfl⟩, hrefines'⟩
  | handle a =>
      have hcomplete : ∀ answer, a ≠ .complete answer := by
        rintro answer rfl
        cases hstep
      obtain ⟨h', hown, hrefines'⟩ :=
        exists_of_rel_left (refines_step_handle hrefines hcomplete) hstep
      exact ⟨[a], h', run_cons_eq_some_iff.mpr ⟨h', hown, rfl⟩, hrefines'⟩

/-- The handle on its queue follows the handle's model. -/
theorem simulated :
    Simulation VmHandle.step step fun h q => q.Refines h := by
  intro h a h' q hrefines hstep
  by_cases hcomplete : ∃ answer, a = .complete answer
  · obtain ⟨answer, rfl⟩ := hcomplete
    have hthread : ∃ call op rest, h.thread = .waiting call op rest := by
      rw [VmHandle.step] at hstep
      split at hstep
      next call op rest hthread => exact ⟨call, op, rest, hthread⟩
      · cases hstep
    obtain ⟨call, op, rest, hthread⟩ := hthread
    cases hrefines with
    | awake hawake hover hsame =>
        rw [hsame] at hthread
        exact absurd hthread (hawake call op rest)
    | answered hwaits hcalls hsender hanswer hover hsame =>
        rw [hsame] at hthread
        cases hthread
    | waiting hwaits hcalls hsender hover hsame =>
        obtain ⟨as, handler', message, hgone, hanswer, hrun⟩ :=
          exists_run_answer answer hcalls hsender
        obtain ⟨h₁, hown, hrefines'⟩ :=
          refines_complete hwaits hgone hanswer hover
        rw [hsame, hown] at hstep
        obtain rfl := Option.some.inj hstep
        exact ⟨as, _, hrun, hrefines'⟩
  · push Not at hcomplete
    obtain ⟨q', hown, hrefines'⟩ :=
      exists_of_rel_right (refines_step_handle hrefines hcomplete) hstep
    exact ⟨[.handle a], q', run_cons_eq_some_iff.mpr ⟨q', hown, rfl⟩,
      hrefines'⟩

theorem refines_create (config : VmConfig) :
    (create config).Refines (.create config) :=
  .awake (by intro call op rest hwaits; cases hwaits)
    (List.forall_mem_nil _) rfl

end QueuedHandle

/-- What can be seen of a handle, with the true state of its machine: both
channels with all that was ever sent on them, the call in flight, and all
calls that have ended with their outcomes. -/
structure VmHandle.View where
  vm : VmState
  stateTx : Watch VmState
  eventBus : Broadcast VmEvent
  call : Option HostCall
  returns : List (HostCall × Outcome)

/-- The view of a handle. -/
def VmHandle.view (h : VmHandle) : View where
  vm := h.vm
  stateTx := h.stateTx
  eventBus := h.eventBus
  call := h.thread.call
  returns := h.returns

namespace QueuedHandle

theorem Refines.view_eq {q : QueuedHandle} {h : VmHandle}
    (hrefines : q.Refines h) : q.handle.view = h.view := by
  cases hrefines with
  | awake hawake hover hsame => rw [hsame]
  | waiting hthread hcalls hsender hover hsame => rw [hsame]
  | answered hthread hcalls hsender hanswer hover hsame =>
      rw [hsame, VmHandle.view, VmHandle.view, hthread]
      rfl

/-- **The queue does not show.**  Whatever the queue and the framework do with
the blocks and the completion handlers of all calls (run them late, drop them,
invoke handlers again and again, also of calls that have returned), a handle
on its queue can be seen exactly as the handle's model can, in which every
operation is answered once, by its own answer, in one step. -/
theorem view_iff (config : VmConfig) (view : VmHandle.View) :
    (∃ as q, run step (create config) as = some q ∧
      q.handle.view = view) ↔
    ∃ schedule h, run VmHandle.step (.create config) schedule = some h ∧
      h.view = view := by
  constructor
  · rintro ⟨as, q, hrun, rfl⟩
    obtain ⟨schedule, h, hown, hrefines⟩ :=
      simulates.run (refines_create config) hrun
    exact ⟨schedule, h, hown, hrefines.view_eq.symm⟩
  · rintro ⟨schedule, h, hrun, rfl⟩
    obtain ⟨as, q, hown, hrefines⟩ :=
      simulated.run (refines_create config) hrun
    exact ⟨as, q, hown, hrefines.view_eq⟩

end QueuedHandle

end Kasou
