import Kasou.Config
import Kasou.Event
import Kasou.Library.TransitionSystem
import Kasou.Library.Watch

/-!
# The VM handle

A handle serves one host call at a time (it is `Send` but not `Sync`).  The
body of each method is written as the sequence of its observable steps, in
source order, so that the delegate callbacks and the completion handlers, which
run on the VM's serial queue, can fall between any two of them.

The state of the system is the handle with the host thread's position in the
call it is serving, together with the true state of the virtual machine on the
framework's side, which changes only in steps of the queue.
-/

namespace Kasou

/-- The framework operations that a method dispatches to the queue. -/
inductive VzOp where
  | start
  | stop
  | pause
  | resume
  | save
  | restore
  | requestStop
  deriving DecidableEq, Repr

namespace VzOp

/-- The name of the operation in error texts. -/
def opName : VzOp → Text
  | start => "start".toList
  | stop => "stop".toList
  | pause => "pause".toList
  | resume => "resume".toList
  | save => "save".toList
  | restore => "restore".toList
  | requestStop => "request stop".toList

/-- The state the machine is in when the operation has completed without
error; none for an operation that leaves the state alone. -/
def settles : VzOp → Option VmState
  | start | resume => some .running
  | pause | restore => some .paused
  | stop => some .stopped
  | save | requestStop => none

end VzOp

/-- What becomes of the completion handler of a dispatched operation. -/
inductive Answer where
  /-- Invoked with a nil error. -/
  | success
  /-- Invoked with an error. -/
  | failure (error : NSError)
  /-- Released without having been invoked. -/
  | released

namespace Answer

/-- What `rx.recv()` makes of it. -/
def result (op : VzOp) : Answer → Except KasouError Unit
  | success => .ok ()
  | failure error =>
      .error (.operationFailed
        (op.opName ++ " failed: ".toList ++ (nsErrorChain error).display))
  | released => .error .queueCancelled

/-- The state of the machine after the answer. -/
def settle (op : VzOp) (vm : VmState) : Answer → VmState
  | success => op.settles.getD vm
  | failure _ => vm
  | released => vm

end Answer

/-- What a successful call hands to its caller. -/
inductive Reply where
  | unit
  | ip (address : Text)
  deriving DecidableEq

/-- How a call ends. -/
inductive Outcome where
  | returned (result : Except KasouError Reply)
  | panicked (message : Text)

/-- What is left of the body of a method. -/
inductive Body where
  /-- `self.state()`. -/
  | readState (rest : VmState → Body)
  /-- `Instant::now()`. -/
  | readClock (rest : Instant → Body)
  /-- `dispatch_vz_op(..)?`. -/
  | dispatchVzOp (op : VzOp) (rest : Body)
  /-- `dispatch_vz_url_op(..)?`, which first converts the path. -/
  | dispatchVzUrlOp (op : VzOp) (path : Path) (rest : Body)
  /-- `self.state_tx.send(to)`. -/
  | send (toState : VmState) (rest : Body)
  /-- `self.emit(kind)`. -/
  | emit (kind : VmEventKind) (rest : Body)
  /-- Open the file and, if that succeeds, `sync_all`; both results are
  ignored. -/
  | syncFile (path : Path) (rest : Body)
  /-- The loop of `wait_for_ip`, once its deadline is known. -/
  | pollLease (mac : Text) (timeout : Duration) (deadline : Instant)
  /-- The method is done. -/
  | finish (outcome : Outcome)

namespace VmHandle

/-- `Ok(())`. -/
def finishOk : Body := .finish (.returned (.ok .unit))

/-- Publish a transition to the state channel and then to the event bus. -/
def transitionState (fromState toState : VmState) (rest : Body) : Body :=
  .send toState (.emit (.stateChanged fromState toState) rest)

/-- Start the virtual machine. -/
def start : Body :=
  .readState fun before =>
    .dispatchVzOp .start (transitionState before .running finishOk)

/-- Hard stop the virtual machine. -/
def stop : Body :=
  .readState fun before =>
    .dispatchVzOp .stop (transitionState before .stopped finishOk)

/-- Pause the virtual machine. -/
def pause : Body :=
  .readState fun before =>
    .dispatchVzOp .pause (transitionState before .paused finishOk)

/-- Resume a paused virtual machine. -/
def resume : Body :=
  .readState fun before =>
    .dispatchVzOp .resume (transitionState before .running finishOk)

/-- Save the machine's state to a file. -/
def saveState (path : Path) : Body :=
  .dispatchVzUrlOp .save path
    (.syncFile path (.emit (.snapshotCreated path) finishOk))

/-- Restore the machine's state from a file. -/
def restoreState (path : Path) : Body :=
  .readState fun before =>
    .dispatchVzUrlOp .restore path
      (transitionState before .paused
        (.emit (.snapshotRestored path) finishOk))

/-- Ask the guest to stop.  The queue block runs `requestStopWithError` and
sends its result; only a successful one is announced. -/
def requestStop : Body :=
  .dispatchVzOp .requestStop (.emit .shutdownRequested finishOk)

/-- The loop of `wait_for_ip` with its deadline; `Instant + Duration` panics
when there is no such instant. -/
def pollUntil (mac : Text) (timeout : Duration) : Option Instant → Body
  | none =>
      .finish (.panicked "overflow when adding duration to instant".toList)
  | some deadline => .pollLease mac timeout deadline

/-- Wait until the machine's MAC address has a DHCP lease. -/
def waitForIp (config : VmConfig) (timeout : Duration) : Body :=
  match config.network.macAddress with
  | none =>
      .finish (.returned (.error (.invalidConfig
        "no MAC address configured — cannot discover IP".toList)))
  | some mac =>
      .readClock fun now =>
        pollUntil mac timeout (Instant.checkedAdd now timeout)

end VmHandle

/-- The methods of the handle that go through the queue or wait. -/
inductive HostCall where
  | start
  | stop
  | pause
  | resume
  | saveState (path : Path)
  | restoreState (path : Path)
  | requestStop
  | waitForIp (timeout : Duration)
  deriving DecidableEq

/-- The body of the method called. -/
def HostCall.body (config : VmConfig) : HostCall → Body
  | start => VmHandle.start
  | stop => VmHandle.stop
  | pause => VmHandle.pause
  | resume => VmHandle.resume
  | saveState path => VmHandle.saveState path
  | restoreState path => VmHandle.restoreState path
  | requestStop => VmHandle.requestStop
  | waitForIp timeout => VmHandle.waitForIp config timeout

/-- Where the host thread is in the call it serves. -/
inductive Thread where
  /-- No host call is in flight. -/
  | idle
  /-- About to execute `body`. -/
  | running (call : HostCall) (body : Body)
  /-- In `rx.recv()`, with the operation on the queue. -/
  | waiting (call : HostCall) (op : VzOp) (rest : Body)
  /-- In `rx.recv()`, with the answer in the channel. -/
  | answered (call : HostCall) (op : VzOp) (answer : Answer) (rest : Body)

/-- A handle, with the true state of its virtual machine in `vm`. -/
structure VmHandle where
  vm : VmState
  stateTx : Watch VmState
  eventBus : Broadcast VmEvent
  config : VmConfig
  thread : Thread
  /-- The calls that have ended, with their outcomes, oldest first. -/
  returns : List (HostCall × Outcome)

namespace VmHandle

/-- A new handle: the machine is stopped and nothing has been published. -/
def create (config : VmConfig) : VmHandle where
  vm := .stopped
  stateTx := .channel .stopped
  eventBus := .channel
  config := config
  thread := .idle
  returns := []

/-- The published state. -/
def state (h : VmHandle) : VmState := h.stateTx.borrow

/-- Broadcast an event. -/
def emit (h : VmHandle) (now : Instant) (kind : VmEventKind) : VmHandle :=
  { h with eventBus := h.eventBus.send ⟨now, h.config.id, kind⟩ }

/-- Put a value in the state channel. -/
def sendState (h : VmHandle) (toState : VmState) : VmHandle :=
  { h with stateTx := h.stateTx.send toState }

/-- The handle with its host thread elsewhere. -/
def setThread (h : VmHandle) (thread : Thread) : VmHandle :=
  { h with thread := thread }

/-- The dropped handle hard-stops the machine if it looks active, unless it
looks paused.  The operations that the drop puts on the queue. -/
def drop (h : VmHandle) : List VzOp :=
  if h.state.isActive && h.state != .paused then [.stop] else []

end VmHandle

/-- What came of reopening and syncing a saved file. -/
inductive SyncOutcome where
  | openFailed
  | syncFailed
  | synced
  deriving DecidableEq, Repr

/-- The steps of the system. -/
inductive Action where
  /-- The owner of an idle handle calls a method. -/
  | invoke (call : HostCall)
  /-- The host thread takes its next step; `now` is the clock's reading. -/
  | host (now : Instant)
  /-- The host thread reopens and syncs a saved file. -/
  | sync (outcome : SyncOutcome)
  /-- One round of the loop of `wait_for_ip`: a lookup and a clock reading. -/
  | poll (found : Option Text) (now : Instant)
  /-- Queue: the completion handler is invoked or released. -/
  | complete (answer : Answer)
  /-- Queue: the delegate is told that the guest stopped. -/
  | guestDidStop
  /-- Queue: the delegate is told that the machine stopped with an error. -/
  | didStopWithError (error : NSError)

/-- The state that a delegate callback leaves the machine in; none for a step
that is no delegate callback. -/
def Action.callback : Action → Option VmState
  | .guestDidStop => some .stopped
  | .didStopWithError _ => some .error
  | _ => none

/-- Whether the step is one of the serial queue. -/
def Action.onQueue : Action → Bool
  | .complete _ | .guestDidStop | .didStopWithError _ => true
  | _ => false

namespace VmHandle

/-- The host thread's next step in the body of a method. -/
def stepBody (h : VmHandle) (now : Instant) (call : HostCall) :
    Body → Option VmHandle
  | .readState rest => some (h.setThread (.running call (rest h.state)))
  | .readClock rest => some (h.setThread (.running call (rest now)))
  | .dispatchVzOp op rest => some (h.setThread (.waiting call op rest))
  | .dispatchVzUrlOp op path rest =>
      match path.toStr with
      | none =>
          some (h.setThread (.running call (.finish (.returned (.error
            (.invalidConfig ("path not UTF-8: ".toList ++ path.display)))))))
      | some _ => some (h.setThread (.waiting call op rest))
  | .send toState rest =>
      some ((h.sendState toState).setThread (.running call rest))
  | .emit kind rest => some ((h.emit now kind).setThread (.running call rest))
  | .syncFile _ _ => none
  | .pollLease _ _ _ => none
  | .finish outcome =>
      some { h with thread := .idle, returns := h.returns ++ [(call, outcome)] }

/-- The host thread's next step. -/
def stepHost (h : VmHandle) (now : Instant) : Option VmHandle :=
  match h.thread with
  | .idle => none
  | .running call body => h.stepBody now call body
  | .waiting _ _ _ => none
  | .answered call op answer rest =>
      match answer.result op with
      | .ok () => some (h.setThread (.running call rest))
      | .error e =>
          some (h.setThread (.running call (.finish (.returned (.error e)))))

/-- One round of the loop of `wait_for_ip`. -/
def stepPoll (h : VmHandle) (found : Option Text) (now : Instant) :
    Option VmHandle :=
  match h.thread with
  | .running call (.pollLease mac timeout deadline) =>
      match found with
      | some ip =>
          some (h.setThread (.running call
            (.emit (.ipAssigned ip) (.finish (.returned (.ok (.ip ip)))))))
      | none =>
          if deadline ≤ now then
            some (h.setThread (.running call (.finish (.returned (.error
              (.operationFailed ("VM did not obtain DHCP IP within ".toList ++
                (toString timeout.secs.toNat).toList ++ "s (MAC: ".toList ++
                mac ++ ")".toList)))))))
          else some h
  | _ => none

/-- `VmDelegate::guest_did_stop`, in the step in which the machine stops. -/
def guestDidStop (h : VmHandle) : VmHandle :=
  { h with vm := .stopped }.sendState .stopped

/-- `VmDelegate::did_stop_with_error`, in the step in which the machine
fails. -/
def didStopWithError (h : VmHandle) (_error : NSError) : VmHandle :=
  { h with vm := .error }.sendState .error

/-- The step function of the system. -/
def step (h : VmHandle) : Action → Option VmHandle
  | .invoke call =>
      match h.thread with
      | .idle => some (h.setThread (.running call (call.body h.config)))
      | _ => none
  | .host now => h.stepHost now
  | .sync _ =>
      match h.thread with
      | .running call (.syncFile _ rest) =>
          some (h.setThread (.running call rest))
      | _ => none
  | .poll found now => h.stepPoll found now
  | .complete answer =>
      match h.thread with
      | .waiting call op rest =>
          some { h with
            vm := answer.settle op h.vm
            thread := .answered call op answer rest }
      | _ => none
  | .guestDidStop => some h.guestDidStop
  | .didStopWithError error => some (h.didStopWithError error)

end VmHandle

end Kasou
