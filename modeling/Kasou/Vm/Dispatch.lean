import Kasou.Library.Family
import Kasou.Library.OneShot
import Kasou.Vm.Handle

/-!
# Dispatched operations and their completion handlers

Each call of `dispatch_vz_op` or `dispatch_vz_url_op` makes a channel of its
own.  Its sender travels in a block to the queue, from there into the cell of
the call's completion block, and is used up by the block's first invocation.
The framework may invoke and release completion blocks at any time, also when
their calls have returned and others wait.
-/

namespace Kasou

open TransitionSystem

/-- The answer that an invocation of a completion handler gives, by the error
it is passed. -/
def Answer.ofError : Option NSError → Answer
  | none => .success
  | some error => .failure error

/-- A call of one of the two functions. -/
inductive DispatchCall where
  /-- On the queue, with the channel that the caller waits on. -/
  | dispatched (op : VzOp) (channel : OneShot (Except KasouError Unit))
  /-- Refused for its path, before anything was put on the queue. -/
  | rejected (e : KasouError)

/-- What the caller asks for. -/
inductive DispatchRequest where
  | vzOp (op : VzOp)
  | vzUrlOp (op : VzOp) (path : Path)

/-- The request is one for an operation that can be put on the queue. -/
inductive DispatchRequest.Dispatches : DispatchRequest → VzOp → Prop where
  | vzOp (op : VzOp) : Dispatches (.vzOp op) op
  | vzUrlOp (op : VzOp) (path : Path) (hutf8 : path.toStr ≠ none) :
      Dispatches (.vzUrlOp op path) op

/-- What happens to a call. -/
inductive DispatchAction where
  /-- The queue runs the block. -/
  | run
  /-- The queue drops the block without running it. -/
  | cancel
  /-- The framework invokes the completion handler. -/
  | invoke (error : Option NSError)
  /-- The framework releases the completion handler. -/
  | release
  /-- `rx.recv()` returns. -/
  | receive

namespace DispatchAction

/-- The action on the channel of an operation. -/
def onChannel (op : VzOp) :
    DispatchAction → OneShot.Action (Except KasouError Unit)
  | run => .run
  | cancel => .cancel
  | invoke error => .invoke ((Answer.ofError error).result op)
  | release => .release
  | receive => .receive

/-- The error that an invocation passes. -/
def invocation : DispatchAction → Option (Option NSError)
  | invoke error => some error
  | _ => none

end DispatchAction

namespace DispatchCall

/-- What the call has returned, if it has. -/
def result : DispatchCall → Option (Except KasouError Unit)
  | dispatched _ channel =>
      channel.received.map fun received =>
        received.getD (.error .queueCancelled)
  | rejected e => some (.error e)

/-- `dispatch_vz_op`, and `dispatch_vz_url_op` with its check of the path. -/
def make : DispatchRequest → DispatchCall
  | .vzOp op => .dispatched op .new
  | .vzUrlOp op path =>
      match path.toStr with
      | none =>
          .rejected (.invalidConfig ("path not UTF-8: ".toList ++ path.display))
      | some _ => .dispatched op .new

/-- The step function of a call. -/
def step : DispatchCall → DispatchAction → Option DispatchCall
  | dispatched op channel, a =>
      (channel.step (a.onChannel op)).map (dispatched op)
  | rejected _, _ => none

end DispatchCall

namespace Dispatcher

/-- The actions of the queue and its callers. -/
abbrev Action := Family.Action DispatchRequest DispatchAction

/-- A caller makes its next call when all its earlier ones have returned. -/
def call (calls : List DispatchCall) (request : DispatchRequest) :
    Option DispatchCall :=
  if calls.all fun c => c.result.isSome then some (.make request) else none

/-- The step function of all calls on one queue. -/
def step : List DispatchCall → Action → Option (List DispatchCall) :=
  Family.step call DispatchCall.step

/-- What the callers have asked for, in order. -/
def requests (as : List Action) : List DispatchRequest := Family.creations as

/-- The first invocation of a call's own completion handler, as the error that
it passes. -/
def firstInvocation (i : Nat) (as : List Action) : Option (Option NSError) :=
  (Family.actionsOf i as).findSome? DispatchAction.invocation

end Dispatcher

/-! ## One call -/

theorem firstInvocation_onChannel (op : VzOp) (bs : List DispatchAction) :
    OneShot.firstInvocation (bs.map (DispatchAction.onChannel op)) =
      (bs.findSome? DispatchAction.invocation).map fun error =>
        (Answer.ofError error).result op := by
  induction bs with
  | nil => rfl
  | cons b bs ih =>
      rw [List.map_cons, OneShot.firstInvocation, List.findSome?_cons,
        List.findSome?_cons]
      cases b with
      | invoke error => rfl
      | _ => exact ih

namespace DispatchCall

/-- A dispatched call runs as its channel does. -/
theorem run_dispatched {op : VzOp}
    {channel : OneShot (Except KasouError Unit)} {bs : List DispatchAction}
    {c : DispatchCall} (hrun : run step (dispatched op channel) bs = some c) :
    ∃ channel', c = dispatched op channel' ∧
      run OneShot.step channel (bs.map (DispatchAction.onChannel op)) =
        some channel' := by
  induction bs generalizing channel with
  | nil => exact ⟨channel, (Option.some.inj hrun).symm, rfl⟩
  | cons b bs ih =>
      obtain ⟨c', hstep, hrest⟩ := run_cons_eq_some_iff.mp hrun
      obtain ⟨channel₁, hchannel, rfl⟩ := Option.map_eq_some_iff.mp hstep
      obtain ⟨channel', rfl, hrun'⟩ := ih hrest
      have hwhole := run_cons_eq_some_iff.mpr ⟨channel₁, hchannel, hrun'⟩
      exact ⟨channel', rfl, hwhole⟩

/-- Nothing happens to a rejected call. -/
theorem run_rejected {e : KasouError} {bs : List DispatchAction}
    {c : DispatchCall} (hrun : run step (rejected e) bs = some c) :
    bs = [] ∧ c = rejected e := by
  cases bs with
  | nil => exact ⟨rfl, (Option.some.inj hrun).symm⟩
  | cons b bs => cases hrun

/-- A request for an operation is dispatched, unless its path is not
UTF-8. -/
theorem make_cases (request : DispatchRequest) :
    (∃ op, request.Dispatches op ∧ make request = .dispatched op .new) ∨
      ∃ (op : VzOp) (path : Path), request = .vzUrlOp op path ∧
        path.toStr = none ∧ make request = .rejected (.invalidConfig
          ("path not UTF-8: ".toList ++ path.display)) := by
  cases request with
  | vzOp op => exact Or.inl ⟨op, .vzOp op, rfl⟩
  | vzUrlOp op path =>
      cases hpath : path.toStr with
      | none => exact Or.inr ⟨op, path, rfl, hpath, by simp [make, hpath]⟩
      | some text =>
          have hutf8 : path.toStr ≠ none := by simp [hpath]
          exact Or.inl ⟨op, .vzUrlOp op path hutf8, by simp [make, hpath]⟩

/-- What a call has returned stays. -/
theorem result_of_step {c c' : DispatchCall} {a : DispatchAction}
    {r : Except KasouError Unit} (hstep : c.step a = some c')
    (hresult : c.result = some r) : c'.result = some r := by
  cases c with
  | rejected e => cases hstep
  | dispatched op channel =>
      obtain ⟨channel', hchannel, rfl⟩ := Option.map_eq_some_iff.mp hstep
      obtain ⟨x, hx, rfl⟩ := Option.map_eq_some_iff.mp hresult
      rw [result, OneShot.received_of_step hchannel hx, Option.map_some]

end DispatchCall

/-! ## All calls -/

namespace Dispatcher

variable {as : List Action} {calls : List DispatchCall} {i : Nat}

/-- A call runs through its own actions, from the request it was made for. -/
theorem run_of_request {c : DispatchCall} (hrun : run step [] as = some calls)
    (hcall : calls[i]? = some c) :
    ∃ request, (requests as)[i]? = some request ∧
      run DispatchCall.step (.make request) (Family.actionsOf i as) =
        some c := by
  obtain ⟨request, before, c₀, hrequest, hmake, hone⟩ :=
    Family.component_run hrun hcall
  rw [call] at hmake
  split at hmake
  · obtain rfl := Option.some.inj hmake
    exact ⟨request, hrequest, hone⟩
  · cases hmake

/-- A call that was dispatched returns with the first invocation of its own
handler or, when its handler or its block was dropped without one, with
`QueueCancelled`. -/
theorem result_eq_firstInvocation {op : VzOp}
    {channel : OneShot (Except KasouError Unit)}
    {r : Except KasouError Unit} (hrun : run step [] as = some calls)
    (hcall : calls[i]? = some (.dispatched op channel))
    (hresult : (DispatchCall.dispatched op channel).result = some r) :
    (∃ error, firstInvocation i as = some error ∧
      r = (Answer.ofError error).result op) ∨
    (firstInvocation i as = none ∧ r = .error .queueCancelled ∧
      (.act i .release ∈ as ∨ .act i .cancel ∈ as)) := by
  obtain ⟨request, -, hone⟩ := run_of_request hrun hcall
  rcases DispatchCall.make_cases request with
    ⟨op₀, -, hop⟩ | ⟨op₀, path, -, -, hop⟩
  · rw [hop] at hone
    obtain ⟨channel', heq, hchannel⟩ := DispatchCall.run_dispatched hone
    obtain ⟨rfl, rfl⟩ := DispatchCall.dispatched.inj heq
    obtain ⟨x, hx, rfl⟩ := Option.map_eq_some_iff.mp hresult
    obtain ⟨hfirst, hdropped⟩ := OneShot.received_eq hchannel hx
    rw [firstInvocation_onChannel] at hfirst
    cases x with
    | some r =>
        obtain ⟨error, herror, rfl⟩ := Option.map_eq_some_iff.mp hfirst
        exact Or.inl ⟨error, herror, rfl⟩
    | none =>
        refine Or.inr ⟨Option.map_eq_none_iff.mp hfirst, rfl, ?_⟩
        rw [← Family.mem_actionsOf, ← Family.mem_actionsOf]
        refine (hdropped rfl).imp (fun h => ?_) (fun h => ?_)
        · obtain ⟨b, hb, heq⟩ := List.mem_map.mp h
          cases b with
          | release => exact hb
          | _ => cases heq
        · obtain ⟨b, hb, heq⟩ := List.mem_map.mp h
          cases b with
          | cancel => exact hb
          | _ => cases heq
  · rw [hop] at hone
    obtain ⟨-, heq⟩ := DispatchCall.run_rejected hone
    cases heq

/-- The call of a request for an operation has been dispatched with it. -/
theorem dispatched_of_dispatches {c : DispatchCall} {request : DispatchRequest}
    {op : VzOp} (hrun : run step [] as = some calls)
    (hcall : calls[i]? = some c) (hrequest : (requests as)[i]? = some request)
    (hop : request.Dispatches op) : ∃ channel, c = .dispatched op channel := by
  obtain ⟨request', hsame, hone⟩ := run_of_request hrun hcall
  obtain rfl := Option.some.inj (hrequest.symm.trans hsame)
  have hmake : DispatchCall.make request = .dispatched op .new := by
    cases hop with
    | vzOp op => rfl
    | vzUrlOp op path hutf8 =>
        obtain ⟨text, htext⟩ := Option.ne_none_iff_exists'.mp hutf8
        simp only [DispatchCall.make, htext]
  rw [hmake] at hone
  obtain ⟨channel, rfl, -⟩ := DispatchCall.run_dispatched hone
  exact ⟨channel, rfl⟩

/-- The call of a request whose path is not UTF-8 has been rejected, and
nothing was ever put on the queue for it. -/
theorem rejected_of_request {c : DispatchCall} {op : VzOp} {path : Path}
    (hrun : run step [] as = some calls) (hcall : calls[i]? = some c)
    (hrequest : (requests as)[i]? = some (.vzUrlOp op path))
    (hpath : path.toStr = none) :
    c = .rejected (.invalidConfig
        ("path not UTF-8: ".toList ++ path.display)) ∧
      ∀ b, .act i b ∉ as := by
  obtain ⟨request, hsame, hone⟩ := run_of_request hrun hcall
  obtain rfl := Option.some.inj (hrequest.symm.trans hsame)
  rw [DispatchCall.make, hpath] at hone
  obtain ⟨hnil, hc⟩ := DispatchCall.run_rejected hone
  refine ⟨hc, fun b hb => ?_⟩
  rw [← Family.mem_actionsOf, hnil] at hb
  cases hb

/-- An invocation changes no other call, and no result that has been
returned. -/
theorem invoke_frame {calls' : List DispatchCall} {error : Option NSError}
    (hstep : step calls (.act i (.invoke error)) = some calls') :
    (∀ j, j ≠ i → calls'[j]? = calls[j]?) ∧
      ∀ (c : DispatchCall) (r : Except KasouError Unit),
        calls[i]? = some c → c.result = some r →
          ∃ c', calls'[i]? = some c' ∧ c'.result = some r := by
  refine ⟨fun j hj => Family.getElem?_of_step_act hstep hj, ?_⟩
  intro c r hc hresult
  obtain ⟨c₁, c', hc₁, hone, rfl⟩ := Family.step_act_eq_some_iff.mp hstep
  obtain rfl := Option.some.inj (hc.symm.trans hc₁)
  refine ⟨c', List.getElem?_set_self (List.getElem?_eq_some_iff.mp hc).1, ?_⟩
  exact DispatchCall.result_of_step hone hresult

/-- **Every call gets its own completion, once.**  In every schedule, the call
of each request for an operation returns what the first invocation of its own
handler says, `Ok` for nil and `OperationFailed` otherwise, or
`QueueCancelled` when its handler or its block was dropped without an
invocation; the call of a request whose path is not UTF-8 is refused for this
path and never reaches the queue; and no invocation changes another call, or
what a call has returned. -/
theorem own_completion_once (as : List Action) (calls : List DispatchCall)
    (hrun : run step [] as = some calls) :
    calls.length = (requests as).length ∧
    (∀ i c request op r, calls[i]? = some c →
      (requests as)[i]? = some request → request.Dispatches op →
      c.result = some r →
        (firstInvocation i as = some none ∧ r = .ok ()) ∨
        (∃ error, firstInvocation i as = some (some error) ∧
          r = .error (.operationFailed (op.opName ++ " failed: ".toList ++
            (nsErrorChain error).display))) ∨
        (firstInvocation i as = none ∧ r = .error .queueCancelled ∧
          (.act i .release ∈ as ∨ .act i .cancel ∈ as))) ∧
    (∀ i c op path, calls[i]? = some c →
      (requests as)[i]? = some (.vzUrlOp op path) → path.toStr = none →
        c.result = some (.error (.invalidConfig
          ("path not UTF-8: ".toList ++ path.display))) ∧
        ∀ b, .act i b ∉ as) ∧
    ∀ i error calls', step calls (.act i (.invoke error)) = some calls' →
      (∀ j, j ≠ i → calls'[j]? = calls[j]?) ∧
      ∀ c r, calls[i]? = some c → c.result = some r →
        ∃ c', calls'[i]? = some c' ∧ c'.result = some r := by
  refine ⟨Family.length_of_run hrun, ?_, ?_, ?_⟩
  · intro i c request op r hcall hrequest hop hresult
    obtain ⟨channel, rfl⟩ := dispatched_of_dispatches hrun hcall hrequest hop
    rcases result_eq_firstInvocation hrun hcall hresult with
      ⟨error, hfirst, rfl⟩ | hdropped
    · cases error with
      | none => exact Or.inl ⟨hfirst, rfl⟩
      | some error => exact Or.inr (Or.inl ⟨error, hfirst, rfl⟩)
    · exact Or.inr (Or.inr hdropped)
  · intro i c op path hcall hrequest hpath
    obtain ⟨rfl, hnever⟩ := rejected_of_request hrun hcall hrequest hpath
    exact ⟨rfl, hnever⟩
  · intro i error calls' hstep
    exact invoke_frame hstep

/-- The error that fails the second call below. -/
def busyError : NSError :=
  .mk "VZErrorDomain".toList 1 "busy".toList none none []

/-- Two calls: the first one's handler is invoked again while the second one
waits, before its own handler fails. -/
def lateInvocation : List Action :=
  [.create (.vzOp .start), .act 0 .run, .act 0 (.invoke none),
    .act 0 .receive, .create (.vzUrlOp .save (rootFile "vm.snapshot")),
    .act 1 .run, .act 0 (.invoke none), .act 1 (.invoke (some busyError)),
    .act 1 .receive, .act 0 .release]

/-- The second call returns its own failure. -/
theorem own_completion_once_lateInvocation :
    ∃ calls c, run step [] lateInvocation = some calls ∧
      calls[1]? = some c ∧
      (requests lateInvocation)[1]? =
        some (.vzUrlOp .save (rootFile "vm.snapshot")) ∧
      c.result = some (.error (.operationFailed
        "save failed: busy [VZErrorDomain:1]".toList)) ∧
      ∃ error, firstInvocation 1 lateInvocation = some (some error) ∧
        "save failed: busy [VZErrorDomain:1]".toList =
          VzOp.save.opName ++ " failed: ".toList ++
            (nsErrorChain error).display := by
  refine ⟨_, _, rfl, rfl, rfl, rfl, ?_⟩
  rcases (own_completion_once lateInvocation _ rfl).2.1 1 _ _ .save
      (.error (.operationFailed "save failed: busy [VZErrorDomain:1]".toList))
      rfl rfl (.vzUrlOp .save _ (by decide)) rfl with
    ⟨-, hok⟩ | ⟨error, hfirst, herror⟩ | ⟨-, hcancelled, -⟩
  · cases hok
  · exact ⟨error, hfirst,
      KasouError.operationFailed.inj (Except.error.inj herror)⟩
  · cases hcancelled

end Dispatcher

/-! ## The handle's view -/

/-- What is left of a body after `?` on a result. -/
def Body.afterResult (rest : Body) : Except KasouError Unit → Body
  | .ok () => rest
  | .error e => .finish (.returned (.error e))

/-- A handle that waits for an operation goes on as its answer says. -/
theorem VmHandle.exists_step_complete {h : VmHandle} {call : HostCall}
    {op : VzOp} {rest : Body} (hthread : h.thread = .waiting call op rest)
    (answer : Answer) (now : Instant) :
    ∃ h₁ h₂, h.step (.complete answer) = some h₁ ∧
      h₁.step (.host now) = some h₂ ∧
      h₂.thread = .running call (rest.afterResult (answer.result op)) := by
  let h₁ : VmHandle :=
    { h with
      vm := answer.settle op h.vm
      thread := .answered call op answer rest }
  have hcomplete : h.step (.complete answer) = some h₁ := by
    simp only [step, hthread, h₁]
  refine ⟨h₁, h₁.setThread
    (.running call (rest.afterResult (answer.result op))), hcomplete, ?_, rfl⟩
  cases hanswer : answer.result op with
  | ok value => simp [step, stepHost, h₁, hanswer, Body.afterResult]
  | error e => simp [step, stepHost, h₁, hanswer, Body.afterResult]

namespace Dispatcher

/-- What a dispatched operation can return is what the handle's model lets it
be answered with. -/
theorem exists_run_iff_answer (op : VzOp) (r : Except KasouError Unit) :
    (∃ (as : List Action) (channel : OneShot (Except KasouError Unit)),
      run step [] as = some [.dispatched op channel] ∧
      (DispatchCall.dispatched op channel).result = some r) ↔
    ∃ answer : Answer, r = answer.result op := by
  constructor
  · rintro ⟨as, channel, hrun, hresult⟩
    have hcall : [DispatchCall.dispatched op channel][0]? =
        some (.dispatched op channel) := rfl
    rcases result_eq_firstInvocation hrun hcall hresult with
      ⟨error, -, rfl⟩ | ⟨-, rfl, -⟩
    · exact ⟨.ofError error, rfl⟩
    · exact ⟨.released, rfl⟩
  · rintro ⟨answer, rfl⟩
    cases answer with
    | success =>
        exact ⟨[.create (.vzOp op), .act 0 .run, .act 0 (.invoke none),
          .act 0 .receive], _, rfl, rfl⟩
    | failure error =>
        exact ⟨[.create (.vzOp op), .act 0 .run, .act 0 (.invoke (some error)),
          .act 0 .receive], _, rfl, rfl⟩
    | released =>
        exact ⟨[.create (.vzOp op), .act 0 .cancel, .act 0 .receive], _, rfl,
          rfl⟩

/-- A handle that waits for an operation can go on with a result exactly when
some schedule of the queue makes the operation return it. -/
theorem handle_goes_on_iff {h : VmHandle} {call : HostCall} {op : VzOp}
    {rest : Body} (hthread : h.thread = .waiting call op rest)
    (r : Except KasouError Unit) :
    (∃ (as : List Action) (channel : OneShot (Except KasouError Unit)),
      run step [] as = some [.dispatched op channel] ∧
      (DispatchCall.dispatched op channel).result = some r) ↔
    ∃ answer, r = answer.result op ∧ ∀ now, ∃ h₁ h₂,
      h.step (.complete answer) = some h₁ ∧ h₁.step (.host now) = some h₂ ∧
        h₂.thread = .running call (rest.afterResult r) := by
  rw [exists_run_iff_answer]
  constructor
  · rintro ⟨answer, rfl⟩
    exact ⟨answer, rfl, VmHandle.exists_step_complete hthread answer⟩
  · rintro ⟨answer, hanswer, -⟩
    exact ⟨answer, hanswer⟩

end Dispatcher

end Kasou
