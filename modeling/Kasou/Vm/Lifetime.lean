import Kasou.Vm.Dispatch

/-!
# The lifetime of the machine

A block on the queue holds the address of the machine and no reference to it.
The machine is freed with its handle.  Each call borrows the handle until it
has returned, so nothing is in flight when the handle is dropped; but that no
method of the machine executes then rests on the channels and the framework.
A call returns only with a message or once its sender is gone, and a block
that has not run still holds the sender.  A method that invokes its completion
handler before it returns lets the caller go while it executes; then only the
hard stop of the drop, which waits for the queue, keeps the machine alive.
-/

namespace Kasou

open TransitionSystem

namespace DispatchCall

/-- Whether the block of the call is on the queue, with the address of the
machine. -/
def queued : DispatchCall → Bool
  | dispatched _ channel => channel.handler == .queued
  | rejected _ => false

/-- Whether the block of the call has run, and nothing was sent yet. -/
def armed : DispatchCall → Bool
  | dispatched _ channel => channel.handler == .alive true
  | rejected _ => false

/-- Whether the block sends by itself, when its method has returned, and not
through a completion handler. -/
def sendsItself : DispatchCall → Bool
  | dispatched .requestStop _ => true
  | _ => false

end DispatchCall

/-- Where a handle is in its life. -/
inductive Holding where
  | held
  /-- In `drop`, with or without the hard stop still to come. -/
  | dropping (hardStop : Bool)
  /-- In `drop`, behind its `exec_sync`. -/
  | stopped
  | freed
  deriving DecidableEq

/-- What executes on the queue. -/
inductive Executing where
  | nothing
  /-- The block of a call, in its method of the machine. -/
  | call (i : Nat)
  /-- A block of the framework's own. -/
  | framework
  /-- The block of the drop's `exec_sync`. -/
  | hardStop
  deriving DecidableEq

/-- A handle with its queue and all its calls. -/
structure HeldVm where
  holding : Holding
  executing : Executing
  calls : List DispatchCall

namespace HeldVm

/-- What happens to a handle. -/
inductive Action where
  /-- The owner calls a method that dispatches an operation. -/
  | call (request : DispatchRequest)
  /-- The queue runs the block of a call, which enters its method. -/
  | enter (i : Nat)
  /-- The queue runs a block of the framework's own. -/
  | enterFramework
  /-- What executes on the queue returns. -/
  | leave
  /-- Anything else happens to a call. -/
  | act (i : Nat) (a : DispatchAction)
  /-- The owner drops the handle. -/
  | drop (hardStop : Bool)
  /-- The drop's `exec_sync` runs its block, behind all others. -/
  | hardStop
  /-- The fields are deallocated. -/
  | free

/-- A new handle. -/
def new : HeldVm := ⟨.held, .nothing, []⟩

/-- The handle after a step of its calls. -/
def withCalls (s : HeldVm) (a : Dispatcher.Action) : Option HeldVm :=
  (Dispatcher.step s.calls a).map fun calls => { s with calls := calls }

/-- What can happen to a call by itself: a block that executes holds its
completion handler, and one that sends by itself does so behind its method. -/
def permits (s : HeldVm) (i : Nat) : DispatchAction → Bool
  | .run => false
  | .release => s.executing != .call i
  | .invoke _ =>
      s.executing != .call i || !s.calls[i]?.any DispatchCall.sendsItself
  | .cancel => true
  | .receive => true

/-- The step function of a handle. -/
def step (s : HeldVm) : Action → Option HeldVm
  | .call request =>
      if s.holding = .held then s.withCalls (.create request) else none
  | .enter i =>
      if s.executing = .nothing then
        (s.withCalls (.act i .run)).map fun s =>
          { s with executing := .call i }
      else none
  | .enterFramework =>
      if s.executing = .nothing then some { s with executing := .framework }
      else none
  | .leave =>
      match s.executing with
      | .nothing => none
      | .hardStop => some { s with holding := .stopped, executing := .nothing }
      | _ => some { s with executing := .nothing }
  | .act i a => if s.permits i a then s.withCalls (.act i a) else none
  | .drop hardStop =>
      if s.holding = .held ∧ s.calls.all fun c => c.result.isSome then
        some { s with holding := .dropping hardStop }
      else none
  | .hardStop =>
      if s.holding = .dropping true ∧ s.executing = .nothing ∧
          s.calls.all fun c => !c.queued then
        some { s with executing := .hardStop }
      else none
  | .free =>
      if s.holding = .dropping false ∨ s.holding = .stopped then
        some { s with holding := .freed }
      else none

/-- The steps of the calls among those of the handle. -/
def Action.dispatcher : Action → Option Dispatcher.Action
  | .call request => some (.create request)
  | .enter i => some (.act i .run)
  | .act i a => some (.act i a)
  | .enterFramework | .leave | .drop _ | .hardStop | .free => none

/-- No completion handler is invoked before the method that it was passed to
has returned. -/
def OutsideMethod (s : HeldVm) : Action → Prop
  | .act i (.invoke _) => s.executing ≠ .call i
  | _ => True

end HeldVm

/-! ## Calls that have returned -/

namespace DispatchCall

/-- A call whose sender is still there has not returned. -/
theorem result_of_hasSender {request : DispatchRequest}
    {bs : List DispatchAction} {op : VzOp}
    {channel : OneShot (Except KasouError Unit)}
    (hrun : run step (make request) bs = some (dispatched op channel))
    (hsender : channel.handler.hasSender = true) :
    (dispatched op channel).result = none := by
  rcases make_cases request with
    ⟨op₀, -, hmake⟩ | ⟨op₀, path, -, -, hmake⟩
  · rw [hmake] at hrun
    obtain ⟨channel', heq, hchannel⟩ := run_dispatched hrun
    obtain ⟨-, rfl⟩ := dispatched.inj heq
    have hphase := OneShot.phase_of_run hchannel
    rw [result, (hphase.of_hasSender hsender).2.2, Option.map_none]
  · rw [hmake] at hrun
    obtain ⟨-, heq⟩ := run_rejected hrun
    cases heq

/-- A call that has returned has no block on the queue. -/
theorem queued_of_result {request : DispatchRequest}
    {bs : List DispatchAction} {c : DispatchCall}
    (hrun : run step (make request) bs = some c)
    (hresult : c.result.isSome) : c.queued = false := by
  by_contra hqueued
  cases c with
  | rejected e => exact hqueued rfl
  | dispatched op channel =>
      have hhandler : channel.handler = .queued := by
        simpa [queued] using hqueued
      rw [result_of_hasSender hrun (by rw [hhandler]; rfl)] at hresult
      cases hresult

theorem result_of_armed {request : DispatchRequest} {bs : List DispatchAction}
    {c : DispatchCall} (hrun : run step (make request) bs = some c)
    (harmed : c.armed = true) : c.result = none := by
  cases c with
  | rejected e => cases harmed
  | dispatched op channel =>
      have hhandler : channel.handler = .alive true := by
        simpa [armed] using harmed
      exact result_of_hasSender hrun (by rw [hhandler]; rfl)

/-- Only a block on the queue runs, and it passes its handler on. -/
theorem queued_of_step_run {c c' : DispatchCall}
    (hstep : c.step .run = some c') : c.queued = true ∧ c'.armed = true := by
  cases c with
  | rejected e => cases hstep
  | dispatched op channel =>
      obtain ⟨channel', hchannel, rfl⟩ := Option.map_eq_some_iff.mp hstep
      obtain ⟨hhandler, rfl⟩ := OneShot.step_run_iff.mp hchannel
      exact ⟨by rw [queued, hhandler]; rfl, rfl⟩

/-- Only the handler's invocation or its release end the wait for it. -/
theorem armed_of_step {c c' : DispatchCall} {a : DispatchAction}
    (hinvoke : ∀ error, a ≠ .invoke error) (hrelease : a ≠ .release)
    (hstep : c.step a = some c') (harmed : c.armed = true) :
    c'.armed = true := by
  cases c with
  | rejected e => cases harmed
  | dispatched op channel =>
      have hhandler : channel.handler = .alive true := by
        simpa [armed] using harmed
      obtain ⟨channel', hchannel, rfl⟩ := Option.map_eq_some_iff.mp hstep
      cases a with
      | run =>
          have hqueued := (OneShot.step_run_iff.mp hchannel).1
          rw [hhandler] at hqueued
          cases hqueued
      | cancel =>
          have hqueued := (OneShot.step_cancel_iff.mp hchannel).1
          rw [hhandler] at hqueued
          cases hqueued
      | invoke error => exact absurd rfl (hinvoke error)
      | release => exact absurd rfl hrelease
      | receive =>
          obtain ⟨-, ⟨r, -, rfl⟩ | ⟨-, -, rfl⟩⟩ :=
            OneShot.step_receive_iff.mp hchannel
          · exact harmed
          · exact harmed

end DispatchCall

namespace Dispatcher

variable {as : List Action} {calls calls' : List DispatchCall} {a : Action}
  {i : Nat}

/-- The call with the number `i` has returned. -/
def HasReturned (calls : List DispatchCall) (i : Nat) : Prop :=
  ∃ c, calls[i]? = some c ∧ c.result.isSome

theorem all_result_iff : (calls.all fun c => c.result.isSome) = true ↔
    ∀ i < calls.length, HasReturned calls i := by
  rw [List.all_eq_true]
  constructor
  · intro hall i hi
    exact ⟨calls[i], List.getElem?_eq_getElem hi, hall _ (List.getElem_mem hi)⟩
  · intro hall c hc
    obtain ⟨i, hi, rfl⟩ := List.getElem_of_mem hc
    obtain ⟨c, hget, hresult⟩ := hall i hi
    rw [List.getElem?_eq_getElem hi] at hget
    obtain rfl := Option.some.inj hget
    exact hresult

/-- A new call is made behind calls that have all returned. -/
theorem step_create_iff {request : DispatchRequest} :
    step calls (.create request) = some calls' ↔
      (∀ i < calls.length, HasReturned calls i) ∧
        calls' = calls ++ [.make request] := by
  rw [step, Family.step, call, ← all_result_iff]
  by_cases hall : (calls.all fun c => c.result.isSome) = true
  · simp [hall, eq_comm]
  · simp [hall]

theorem length_of_step_act {b : DispatchAction}
    (hstep : step calls (.act i b) = some calls') :
    calls'.length = calls.length := by
  obtain ⟨c, c', -, -, rfl⟩ := Family.step_act_eq_some_iff.mp hstep
  exact List.length_set

/-- A call that has returned stays so. -/
theorem HasReturned.step (h : HasReturned calls i)
    (hstep : step calls a = some calls') : HasReturned calls' i := by
  obtain ⟨c, hget, hresult⟩ := h
  cases a with
  | create request =>
      obtain ⟨-, rfl⟩ := step_create_iff.mp hstep
      have hi := (List.getElem?_eq_some_iff.mp hget).1
      refine ⟨c, ?_, hresult⟩
      rw [List.getElem?_append_left hi, hget]
  | act j b =>
      by_cases hj : j = i
      · subst hj
        obtain ⟨c₁, c', hget₁, hone, rfl⟩ :=
          Family.step_act_eq_some_iff.mp hstep
        obtain rfl := Option.some.inj (hget.symm.trans hget₁)
        obtain ⟨r, hr⟩ := Option.isSome_iff_exists.mp hresult
        have hr' := DispatchCall.result_of_step hone hr
        have hj := (List.getElem?_eq_some_iff.mp hget).1
        exact ⟨c', List.getElem?_set_self hj, by rw [hr']; rfl⟩
      · have hsame := Family.getElem?_of_step_act hstep (Ne.symm hj)
        exact ⟨c, hsame.trans hget, hresult⟩

/-- All calls but the last have returned. -/
theorem hasReturned_of_run (hrun : run step [] as = some calls) :
    ∀ i, i + 1 < calls.length → HasReturned calls i := by
  refine run_invariant
    (P := fun calls => ∀ i, i + 1 < calls.length → HasReturned calls i) ?_
    ?_ hrun
  · intro calls a calls' hold hstep i hi
    have hbefore : HasReturned calls i := by
      cases a with
      | create request =>
          obtain ⟨hall, rfl⟩ := step_create_iff.mp hstep
          rw [List.length_append, List.length_singleton] at hi
          exact hall i (by omega)
      | act j b =>
          rw [length_of_step_act hstep] at hi
          exact hold i hi
    exact hbefore.step hstep
  · intro i hi
    exact absurd hi (Nat.not_lt_zero _)

/-- The block of a call that has returned is not on the queue. -/
theorem queued_of_hasReturned {c : DispatchCall}
    (hrun : run step [] as = some calls) (hget : calls[i]? = some c)
    (h : HasReturned calls i) : c.queued = false := by
  obtain ⟨c₁, hget₁, hresult⟩ := h
  obtain rfl := Option.some.inj (hget.symm.trans hget₁)
  obtain ⟨request, -, hone⟩ := run_of_request hrun hget
  exact DispatchCall.queued_of_result hone hresult

/-- A call whose handler has still to be invoked has not returned. -/
theorem not_hasReturned_of_armed {c : DispatchCall}
    (hrun : run step [] as = some calls) (hget : calls[i]? = some c)
    (harmed : c.armed = true) : ¬ HasReturned calls i := by
  rintro ⟨c₁, hget₁, hresult⟩
  obtain rfl := Option.some.inj (hget.symm.trans hget₁)
  obtain ⟨request, -, hone⟩ := run_of_request hrun hget
  rw [DispatchCall.result_of_armed hone harmed] at hresult
  cases hresult

end Dispatcher

/-! ## The life of a handle -/

namespace HeldVm

variable {as : List Action} {s s' : HeldVm} {a : Action} {i : Nat}

/-- What each step can do. -/
inductive Step (s : HeldVm) : Action → HeldVm → Prop where
  | call {request : DispatchRequest} {calls' : List DispatchCall}
      (hheld : s.holding = .held)
      (hcalls : Dispatcher.step s.calls (.create request) = some calls') :
      Step s (.call request) { s with calls := calls' }
  | enter {i : Nat} {calls' : List DispatchCall}
      (hcalls : Dispatcher.step s.calls (.act i .run) = some calls') :
      Step s (.enter i) { s with executing := .call i, calls := calls' }
  | enterFramework : Step s .enterFramework { s with executing := .framework }
  | leave (hcall : s.executing ≠ .hardStop) :
      Step s .leave { s with executing := .nothing }
  | leaveHardStop (hstop : s.executing = .hardStop) :
      Step s .leave { s with holding := .stopped, executing := .nothing }
  | act {i : Nat} {b : DispatchAction} {calls' : List DispatchCall}
      (hpermits : s.permits i b = true)
      (hcalls : Dispatcher.step s.calls (.act i b) = some calls') :
      Step s (.act i b) { s with calls := calls' }
  | drop {hardStop : Bool} (hheld : s.holding = .held)
      (hreturned : ∀ i < s.calls.length, Dispatcher.HasReturned s.calls i) :
      Step s (.drop hardStop) { s with holding := .dropping hardStop }
  | hardStop (hdropping : s.holding = .dropping true) :
      Step s .hardStop { s with executing := .hardStop }
  | free (hdropping : s.holding = .dropping false ∨ s.holding = .stopped) :
      Step s .free { s with holding := .freed }

theorem step_sound (hstep : s.step a = some s') : Step s a s' := by
  cases a with
  | call request =>
      obtain ⟨hheld, hcalls⟩ := Option.ite_none_right_eq_some.mp hstep
      obtain ⟨calls', hcalls', rfl⟩ := Option.map_eq_some_iff.mp hcalls
      exact .call hheld hcalls'
  | enter i =>
      obtain ⟨-, hcalls⟩ := Option.ite_none_right_eq_some.mp hstep
      obtain ⟨t, ht, rfl⟩ := Option.map_eq_some_iff.mp hcalls
      obtain ⟨calls', hcalls', rfl⟩ := Option.map_eq_some_iff.mp ht
      exact .enter hcalls'
  | enterFramework =>
      obtain ⟨-, hs⟩ := Option.ite_none_right_eq_some.mp hstep
      obtain rfl := Option.some.inj hs
      exact .enterFramework
  | leave =>
      rw [step] at hstep
      split at hstep
      · cases hstep
      next hstop =>
        obtain rfl := Option.some.inj hstep
        exact .leaveHardStop hstop
      next hcall =>
        obtain rfl := Option.some.inj hstep
        exact .leave hcall
  | act i b =>
      obtain ⟨hpermits, hcalls⟩ := Option.ite_none_right_eq_some.mp hstep
      obtain ⟨calls', hcalls', rfl⟩ := Option.map_eq_some_iff.mp hcalls
      exact .act hpermits hcalls'
  | drop hardStop =>
      obtain ⟨⟨hheld, hall⟩, hs⟩ := Option.ite_none_right_eq_some.mp hstep
      obtain rfl := Option.some.inj hs
      exact .drop hheld (Dispatcher.all_result_iff.mp hall)
  | hardStop =>
      obtain ⟨⟨hdropping, -⟩, hs⟩ := Option.ite_none_right_eq_some.mp hstep
      obtain rfl := Option.some.inj hs
      exact .hardStop hdropping
  | free =>
      obtain ⟨hdropping, hs⟩ := Option.ite_none_right_eq_some.mp hstep
      obtain rfl := Option.some.inj hs
      exact .free hdropping

/-- The calls of a handle are made on one queue. -/
theorem projects_dispatcher :
    Projects step Dispatcher.step calls Action.dispatcher := by
  intro s a s' hstep
  cases step_sound hstep with
  | call hheld hcalls => exact hcalls
  | enter hcalls => exact hcalls
  | act hpermits hcalls => exact hcalls
  | enterFramework => rfl
  | leave hcall => rfl
  | leaveHardStop hstop => rfl
  | drop hheld hreturned => rfl
  | hardStop hdropping => rfl
  | free hdropping => rfl

/-- What holds of the drop: its block executes before it goes on, and all
calls have returned. -/
structure DropWaits (s : HeldVm) : Prop where
  hardStop : s.executing = .hardStop → s.holding = .dropping true
  returned : s.holding ≠ .held →
    ∀ i < s.calls.length, Dispatcher.HasReturned s.calls i

theorem DropWaits.step (h : s.DropWaits) (hstep : s.step a = some s') :
    s'.DropWaits := by
  cases step_sound hstep with
  | call hheld hcalls =>
      exact ⟨h.hardStop, fun hnot => absurd hheld hnot⟩
  | enter hcalls =>
      refine ⟨nofun, fun hnot i hi => ?_⟩
      rw [Dispatcher.length_of_step_act hcalls] at hi
      exact (h.returned hnot i hi).step hcalls
  | enterFramework => exact ⟨nofun, h.returned⟩
  | leave hcall => exact ⟨nofun, h.returned⟩
  | leaveHardStop hstop =>
      refine ⟨nofun, fun _ => h.returned ?_⟩
      rw [h.hardStop hstop]
      decide
  | act hpermits hcalls =>
      refine ⟨h.hardStop, fun hnot i hi => ?_⟩
      rw [Dispatcher.length_of_step_act hcalls] at hi
      exact (h.returned hnot i hi).step hcalls
  | drop hheld hreturned =>
      refine ⟨fun hstop => ?_, fun _ => hreturned⟩
      have hdropping := h.hardStop hstop
      rw [hheld] at hdropping
      cases hdropping
  | hardStop hdropping => exact ⟨fun _ => hdropping, h.returned⟩
  | free hdropping =>
      refine ⟨fun hstop => ?_, fun _ => h.returned ?_⟩
      · rw [h.hardStop hstop] at hdropping
        rcases hdropping with hdropping | hdropping <;> cases hdropping
      · rcases hdropping with hdropping | hdropping <;>
          rw [hdropping] <;> decide

theorem dropWaits_of_run (hrun : run step new as = some s) :
    s.DropWaits := by
  have hnew : new.DropWaits :=
    ⟨fun hstop => absurd hstop (by decide), fun hnot => absurd rfl hnot⟩
  exact run_invariant (P := DropWaits) (fun _ _ _ h hstep => h.step hstep)
    hnew hrun

/-- From the drop of a handle on, no block of a call is on the queue. -/
theorem queued_of_not_held (hrun : run step new as = some s)
    (hnot : s.holding ≠ .held) : ∀ c ∈ s.calls, c.queued = false := by
  intro c hc
  obtain ⟨i, hi, rfl⟩ := List.getElem_of_mem hc
  have hcalls := projects_dispatcher.run hrun
  exact Dispatcher.queued_of_hasReturned hcalls (List.getElem?_eq_getElem hi)
    ((dropWaits_of_run hrun).returned hnot i hi)

/-- The handle is held, and its owner waits for the call `i`, the last one. -/
def WaitsFor (s : HeldVm) (i : Nat) : Prop :=
  s.holding = .held ∧ i + 1 = s.calls.length ∧
    ∃ c, s.calls[i]? = some c ∧ c.result = none

/-- A call that has not returned is the last one, and its handle is held. -/
theorem waitsFor_of_not_hasReturned {c : DispatchCall}
    (hrun : run step new as = some s) (hget : s.calls[i]? = some c)
    (hnot : ¬ Dispatcher.HasReturned s.calls i) : s.WaitsFor i := by
  have hcalls := projects_dispatcher.run hrun
  have hi := (List.getElem?_eq_some_iff.mp hget).1
  refine ⟨?_, ?_, c, hget, ?_⟩
  · by_contra hdropped
    exact hnot ((dropWaits_of_run hrun).returned hdropped i hi)
  · by_contra hlast
    exact hnot (Dispatcher.hasReturned_of_run hcalls i (by omega))
  · by_contra hresult
    exact hnot ⟨c, hget, Option.isSome_iff_ne_none.mpr hresult⟩

/-- The block of a call starts while its owner waits for it. -/
theorem waitsFor_of_step_enter (hrun : run step new as = some s)
    (hstep : s.step (.enter i) = some s') : s.WaitsFor i := by
  have hcalls := projects_dispatcher.run hrun
  cases step_sound hstep with
  | enter hact =>
      obtain ⟨c, c', hget, hone, -⟩ := Family.step_act_eq_some_iff.mp hact
      refine waitsFor_of_not_hasReturned hrun hget fun hreturned => ?_
      have hgone := Dispatcher.queued_of_hasReturned hcalls hget hreturned
      rw [(DispatchCall.queued_of_step_run hone).1] at hgone
      cases hgone

/-! ## Methods that return before they answer -/

/-- The handler of the call that executes has still to be invoked. -/
def ExecutesArmed (s : HeldVm) : Prop :=
  ∀ i, s.executing = .call i →
    ∃ c, s.calls[i]? = some c ∧ c.armed = true

theorem ExecutesArmed.act {b : DispatchAction} {calls' : List DispatchCall}
    (h : s.ExecutesArmed) (hpermits : s.permits i b = true)
    (houtside : s.OutsideMethod (.act i b))
    (hcalls : Dispatcher.step s.calls (.act i b) = some calls') :
    ExecutesArmed { s with calls := calls' } := by
  intro j hj
  obtain ⟨c, hget, harmed⟩ := h j hj
  by_cases hne : j = i
  · subst hne
    obtain ⟨c₁, c', hget₁, hone, rfl⟩ := Family.step_act_eq_some_iff.mp hcalls
    obtain rfl := Option.some.inj (hget.symm.trans hget₁)
    have hbound := (List.getElem?_eq_some_iff.mp hget).1
    refine ⟨c', List.getElem?_set_self hbound,
      DispatchCall.armed_of_step ?_ ?_ hone harmed⟩
    · rintro error rfl
      exact houtside hj
    · rintro rfl
      rw [permits, bne_iff_ne] at hpermits
      exact hpermits hj
  · exact ⟨c, (Family.getElem?_of_step_act hcalls hne).trans hget, harmed⟩

theorem ExecutesArmed.step (h : s.ExecutesArmed)
    (houtside : s.OutsideMethod a) (hstep : s.step a = some s') :
    s'.ExecutesArmed := by
  cases step_sound hstep with
  | call hheld hcalls =>
      obtain ⟨-, rfl⟩ := Dispatcher.step_create_iff.mp hcalls
      intro i hi
      obtain ⟨c, hget, harmed⟩ := h i hi
      have hbound := (List.getElem?_eq_some_iff.mp hget).1
      exact ⟨c, (List.getElem?_append_left hbound).trans hget, harmed⟩
  | enter hcalls =>
      obtain ⟨c, c', hget, hone, rfl⟩ := Family.step_act_eq_some_iff.mp hcalls
      intro j hj
      obtain rfl := Executing.call.inj hj
      have hbound := (List.getElem?_eq_some_iff.mp hget).1
      exact ⟨c', List.getElem?_set_self hbound,
        (DispatchCall.queued_of_step_run hone).2⟩
  | enterFramework => exact nofun
  | leave hcall => exact nofun
  | leaveHardStop hstop => exact nofun
  | act hpermits hcalls => exact h.act hpermits houtside hcalls
  | drop hheld hreturned => exact h
  | hardStop hdropping => exact nofun
  | free hdropping => exact h

theorem executesArmed_of_guarded
    (hguard : Guarded step OutsideMethod new as)
    (hrun : run step new as = some s) : s.ExecutesArmed := by
  have hnew : new.ExecutesArmed := by
    intro i hi
    cases hi
  exact guarded_invariant (P := ExecutesArmed)
    (fun _ _ _ h houtside hstep => h.step houtside hstep) hnew hguard hrun

/-! ## Behind the hard stop -/

/-- The handle has been dropped, and no call executes. -/
def Quiet (s : HeldVm) : Prop :=
  s.holding ≠ .held ∧ ∀ i, s.executing ≠ .call i

/-- Once no call executes behind the drop, none does again. -/
theorem Quiet.step (h : s.Quiet) (hrun : run step new as = some s)
    (hstep : s.step a = some s') : s'.Quiet := by
  obtain ⟨hdropped, hnone⟩ := h
  cases step_sound hstep with
  | call hheld hcalls => exact absurd hheld hdropped
  | enter hcalls =>
      exact absurd (waitsFor_of_step_enter hrun hstep).1 hdropped
  | enterFramework => exact ⟨hdropped, nofun⟩
  | leave hcall => exact ⟨hdropped, nofun⟩
  | leaveHardStop hstop => exact ⟨nofun, nofun⟩
  | act hpermits hcalls => exact ⟨hdropped, hnone⟩
  | drop hheld hreturned => exact absurd hheld hdropped
  | hardStop hdropping => exact ⟨hdropped, nofun⟩
  | free hdropping => exact ⟨nofun, hnone⟩

theorem Quiet.of_run {bs : List Action} (h : s.Quiet)
    (hrun : run HeldVm.step new as = some s)
    (hmore : run HeldVm.step s bs = some s') : s'.Quiet := by
  induction bs using List.reverseRecOn generalizing s' with
  | nil => exact Option.some.inj hmore ▸ h
  | append_singleton bs a ih =>
      obtain ⟨t, ht, hstep⟩ := run_concat_eq_some_iff.mp hmore
      exact (ih ht).step (run_trans hrun ht) hstep

/-- When the drop's `exec_sync` has returned, no call executes. -/
theorem quiet_of_stopped (hrun : run step new as = some s)
    (hstopped : s.holding = .stopped) : s.Quiet := by
  induction as using List.reverseRecOn generalizing s with
  | nil =>
      obtain rfl := Option.some.inj hrun
      cases hstopped
  | append_singleton as a ih =>
      obtain ⟨t, ht, hstep⟩ := run_concat_eq_some_iff.mp hrun
      have hbefore : t.holding = .stopped → s.Quiet :=
        fun ht' => (ih ht ht').step ht hstep
      cases step_sound hstep with
      | leaveHardStop hstop => exact ⟨nofun, nofun⟩
      | drop hheld hreturned => cases hstopped
      | free hdropping => cases hstopped
      | _ => exact hbefore hstopped

/-! ## The whole life -/

/-- **The machine's address is used only while the machine lives.**  In every
run of calls, queue, framework and drop, the block of a call starts while the
handle is held and its owner waits for this call; and where no method invokes
its completion handler before it returns, it executes only so long.  From the
drop on no block of a call is on the queue, and once the hard stop of a drop
has been waited for, none executes either, whatever the methods did. -/
theorem executes_only_while_held (as : List Action) (s : HeldVm)
    (hrun : run step new as = some s) :
    (∀ i s', s.step (.enter i) = some s' → s.WaitsFor i) ∧
    (Guarded step OutsideMethod new as →
      ∀ i, s.executing = .call i → s.WaitsFor i) ∧
    (s.holding ≠ .held → ∀ c ∈ s.calls, c.queued = false) ∧
    (s.holding = .stopped → ∀ bs s', run step s bs = some s' →
      ∀ i, s'.executing ≠ .call i) := by
  refine ⟨?_, ?_, queued_of_not_held hrun, ?_⟩
  · intro i s' hstep
    exact waitsFor_of_step_enter hrun hstep
  · intro hguard i hi
    obtain ⟨c, hget, harmed⟩ := executesArmed_of_guarded hguard hrun i hi
    have hcalls := projects_dispatcher.run hrun
    exact waitsFor_of_not_hasReturned hrun hget
      (Dispatcher.not_hasReturned_of_armed hcalls hget harmed)
  · intro hstopped bs s' hmore
    exact ((quiet_of_stopped hrun hstopped).of_run hrun hmore).2

/-- A machine that is started by a method which answers before it returns, and
whose handle is dropped meanwhile. -/
def answersInside : List Action :=
  [.call (.vzOp .start), .enter 0, .act 0 (.invoke none), .act 0 .receive]

/-- Without the hard stop the machine is freed under the method. -/
example : ∃ s, run step new (answersInside ++ [.drop false, .free]) = some s ∧
    s.holding = .freed ∧ s.executing = .call 0 := ⟨_, rfl, rfl, rfl⟩

/-- With it the drop waits for the method. -/
theorem executes_only_while_held_answersInside :
    ∃ s, run step new (answersInside ++
        [.drop true, .leave, .enterFramework, .leave, .hardStop, .leave]) =
          some s ∧
      s.holding = .stopped ∧ ∀ bs s', run step s bs = some s' →
        ∀ i, s'.executing ≠ .call i := by
  have hrun : ∃ s, run step new (answersInside ++
      [.drop true, .leave, .enterFramework, .leave, .hardStop, .leave]) =
        some s ∧ s.holding = .stopped := ⟨_, rfl, rfl⟩
  obtain ⟨s, hs, hstopped⟩ := hrun
  exact ⟨s, hs, hstopped,
    (executes_only_while_held _ s hs).2.2.2 hstopped⟩

end HeldVm

end Kasou
