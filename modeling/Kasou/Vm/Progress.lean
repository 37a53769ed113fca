import Kasou.Vm.Step

/-!
# Every call returns

A call waits for nothing but the answer of the framework: the host thread is
never stuck outside `rx.recv()`, and it has at most eight moves to make from
the invocation of a method to its return, the answer included.  Delegate
callbacks may fall between any two moves.  `wait_for_ip` waits for a lease as
well.
-/

namespace Kasou

/-! ## How much is left of a call -/

/-- The body returns after at most `n` moves, whatever is read and
answered. -/
def Body.Within : Body → Nat → Prop
  | .readState rest, n + 1 => ∀ s, (rest s).Within n
  | .readClock rest, n + 1 => ∀ t, (rest t).Within n
  -- the dispatch, the answer and its receipt
  | .dispatchVzOp _ rest, n + 3 => rest.Within n
  | .dispatchVzUrlOp _ _ rest, n + 3 => rest.Within n
  | .send _ rest, n + 1 => rest.Within n
  | .emit _ rest, n + 1 => rest.Within n
  | .syncFile _ rest, n + 1 => rest.Within n
  | .finish _, _ + 1 => True
  | _, _ => False

/-- The call in flight is `call`, and it returns after at most `n` moves. -/
def Thread.Within (call : HostCall) : Thread → Nat → Prop
  | .idle, _ => False
  | .running c body, n => c = call ∧ body.Within n
  | .waiting c _ rest, n + 2 => c = call ∧ rest.Within n
  | .answered c _ _ rest, n + 1 => c = call ∧ rest.Within n
  | _, _ => False

/-- The call in flight. -/
def Thread.call : Thread → Option HostCall
  | .idle => none
  | .running call _ | .waiting call _ _ | .answered call _ _ _ => some call

/-- Whether the step is a move of a call: one of the host thread, or the
answer that it waits for. -/
def Action.isMove : Action → Bool
  | .host _ | .sync _ | .complete _ => true
  | .invoke _ | .poll _ _ | .guestDidStop | .didStopWithError _ => false

/-- The moves of a schedule. -/
def moves (as : List Action) : Nat := as.countP Action.isMove

theorem Body.Within.pos {body : Body} {n : Nat} (h : body.Within n) :
    0 < n := by
  cases n with
  | zero => cases body <;> exact h.elim
  | succ n => exact Nat.succ_pos n

theorem Body.Within.succ {body : Body} {n : Nat} (h : body.Within n) :
    body.Within (n + 1) := by
  induction body generalizing n with
  | readState rest ih =>
      cases n with
      | zero => exact h.elim
      | succ n => exact fun s => ih s (h s)
  | readClock rest ih =>
      cases n with
      | zero => exact h.elim
      | succ n => exact fun t => ih t (h t)
  | dispatchVzOp op rest ih =>
      match n, h with
      | n + 3, h => exact ih h
  | dispatchVzUrlOp op path rest ih =>
      match n, h with
      | n + 3, h => exact ih h
  | send v rest ih =>
      cases n with
      | zero => exact h.elim
      | succ n => exact ih h
  | emit kind rest ih =>
      cases n with
      | zero => exact h.elim
      | succ n => exact ih h
  | syncFile path rest ih =>
      cases n with
      | zero => exact h.elim
      | succ n => exact ih h
  | pollLease mac timeout deadline => cases n <;> exact h.elim
  | finish outcome => trivial

theorem Body.Within.mono {body : Body} {m n : Nat} (h : body.Within m)
    (hle : m ≤ n) : body.Within n := by
  induction hle with
  | refl => exact h
  | step _ ih => exact ih.succ

theorem Thread.Within.pos {call : HostCall} {thread : Thread} {n : Nat}
    (h : thread.Within call n) : 0 < n := by
  cases n with
  | zero =>
      cases thread with
      | idle => exact h.elim
      | running c body => exact h.2.pos
      | waiting c op rest => exact h.elim
      | answered c op answer rest => exact h.elim
  | succ n => exact Nat.succ_pos n

theorem Thread.Within.mono {call : HostCall} {thread : Thread} {m n : Nat}
    (h : thread.Within call m) (hle : m ≤ n) : thread.Within call n := by
  cases thread with
  | idle => exact h.elim
  | running c body => exact ⟨h.1, h.2.mono hle⟩
  | waiting c op rest =>
      match m, h with
      | m + 2, h =>
        obtain ⟨k, rfl⟩ : ∃ k, n = k + 2 := ⟨n - 2, by omega⟩
        exact ⟨h.1, h.2.mono (by omega)⟩
  | answered c op answer rest =>
      match m, h with
      | m + 1, h =>
        obtain ⟨k, rfl⟩ : ∃ k, n = k + 1 := ⟨n - 1, by omega⟩
        exact ⟨h.1, h.2.mono (by omega)⟩

namespace VmHandle

/-- Every method but `wait_for_ip` returns after at most eight moves. -/
theorem body_within {config : VmConfig} {call : HostCall}
    (hother : ∀ timeout, call ≠ .waitForIp timeout) :
    (call.body config).Within 8 := by
  cases call with
  | start => exact fun _ => trivial
  | stop => exact fun _ => trivial
  | pause => exact fun _ => trivial
  | resume => exact fun _ => trivial
  | saveState path => exact trivial
  | restoreState path => exact fun _ => trivial
  | requestStop => exact trivial
  | waitForIp timeout => exact (hother timeout rfl).elim

/-! ## One move -/

/-- A move of the host thread brings the call nearer to its return. -/
theorem Moves.within {config : VmConfig} {state : VmState} {t t' : Thread}
    {call : HostCall} {n : Nat} (hmoves : Moves config state t t')
    (ht : t.Within call (n + 1)) : t'.Within call n := by
  cases hmoves with
  | invoke c => exact ht.elim
  | readState c rest => exact ⟨ht.1, ht.2 state⟩
  | readClock c rest now => exact ⟨ht.1, ht.2 now⟩
  | dispatch c op rest =>
      match n, ht with
      | n + 2, ht => exact ht
  | dispatchUrl c op path rest =>
      match n, ht with
      | n + 2, ht => exact ht
  | badPath c op path rest outcome =>
      match n, ht with
      | n + 2, ht => exact ⟨ht.1, trivial⟩
  | receive c op rest => exact ht
  | receiveError c op answer rest e herror =>
      obtain ⟨m, rfl⟩ : ∃ m, n = m + 1 := ⟨n - 1, by
        have := ht.2.pos
        omega⟩
      exact ⟨ht.1, trivial⟩
  | sync c path rest => exact ⟨ht.1, ht.2⟩
  | leaseFound c mac timeout deadline ip => exact ht.2.elim
  | deadlinePassed c mac timeout deadline outcome => exact ht.2.elim

/-- The call has returned. -/
def Returned (h : VmHandle) (call : HostCall) (h' : VmHandle) : Prop :=
  ∃ outcome, h.returns ++ [(call, outcome)] <+: h'.returns

/-- No step takes back what has been returned. -/
theorem Step.returns_grow {h h' : VmHandle} {a : Action}
    (hstep : Step h a h') : h.returns <+: h'.returns := by
  cases hstep with
  | finish now call outcome hthread => exact List.prefix_append _ _
  | callback a v hcallback => exact List.prefix_refl _
  | complete call op rest answer hthread => exact List.prefix_refl _
  | publish now call v rest hthread => exact List.prefix_refl _
  | emit now call kind rest hthread => exact List.prefix_refl _
  | pollAgain found now => exact List.prefix_refl _
  | move a thread hhost hmoves => exact List.prefix_refl _

theorem returns_grow_of_run {h h' : VmHandle} {more : List Action}
    (hrun : TransitionSystem.run step h more = some h') :
    h.returns <+: h'.returns := by
  refine TransitionSystem.run_invariant
    (P := fun g : VmHandle => h.returns <+: g.returns) ?_ (List.prefix_refl _) hrun
  intro g a g' hgrows hstep
  exact hgrows.trans (step_sound hstep).returns_grow

/-- A step brings the call in flight nearer to its return, if it is a move;
else it leaves it where it is. -/
theorem Step.within {h h' : VmHandle} {a : Action} {call : HostCall} {n : Nat}
    (hstep : Step h a h') (hwithin : h.thread.Within call (n + 1)) :
    (h'.thread = .idle ∧ Returned h call h') ∨ (h'.returns = h.returns ∧
      (h'.thread.Within call n ∨
        (a.isMove = false ∧ h'.thread.Within call (n + 1)))) := by
  cases hstep with
  | callback a v hcallback =>
      refine Or.inr ⟨rfl, Or.inr ⟨?_, hwithin⟩⟩
      cases a <;> first | rfl | cases hcallback
  | complete c op rest answer hthread =>
      rw [hthread] at hwithin
      match n, hwithin with
      | n + 1, hwithin => exact Or.inr ⟨rfl, Or.inl hwithin⟩
  | publish now c v rest hthread =>
      rw [hthread] at hwithin
      exact Or.inr ⟨rfl, Or.inl hwithin⟩
  | emit now c kind rest hthread =>
      rw [hthread] at hwithin
      exact Or.inr ⟨rfl, Or.inl hwithin⟩
  | finish now c outcome hthread =>
      rw [hthread] at hwithin
      obtain ⟨rfl, -⟩ := hwithin
      exact Or.inl ⟨rfl, outcome, List.prefix_refl _⟩
  | pollAgain found now => exact Or.inr ⟨rfl, Or.inr ⟨rfl, hwithin⟩⟩
  | move a thread hhost hmoves =>
      exact Or.inr ⟨rfl, Or.inl (hmoves.within hwithin)⟩

theorem moves_cons (a : Action) (as : List Action) :
    moves (a :: as) = moves as + a.isMove.toNat := by
  rw [moves, List.countP_cons]
  cases a.isMove <;> rfl

/-- A call with at most `n` moves to make has returned after `n` moves. -/
theorem returned_of_moves {h h' : VmHandle} {call : HostCall}
    {more : List Action} {n : Nat} (hwithin : h.thread.Within call n)
    (hrun : TransitionSystem.run step h more = some h')
    (hlong : n ≤ moves more) : Returned h call h' := by
  induction more generalizing h n with
  | nil => exact absurd hwithin.pos (Nat.not_lt.mpr hlong)
  | cons a more ih =>
      obtain ⟨g, hg, hmore⟩ := TransitionSystem.run_cons_eq_some_iff.mp hrun
      obtain ⟨m, rfl⟩ : ∃ m, n = m + 1 :=
        ⟨n - 1, by have := hwithin.pos; omega⟩
      have hcount := moves_cons a more
      rcases (step_sound hg).within hwithin with
        ⟨-, outcome, hreturned⟩ | ⟨hsame, hnear | ⟨hstays, hthere⟩⟩
      · exact ⟨outcome, hreturned.trans (returns_grow_of_run hmore)⟩
      · have hle : a.isMove.toNat ≤ 1 := Bool.toNat_le _
        rw [Returned, ← hsame]
        exact ih hnear hmore (by omega)
      · rw [hstays] at hcount
        rw [Returned, ← hsame]
        exact ih hthere hmore (by simpa [hcount] using hlong)

end VmHandle

/-! ## The next move -/

/-- The next move of the host thread in a body. -/
def Body.nextMove (now : Instant) (outcome : SyncOutcome) : Body → Action
  | .syncFile _ _ => .sync outcome
  | .readState _ | .readClock _ | .dispatchVzOp _ _ | .dispatchVzUrlOp _ _ _
  | .send _ _ | .emit _ _ | .pollLease _ _ _ | .finish _ => .host now

/-- The next move of the call in flight, with what may be answered to it. -/
def Thread.nextMove (now : Instant) (outcome : SyncOutcome) (answer : Answer) :
    Thread → Action
  | .waiting _ _ _ => .complete answer
  | .running _ body => body.nextMove now outcome
  | .idle | .answered _ _ _ _ => .host now

theorem Body.isMove_nextMove (now : Instant) (outcome : SyncOutcome)
    (body : Body) : (body.nextMove now outcome).isMove = true := by
  cases body <;> rfl

theorem Thread.isMove_nextMove (now : Instant) (outcome : SyncOutcome)
    (answer : Answer) (thread : Thread) :
    (thread.nextMove now outcome answer).isMove = true := by
  cases thread with
  | running c body => exact body.isMove_nextMove now outcome
  | idle | waiting _ _ _ | answered _ _ _ _ => rfl

namespace VmHandle

/-- The host thread is not stuck in a body that returns. -/
theorem exists_step_body {h : VmHandle} {call : HostCall} {body : Body}
    {n : Nat} (hthread : h.thread = .running call body)
    (hwithin : body.Within n) (now : Instant) (outcome : SyncOutcome) :
    ∃ h', h.step (body.nextMove now outcome) = some h' := by
  have hhost : h.step (.host now) = h.stepBody now call body := by
    rw [step, stepHost, hthread]
  cases body with
  | readState rest => exact ⟨_, hhost⟩
  | readClock rest => exact ⟨_, hhost⟩
  | dispatchVzOp op rest => exact ⟨_, hhost⟩
  | dispatchVzUrlOp op path rest =>
      cases hpath : path.toStr with
      | none => exact ⟨_, hhost.trans (by rw [stepBody, hpath])⟩
      | some url => exact ⟨_, hhost.trans (by rw [stepBody, hpath])⟩
  | send v rest => exact ⟨_, hhost⟩
  | emit kind rest => exact ⟨_, hhost⟩
  | syncFile path rest => exact ⟨_, by rw [Body.nextMove, step, hthread]⟩
  | pollLease mac timeout deadline => cases n <;> exact hwithin.elim
  | finish o => exact ⟨_, hhost⟩

/-- The host thread is not stuck in a call that returns, whatever it is
answered. -/
theorem exists_step_nextMove {h : VmHandle} {call : HostCall} {n : Nat}
    (hwithin : h.thread.Within call n) (now : Instant)
    (outcome : SyncOutcome) (answer : Answer) :
    ∃ h', h.step (h.thread.nextMove now outcome answer) = some h' := by
  cases hthread : h.thread with
  | idle =>
      rw [hthread] at hwithin
      exact hwithin.elim
  | running c body =>
      rw [hthread] at hwithin
      exact exists_step_body hthread hwithin.2 now outcome
  | waiting c op rest => exact ⟨_, by rw [Thread.nextMove, step, hthread]⟩
  | answered c op reply rest =>
      cases hresult : reply.result op with
      | ok value =>
          refine ⟨h.setThread (.running c rest), ?_⟩
          simp only [Thread.nextMove, step, stepHost, hthread, hresult]
      | error e =>
          refine ⟨h.setThread (.running c (.finish (.returned (.error e)))), ?_⟩
          simp only [Thread.nextMove, step, stepHost, hthread, hresult]

theorem mem_nextMove (now : Instant) (outcome : SyncOutcome)
    (answer : Answer) (thread : Thread) :
    thread.nextMove now outcome answer ∈
      [.host now, .sync outcome, .complete answer] := by
  cases thread with
  | running c body => cases body <;> simp [Thread.nextMove, Body.nextMove]
  | idle | waiting _ _ _ | answered _ _ _ _ => simp [Thread.nextMove]

/-- A call with at most `n` moves to make can make them, and returns. -/
theorem exists_run_returned {h : VmHandle} {call : HostCall} {n : Nat}
    (hwithin : h.thread.Within call n) (now : Instant)
    (outcome : SyncOutcome) (answer : Answer) :
    ∃ more h', more.length ≤ n ∧
      (∀ a ∈ more, a ∈ [.host now, .sync outcome, .complete answer]) ∧
      TransitionSystem.run step h more = some h' ∧ Returned h call h' := by
  induction n generalizing h with
  | zero => exact absurd hwithin.pos (Nat.lt_irrefl 0)
  | succ n ih =>
      obtain ⟨g, hg⟩ := exists_step_nextMove hwithin now outcome answer
      have hmember := mem_nextMove now outcome answer h.thread
      rcases (step_sound hg).within hwithin with ⟨-, hdone⟩ |
        ⟨hsame, hnear | ⟨hstays, -⟩⟩
      · refine ⟨[_], g, Nat.le_add_left 1 n, ?_,
          TransitionSystem.run_cons_eq_some_iff.mpr ⟨g, hg, rfl⟩, hdone⟩
        exact List.forall_mem_singleton.mpr hmember
      · obtain ⟨more, h', hlength, hmoves, hrun, hreturned⟩ := ih hnear
        refine ⟨_ :: more, h', Nat.succ_le_succ hlength, ?_,
          TransitionSystem.run_cons_eq_some_iff.mpr ⟨g, hg, hrun⟩, ?_⟩
        · exact List.forall_mem_cons.mpr ⟨hmember, hmoves⟩
        · rwa [Returned, ← hsame]
      · rw [Thread.isMove_nextMove] at hstays
        cases hstays

/-! ## Reachable states -/

/-- The call in flight, if there is one, waits for a lease, or it returns
after at most eight moves. -/
def OnTime (h : VmHandle) : Prop :=
  ∀ call, h.thread.call = some call →
    (∀ timeout, call ≠ .waitForIp timeout) → h.thread.Within call 8

/-- A move of the host thread stays in its call, or it begins one. -/
theorem Moves.call_eq {config : VmConfig} {state : VmState} {t t' : Thread}
    (hmoves : Moves config state t t') :
    t'.call = t.call ∨ ∃ call, t' = .running call (call.body config) := by
  cases hmoves with
  | invoke call => exact Or.inr ⟨call, rfl⟩
  | readState call rest => exact Or.inl rfl
  | readClock call rest now => exact Or.inl rfl
  | dispatch call op rest => exact Or.inl rfl
  | dispatchUrl call op path rest => exact Or.inl rfl
  | badPath call op path rest outcome => exact Or.inl rfl
  | receive call op rest => exact Or.inl rfl
  | receiveError call op answer rest e herror => exact Or.inl rfl
  | sync call path rest => exact Or.inl rfl
  | leaseFound call mac timeout deadline ip => exact Or.inl rfl
  | deadlinePassed call mac timeout deadline outcome => exact Or.inl rfl

/-- A step stays in the call in flight, ends it, or begins one. -/
theorem Step.call_eq {h h' : VmHandle} {a : Action} (hstep : Step h a h') :
    h'.thread = .idle ∨ h'.thread.call = h.thread.call ∨
      ∃ call, h'.thread = .running call (call.body h.config) := by
  cases hstep with
  | callback a v hcallback => exact Or.inr (Or.inl rfl)
  | complete call op rest answer hthread =>
      rw [hthread]
      exact Or.inr (Or.inl rfl)
  | publish now call v rest hthread =>
      rw [hthread]
      exact Or.inr (Or.inl rfl)
  | emit now call kind rest hthread =>
      rw [hthread]
      exact Or.inr (Or.inl rfl)
  | finish now call outcome hthread => exact Or.inl rfl
  | pollAgain found now => exact Or.inr (Or.inl rfl)
  | move a thread hhost hmoves => exact Or.inr hmoves.call_eq

theorem Step.onTime {h h' : VmHandle} {a : Action} (hstep : Step h a h')
    (h₀ : h.OnTime) : h'.OnTime := by
  intro call hcall hother
  rcases hstep.call_eq with hidle | hsame | ⟨c, hbegins⟩
  · rw [hidle] at hcall
    cases hcall
  · have hwithin := h₀ call (hsame ▸ hcall) hother
    rcases hstep.within hwithin with ⟨hidle, -⟩ | ⟨-, hnear | ⟨-, hthere⟩⟩
    · rw [hidle] at hcall
      cases hcall
    · exact hnear.mono (Nat.le_succ 7)
    · exact hthere
  · rw [hbegins] at hcall ⊢
    obtain rfl := Option.some.inj hcall
    exact ⟨rfl, body_within hother⟩

theorem onTime_of_run {config : VmConfig} {schedule : List Action}
    {h : VmHandle}
    (hrun : TransitionSystem.run step (create config) schedule = some h) :
    h.OnTime := by
  refine TransitionSystem.run_invariant ?_ ?_ hrun
  · intro g a g' hontime hstep
    exact (step_sound hstep).onTime hontime
  · intro call hcall
    cases hcall

/-- **Every call returns**, but `wait_for_ip`, in every run of a handle.
Wherever a call is, the host thread can bring it to its return in at most
eight moves, whatever the framework answers; and whatever else happens, the
call has returned after eight moves. -/
theorem call_returns {config : VmConfig} {schedule : List Action}
    {h : VmHandle} {call : HostCall}
    (hrun : TransitionSystem.run step (create config) schedule = some h)
    (hcall : h.thread.call = some call)
    (hother : ∀ timeout, call ≠ .waitForIp timeout) :
    (∀ now outcome answer, ∃ more h', more.length ≤ 8 ∧
      (∀ a ∈ more, a ∈ [.host now, .sync outcome, .complete answer]) ∧
      TransitionSystem.run step h more = some h' ∧ Returned h call h') ∧
    ∀ more h', TransitionSystem.run step h more = some h' →
      8 ≤ moves more → Returned h call h' := by
  have hwithin := onTime_of_run hrun call hcall hother
  constructor
  · intro now outcome answer
    exact exists_run_returned hwithin now outcome answer
  · intro more h' hmore hlong
    exact returned_of_moves hwithin hmore hlong

/-- A save that waits for the framework's answer. -/
theorem call_returns_save :
    ∃ h, TransitionSystem.run step (create smokeConfig)
        [.invoke (.saveState (rootFile "vm.snapshot")), .host 0] = some h ∧
      ∀ more h', TransitionSystem.run step h more = some h' →
        8 ≤ moves more →
          Returned h (.saveState (rootFile "vm.snapshot")) h' :=
  ⟨_, rfl, (@call_returns smokeConfig
    [.invoke (.saveState (rootFile "vm.snapshot")), .host 0] _ _ rfl rfl
    nofun).2⟩

end VmHandle
end Kasou
