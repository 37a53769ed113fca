import Kasou.Library.TransitionSystem
import Mathlib.Data.List.Induction

/-!
# One-shot channels behind a callback

A block on a queue is to make a callback whose cell holds the only sender of a
channel.  The callback may be invoked any number of times before it is
released; the first invocation takes the sender out of the cell and sends.
The receiver returns with the message or, once the sender is gone without one,
with nothing.
-/

/-- The callback that is to send. -/
inductive OneShot.Handler where
  /-- The block that makes it has not run. -/
  | queued
  /-- Made; armed while its cell holds the sender. -/
  | alive (armed : Bool)
  | gone
  deriving DecidableEq

/-- A channel with its callback. -/
structure OneShot (ρ : Type*) where
  handler : OneShot.Handler
  message : Option ρ
  /-- What the receiver has returned with, if it has. -/
  received : Option (Option ρ)
  deriving DecidableEq

namespace OneShot

open TransitionSystem

variable {ρ : Type*}

/-- A new channel, with the block on the queue. -/
def new : OneShot ρ := ⟨.queued, none, none⟩

/-- Whether the sender still exists. -/
def Handler.hasSender : Handler → Bool
  | queued => true
  | alive armed => armed
  | gone => false

/-- What happens to a channel. -/
inductive Action (ρ : Type*) where
  /-- The queue runs the block. -/
  | run
  /-- The queue drops the block. -/
  | cancel
  | invoke (r : ρ)
  | release
  /-- The receiver returns. -/
  | receive

/-- Send to the receiver; what is sent to one that has returned is lost. -/
def send (s : OneShot ρ) (r : ρ) : OneShot ρ :=
  match s.received with
  | none => { s with handler := .alive false, message := some r }
  | some _ => { s with handler := .alive false }

/-- The step function of a channel. -/
def step (s : OneShot ρ) : Action ρ → Option (OneShot ρ)
  | .run =>
      match s.handler with
      | .queued => some { s with handler := .alive true }
      | _ => none
  | .cancel =>
      match s.handler with
      | .queued => some { s with handler := .gone }
      | _ => none
  | .invoke r =>
      match s.handler with
      | .alive true => some (s.send r)
      | .alive false => some s
      | _ => none
  | .release =>
      match s.handler with
      | .alive _ => some { s with handler := .gone }
      | _ => none
  | .receive =>
      match s.received, s.message with
      | none, some r =>
          some { s with message := none, received := some (some r) }
      | none, none =>
          if s.handler.hasSender then none
          else some { s with received := some none }
      | some _, _ => none

/-! ## What each step can do -/

section Inversion

variable {s s' : OneShot ρ}

theorem step_run_iff : s.step .run = some s' ↔
    s.handler = .queued ∧ s' = { s with handler := .alive true } := by
  cases hhandler : s.handler <;> simp [step, hhandler, eq_comm]

theorem step_cancel_iff : s.step .cancel = some s' ↔
    s.handler = .queued ∧ s' = { s with handler := .gone } := by
  cases hhandler : s.handler <;> simp [step, hhandler, eq_comm]

theorem step_invoke_iff {r : ρ} : s.step (.invoke r) = some s' ↔
    (s.handler = .alive true ∧ s' = s.send r) ∨
      (s.handler = .alive false ∧ s' = s) := by
  rcases hhandler : s.handler with _ | (_ | _) | _ <;>
    simp [step, hhandler, eq_comm]

theorem step_release_iff : s.step .release = some s' ↔
    (∃ armed, s.handler = .alive armed) ∧ s' = { s with handler := .gone } := by
  cases hhandler : s.handler <;> simp [step, hhandler, eq_comm]

theorem step_receive_iff : s.step .receive = some s' ↔
    s.received = none ∧
      ((∃ r, s.message = some r ∧
        s' = { s with message := none, received := some (some r) }) ∨
      (s.message = none ∧ s.handler.hasSender = false ∧
        s' = { s with received := some none })) := by
  simp only [step]
  cases hreceived : s.received with
  | some x => simp
  | none =>
      cases hmessage : s.message with
      | some r => simp [@eq_comm _ s']
      | none => cases hsender : s.handler.hasSender <;> simp [@eq_comm _ s']

/-- What the receiver has returned with stays. -/
theorem received_of_step {a : Action ρ} {x : Option ρ}
    (hstep : s.step a = some s') (hreceived : s.received = some x) :
    s'.received = some x := by
  cases a with
  | run =>
      obtain ⟨-, rfl⟩ := step_run_iff.mp hstep
      exact hreceived
  | cancel =>
      obtain ⟨-, rfl⟩ := step_cancel_iff.mp hstep
      exact hreceived
  | invoke r =>
      rcases step_invoke_iff.mp hstep with ⟨-, rfl⟩ | ⟨-, rfl⟩
      · simp [send, hreceived]
      · exact hreceived
  | release =>
      obtain ⟨-, rfl⟩ := step_release_iff.mp hstep
      exact hreceived
  | receive =>
      obtain ⟨hnone, -⟩ := step_receive_iff.mp hstep
      rw [hnone] at hreceived
      cases hreceived

end Inversion

/-! ## The first invocation decides -/

/-- The message of the first invocation. -/
def firstInvocation (as : List (Action ρ)) : Option ρ :=
  as.findSome? fun
    | .invoke r => some r
    | _ => none

/-- Where a channel is after the actions `as`. -/
inductive Phase (as : List (Action ρ)) (s : OneShot ρ) : Prop where
  /-- The sender waits for the first invocation. -/
  | pending (hfirst : firstInvocation as = none)
      (hsender : s.handler.hasSender = true) (hmessage : s.message = none)
      (hreceived : s.received = none)
  /-- The sender went without one. -/
  | dropped (hfirst : firstInvocation as = none)
      (hdropped : .release ∈ as ∨ .cancel ∈ as) (hgone : s.handler = .gone)
      (hmessage : s.message = none)
      (hreceived : s.received = none ∨ s.received = some none)
  /-- The first invocation has sent. -/
  | sent (r : ρ) (hfirst : firstInvocation as = some r)
      (hsender : s.handler.hasSender = false)
      (hmessage : s.message = some r ∧ s.received = none ∨
        s.message = none ∧ s.received = some (some r))

theorem firstInvocation_concat (as : List (Action ρ)) (a : Action ρ) :
    firstInvocation (as ++ [a]) =
      (firstInvocation as).or (firstInvocation [a]) := by
  rw [firstInvocation, List.findSome?_append]
  rfl

/-- While the sender is there, nothing was sent and nothing received. -/
theorem Phase.of_hasSender {as : List (Action ρ)} {s : OneShot ρ}
    (h : Phase as s) (hsender : s.handler.hasSender = true) :
    firstInvocation as = none ∧ s.message = none ∧ s.received = none := by
  cases h with
  | pending hfirst _ hmessage hreceived =>
      exact ⟨hfirst, hmessage, hreceived⟩
  | dropped _ _ hgone =>
      rw [hgone] at hsender
      cases hsender
  | sent r _ hnone =>
      rw [hnone] at hsender
      cases hsender

theorem Phase.step {as : List (Action ρ)} {s s' : OneShot ρ} {a : Action ρ}
    (h : Phase as s) (hstep : s.step a = some s') : Phase (as ++ [a]) s' := by
  have hfirstConcat := firstInvocation_concat as a
  cases a with
  | run =>
      obtain ⟨hhandler, rfl⟩ := step_run_iff.mp hstep
      obtain ⟨hfirst, hmessage, hreceived⟩ :=
        h.of_hasSender (by rw [hhandler]; rfl)
      exact .pending (by rw [hfirstConcat, hfirst]; rfl) rfl hmessage hreceived
  | cancel =>
      obtain ⟨hhandler, rfl⟩ := step_cancel_iff.mp hstep
      obtain ⟨hfirst, hmessage, hreceived⟩ :=
        h.of_hasSender (by rw [hhandler]; rfl)
      exact .dropped (by rw [hfirstConcat, hfirst]; rfl) (by simp) rfl
        hmessage (Or.inl hreceived)
  | invoke r =>
      rcases step_invoke_iff.mp hstep with ⟨hhandler, rfl⟩ | ⟨hhandler, rfl⟩
      · obtain ⟨hfirst, hmessage, hreceived⟩ :=
          h.of_hasSender (by rw [hhandler]; rfl)
        refine .sent r (by rw [hfirstConcat, hfirst]; rfl) ?_ (Or.inl ?_)
        · simp [send, hreceived, Handler.hasSender]
        · simp [send, hreceived]
      · cases h with
        | pending hfirst hsender hmessage hreceived =>
            rw [hhandler] at hsender
            cases hsender
        | dropped hfirst hdropped hgone hmessage hreceived =>
            rw [hhandler] at hgone
            cases hgone
        | sent r' hfirst hsender hmessage =>
            exact .sent r' (by rw [hfirstConcat, hfirst]; rfl) hsender hmessage
  | release =>
      obtain ⟨⟨armed, hhandler⟩, rfl⟩ := step_release_iff.mp hstep
      cases h with
      | pending hfirst hsender hmessage hreceived =>
          exact .dropped (by rw [hfirstConcat, hfirst]; rfl) (by simp) rfl
            hmessage (Or.inl hreceived)
      | dropped hfirst hdropped hgone hmessage hreceived =>
          rw [hhandler] at hgone
          cases hgone
      | sent r hfirst hsender hmessage =>
          exact .sent r (by rw [hfirstConcat, hfirst]; rfl) rfl hmessage
  | receive =>
      obtain ⟨hnone, hcases⟩ := step_receive_iff.mp hstep
      cases h with
      | pending hfirst hsender hmessage hreceived =>
          rcases hcases with ⟨r, hr, rfl⟩ | ⟨-, hgone, rfl⟩
          · rw [hmessage] at hr
            cases hr
          · rw [hsender] at hgone
            cases hgone
      | dropped hfirst hdropped hgone hmessage hreceived =>
          rcases hcases with ⟨r, hr, rfl⟩ | ⟨-, -, rfl⟩
          · rw [hmessage] at hr
            cases hr
          · exact .dropped (by rw [hfirstConcat, hfirst]; rfl)
              (hdropped.imp (List.mem_append_left _) (List.mem_append_left _))
              hgone hmessage (Or.inr rfl)
      | sent r hfirst hsender hmessage =>
          rcases hmessage with ⟨hmessage, -⟩ | ⟨-, hreceived⟩
          · rcases hcases with ⟨r', hr', rfl⟩ | ⟨hempty, -, rfl⟩
            · obtain rfl := Option.some.inj (hmessage.symm.trans hr')
              exact .sent r (by rw [hfirstConcat, hfirst]; rfl) hsender
                (Or.inr ⟨rfl, rfl⟩)
            · rw [hmessage] at hempty
              cases hempty
          · rw [hnone] at hreceived
            cases hreceived

theorem phase_of_run {as : List (Action ρ)} {s : OneShot ρ}
    (hrun : run OneShot.step new as = some s) : Phase as s := by
  induction as using List.reverseRecOn generalizing s with
  | nil =>
      obtain rfl := Option.some.inj hrun
      exact .pending rfl rfl rfl rfl
  | append_singleton as a ih =>
      obtain ⟨s', hrun', hstep⟩ := run_concat_eq_some_iff.mp hrun
      exact (ih hrun').step hstep

/-- The receiver returns with the message of the first invocation, or with
nothing when the sender went without one. -/
theorem received_eq {as : List (Action ρ)} {s : OneShot ρ} {x : Option ρ}
    (hrun : run OneShot.step new as = some s) (hx : s.received = some x) :
    firstInvocation as = x ∧
      (x = none → .release ∈ as ∨ .cancel ∈ as) := by
  cases phase_of_run hrun with
  | pending hfirst hsender hmessage hreceived =>
      rw [hx] at hreceived
      cases hreceived
  | dropped hfirst hdropped hgone hmessage hreceived =>
      rw [hx] at hreceived
      rcases hreceived with hreceived | hreceived
      · cases hreceived
      · obtain rfl := Option.some.inj hreceived
        exact ⟨hfirst, fun _ => hdropped⟩
  | sent r hfirst hsender hmessage =>
      rcases hmessage with ⟨-, hreceived⟩ | ⟨-, hreceived⟩
      · rw [hx] at hreceived
        cases hreceived
      · obtain rfl := Option.some.inj (hx.symm.trans hreceived)
        exact ⟨hfirst, fun hnone => by cases hnone⟩

end OneShot
