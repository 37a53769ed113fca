import Mathlib.Data.List.Basic

/-!
# The lifecycle states of a virtual machine

`VmState` as published to callers, with the tables `is_active`,
`can_transition_to` and `is_terminal`.  No operation of the handle consults
`canTransitionTo`: it states which transitions are meant to happen, and the
runs of the handle are compared with it elsewhere.
-/

namespace Kasou

/-- The lifecycle state of a virtual machine as seen from the host. -/
inductive VmState where
  | stopped
  | starting
  | running
  | pausing
  | paused
  | resuming
  | stopping
  | saving
  | restoring
  | error
  deriving DecidableEq, Repr

namespace VmState

/-- Whether the state is that of a machine that needs cleanup. -/
def isActive : VmState → Bool
  | starting | running | pausing | paused | resuming | saving | restoring =>
      true
  | stopped | stopping | error => false

/-- The transitions that are meant to happen. -/
def canTransitionTo : VmState → VmState → Bool
  -- normal lifecycle
  | stopped, starting
  | starting, running
  | running, pausing
  | pausing, paused
  | paused, resuming
  | resuming, running
  -- shutdown paths
  | running, stopping
  | paused, stopping
  | stopping, stopped
  -- guest-initiated stop
  | running, stopped
  -- save and restore
  | paused, saving
  | saving, paused
  | stopped, restoring
  | restoring, paused
  -- error from any active state
  | starting, error
  | running, error
  | pausing, error
  | paused, error
  | resuming, error
  | stopping, error
  | saving, error
  | restoring, error => true
  | _, _ => false

/-- Whether the machine can never be used again. -/
def isTerminal : VmState → Bool
  | error => true
  | _ => false

/-- The terminal states are those that no transition is meant to leave. -/
theorem isTerminal_iff (s : VmState) :
    s.isTerminal = true ↔ ∀ t, s.canTransitionTo t = false := by
  constructor
  · intro h t
    cases s <;> cases t <;> first | rfl | cases h
  · intro h
    cases s with
    | error => rfl
    | stopped => cases h starting
    | starting => cases h running
    | running => cases h pausing
    | pausing => cases h paused
    | paused => cases h resuming
    | resuming => cases h running
    | stopping => cases h stopped
    | saving => cases h paused
    | restoring => cases h paused

end VmState

end Kasou
