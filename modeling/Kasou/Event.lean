import Kasou.Library.Broadcast
import Kasou.Types

/-!
# Lifecycle events

The events that a handle broadcasts to its subscribers, and the clock readings
that time them.
-/

namespace Kasou

/-- A reading of the monotone clock, in nanoseconds. -/
abbrev Instant := Nat

/-- A span of time. -/
structure Duration where
  secs : UInt64
  subsecNanos : Fin 1000000000
  deriving DecidableEq

/-- The whole span in nanoseconds. -/
def Duration.asNanos (d : Duration) : Nat :=
  1000000000 * d.secs.toNat + d.subsecNanos

/-- The first clock reading whose seconds no longer fit in an `i64`. -/
def Instant.limit : Nat := 1000000000 * 0x8000000000000000

/-- `Instant::checked_add`. -/
def Instant.checkedAdd (t : Instant) (d : Duration) : Option Instant :=
  if t + d.asNanos < Instant.limit then some (t + d.asNanos) else none

/-- The kind of an event. -/
inductive VmEventKind where
  | stateChanged (fromState toState : VmState)
  | bootComplete (durationMs : UInt64)
  | shutdownRequested
  | crashed (reason : Text)
  | networkUp (mac : MacAddress)
  | networkDown (reason : Text)
  | snapshotCreated (path : Path)
  | snapshotRestored (path : Path)
  | ipAssigned (ip : Text)
  | forceStop
  deriving DecidableEq

/-- The transition that an event reports, if it reports one. -/
def VmEventKind.stateChange : VmEventKind → Option (VmState × VmState)
  | .stateChanged fromState toState => some (fromState, toState)
  | _ => none

/-- A lifecycle event. -/
structure VmEvent where
  timestamp : Instant
  vmId : VmId
  kind : VmEventKind
  deriving DecidableEq

/-- The transitions reported by a list of events, in order. -/
def stateChanges (events : List VmEvent) : List (VmState × VmState) :=
  events.filterMap fun event => event.kind.stateChange

@[simp] theorem stateChanges_append (es fs : List VmEvent) :
    stateChanges (es ++ fs) = stateChanges es ++ stateChanges fs := by
  simp [stateChanges]

theorem stateChanges_singleton (e : VmEvent) :
    stateChanges [e] = e.kind.stateChange.toList := by
  cases h : e.kind.stateChange <;> simp [stateChanges, h]

end Kasou
