import Mathlib.Data.List.Basic

/-!
# Broadcast channels

Every receiver of a broadcast channel gets each value sent after it subscribed,
in order, unless it lags behind and loses the oldest ones.  The channel is
modelled by everything ever sent on it, and a receiver by the number of values
that were sent before it subscribed.
-/

/-- A broadcast channel, as all values sent on it, oldest first. -/
structure Broadcast (ε : Type*) where
  sent : List ε

namespace Broadcast

variable {ε : Type*}

/-- A new channel. -/
def channel : Broadcast ε := ⟨[]⟩

/-- Send a value to all receivers. -/
def send (b : Broadcast ε) (e : ε) : Broadcast ε := ⟨b.sent ++ [e]⟩

/-- A receiver, as the number of values sent before it subscribed. -/
abbrev Receiver := Nat

/-- Subscribe now. -/
def subscribe (b : Broadcast ε) : Receiver := b.sent.length

/-- All that a receiver which has not lagged has been given so far. -/
def received (b : Broadcast ε) (r : Receiver) : List ε := b.sent.drop r

/-- What was sent before a receiver subscribed and what it has been given
since make up the whole history of a later channel. -/
theorem sent_eq_append_received {b b' : Broadcast ε}
    (h : b.sent <+: b'.sent) :
    b'.sent = b.sent ++ b'.received b.subscribe := by
  obtain ⟨later, hlater⟩ := h
  rw [received, subscribe, ← hlater, List.drop_left]

end Broadcast
