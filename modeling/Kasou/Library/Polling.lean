import Mathlib.Data.List.Basic

/-!
# Polling up to a deadline

A loop asks for an answer, reads the clock when there is none, gives up if the
deadline has passed, and pauses before it asks again.  The length of the pause
bounds the number of rounds.
-/

/-- What a polling loop meets: the time at which it begins, and for each round
its answer and the clock reading after it.  From one reading to the next at
least `pause` goes by. -/
structure Polling (α : Type*) (pause : Nat) where
  start : Nat
  answer : Nat → Option α
  clock : Nat → Nat
  start_le : start ≤ clock 0
  clock_add_le : ∀ i, clock i + pause ≤ clock (i + 1)

namespace Polling

variable {α : Type*} {pause : Nat} (p : Polling α pause)

/-- Round `i` has no answer, and the deadline has not passed after it. -/
def GoesOn (deadline i : Nat) : Prop :=
  p.answer i = none ∧ p.clock i < deadline

/-- The readings are at least as far apart as the pauses between them. -/
theorem start_add_le_clock (i : Nat) : p.start + i * pause ≤ p.clock i := by
  induction i with
  | zero =>
      rw [Nat.zero_mul, Nat.add_zero]
      exact p.start_le
  | succ i ih =>
      calc
        p.start + (i + 1) * pause = p.start + i * pause + pause := by
          rw [Nat.succ_mul, Nat.add_assoc]
        _ ≤ p.clock i + pause := Nat.add_le_add_right ih pause
        _ ≤ p.clock (i + 1) := p.clock_add_le i

/-- The loop goes on for no more rounds than pauses are begun before the
timeout is over. -/
theorem rounds_le {timeout n : Nat} (hpause : 0 < pause)
    (h : ∀ i < n, p.GoesOn (p.start + timeout) i) :
    n ≤ (timeout + pause - 1) / pause := by
  rw [Nat.le_div_iff_mul_le hpause]
  cases n with
  | zero =>
      rw [Nat.zero_mul]
      exact Nat.zero_le _
  | succ n =>
      have hreading := p.start_add_le_clock n
      have hearly := (h n (Nat.lt_succ_self n)).2
      rw [Nat.succ_mul]
      omega

/-- One more round goes on. -/
theorem goesOn_succ {deadline n : Nat} (h : ∀ i < n, p.GoesOn deadline i)
    (hn : p.GoesOn deadline n) : ∀ i < n + 1, p.GoesOn deadline i := by
  intro i hi
  by_cases heq : i = n
  · exact heq ▸ hn
  · exact h i (by omega)

end Polling
