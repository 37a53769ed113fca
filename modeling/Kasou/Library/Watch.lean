import Mathlib.Data.List.Chain

/-!
# Single-value watch channels

A watch channel holds one current value, and every send replaces it.  Readers
see only the current value; the channel is modelled by everything ever sent on
it, so that the values a reader could have seen can be compared with other
records of the same history.
-/

/-- A watch channel, as its initial value and all values sent since, oldest
first. -/
structure Watch (α : Type*) where
  initial : α
  sent : List α

namespace Watch

variable {α : Type*}

/-- A new channel holding `v`. -/
def channel (v : α) : Watch α := ⟨v, []⟩

/-- The value a reader sees now. -/
def borrow (w : Watch α) : α := w.sent.getLastD w.initial

/-- Replace the current value. -/
def send (w : Watch α) (v : α) : Watch α :=
  { w with sent := w.sent ++ [v] }

/-- Each send, as the value it replaced together with the value it put. -/
def replacements (w : Watch α) : List (α × α) :=
  (w.initial :: w.sent).zip w.sent

@[simp] theorem borrow_send (w : Watch α) (v : α) :
    (w.send v).borrow = v := by
  simp [borrow, send]

@[simp] theorem initial_send (w : Watch α) (v : α) :
    (w.send v).initial = w.initial := rfl

@[simp] theorem sent_send (w : Watch α) (v : α) :
    (w.send v).sent = w.sent ++ [v] := rfl

@[simp] theorem length_replacements (w : Watch α) :
    w.replacements.length = w.sent.length := by
  simp [replacements]

/-- The values put are the values sent. -/
@[simp] theorem replacements_map_snd (w : Watch α) :
    w.replacements.map Prod.snd = w.sent := by
  rw [replacements, List.map_snd_zip]
  simp

theorem zip_cons_concat (u v : α) (vs : List α) :
    (u :: (vs ++ [v])).zip (vs ++ [v]) =
      (u :: vs).zip vs ++ [(vs.getLastD u, v)] := by
  induction vs generalizing u with
  | nil => rfl
  | cons w vs ih =>
      rw [List.cons_append, List.zip_cons_cons, ih w, List.zip_cons_cons,
        List.cons_append, List.getLastD_cons]

/-- A send replaces what a reader would have seen just before it. -/
@[simp] theorem replacements_send (w : Watch α) (v : α) :
    (w.send v).replacements = w.replacements ++ [(w.borrow, v)] := by
  rw [replacements, initial_send, sent_send, zip_cons_concat]
  rfl

/-- Consecutive sends agree: each replaces the value that the one before it
put. -/
theorem isChain_replacements (w : Watch α) :
    w.replacements.IsChain (fun earlier later => later.1 = earlier.2) := by
  obtain ⟨u, vs⟩ := w
  induction vs generalizing u with
  | nil => exact List.IsChain.nil
  | cons v vs ih =>
      cases vs with
      | nil => exact List.IsChain.singleton _
      | cons v' vs => exact List.IsChain.cons_cons rfl (ih v)

/-- The first send replaces the initial value. -/
theorem head?_replacements (w : Watch α) :
    ∀ r ∈ w.replacements.head?, r.1 = w.initial := by
  obtain ⟨u, vs⟩ := w
  intro r hr
  cases vs with
  | nil => simp [replacements] at hr
  | cons v vs =>
      simp only [replacements, List.zip_cons_cons, List.head?_cons,
        Option.mem_def, Option.some.injEq] at hr
      rw [← hr]

/-- The last value put is the one a reader sees. -/
theorem getLast?_replacements (w : Watch α) :
    ∀ r ∈ w.replacements.getLast?, r.2 = w.borrow := by
  intro r hr
  have hlast : w.sent.getLast? = some r.2 := by
    rw [← replacements_map_snd, List.getLast?_map, Option.mem_def.mp hr]
    rfl
  rw [borrow, List.getLastD_eq_getLast?, hlast]
  rfl

/-- Of two consecutive sends, the later one replaces what the earlier one
put. -/
theorem mem_replacements {w : Watch α} {before after : List α} {u v : α}
    (hsent : w.sent = before ++ u :: v :: after) :
    (u, v) ∈ w.replacements := by
  obtain ⟨initial, sent⟩ := w
  obtain rfl : sent = before ++ u :: v :: after := hsent
  induction before generalizing initial with
  | nil => exact List.mem_cons_of_mem _ (List.mem_cons_self ..)
  | cons w before ih => exact List.mem_cons_of_mem _ (ih w)

end Watch
