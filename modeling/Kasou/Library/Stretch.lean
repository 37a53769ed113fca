import Kasou.Library.Command
import Mathlib.Data.List.Basic

/-!
# Stretches of a sequence

Where some elements of a sequence close what stands before them, the sequence
is cut into closed stretches, each with the element that closes it.  What
stands after the last closing element is in no closed stretch.

A scanner that starts afresh at each closing element emits the results of the
closed stretches, each of which depends on its own stretch alone.
-/

namespace Stretch

variable {α β : Type*}

/-! ## Closed stretches -/

/-- The closed stretches, after `seen` of the first one. -/
def closedFrom (closes : α → Bool) (seen : List α) :
    List α → List (List α × α)
  | [] => []
  | x :: xs =>
      if closes x then (seen, x) :: closedFrom closes [] xs
      else closedFrom closes (seen ++ [x]) xs

/-- The closed stretches of a sequence, with the elements that close them. -/
abbrev closed (closes : α → Bool) (xs : List α) : List (List α × α) :=
  closedFrom closes [] xs

section Closed

variable {closes : α → Bool}

theorem closedFrom_cons_of_pos {x : α} (hx : closes x = true)
    (seen xs : List α) :
    closedFrom closes seen (x :: xs) = (seen, x) :: closed closes xs := by
  rw [closedFrom, if_pos hx]

theorem closedFrom_cons_of_neg {x : α} (hx : closes x = false)
    (seen xs : List α) :
    closedFrom closes seen (x :: xs) = closedFrom closes (seen ++ [x]) xs := by
  rw [closedFrom, hx]
  rfl

/-- After a closing element everything starts afresh. -/
theorem closedFrom_append_closing {d : α} (hd : closes d = true)
    (seen xs ys : List α) :
    closedFrom closes seen (xs ++ d :: ys) =
      closedFrom closes seen (xs ++ [d]) ++ closed closes ys := by
  induction xs generalizing seen with
  | nil =>
      rw [List.nil_append, List.nil_append, closedFrom_cons_of_pos hd,
        closedFrom_cons_of_pos hd]
      rfl
  | cons x xs ih =>
      rw [List.cons_append, List.cons_append]
      cases hx : closes x with
      | true =>
          rw [closedFrom_cons_of_pos hx, closedFrom_cons_of_pos hx, closed, ih]
          rfl
      | false => rw [closedFrom_cons_of_neg hx, closedFrom_cons_of_neg hx, ih]

/-- What comes later does not change the stretches that are closed. -/
theorem prefix_closedFrom (seen xs ys : List α) :
    closedFrom closes seen xs <+: closedFrom closes seen (xs ++ ys) := by
  induction xs generalizing seen with
  | nil => exact List.nil_prefix
  | cons x xs ih =>
      rw [List.cons_append]
      cases hx : closes x with
      | true =>
          rw [closedFrom_cons_of_pos hx, closedFrom_cons_of_pos hx]
          exact (List.prefix_cons_inj _).mpr (ih [])
      | false =>
          rw [closedFrom_cons_of_neg hx, closedFrom_cons_of_neg hx]
          exact ih (seen ++ [x])

theorem closedFrom_map (f : β → α) (seen xs : List β) :
    closedFrom closes (seen.map f) (xs.map f) =
      (closedFrom (closes ∘ f) seen xs).map
        fun s => (s.1.map f, f s.2) := by
  induction xs generalizing seen with
  | nil => rfl
  | cons x xs ih =>
      rw [List.map_cons]
      cases hx : closes (f x) with
      | true =>
          rw [closedFrom_cons_of_pos hx, closedFrom_cons_of_pos (by exact hx),
            List.map_cons]
          exact congrArg _ (ih [])
      | false =>
          rw [closedFrom_cons_of_neg hx, closedFrom_cons_of_neg (by exact hx),
            ← ih (seen ++ [x]), List.map_append]
          rfl

theorem forall_mem_getLast?_append_cons {P : α → Prop} {x : α}
    {xs ys : List α} (hx : P x) (hys : ∀ y ∈ ys.getLast?, P y) :
    ∀ y ∈ (xs ++ x :: ys).getLast?, P y := by
  intro y hy
  rw [List.getLast?_append, List.getLast?_cons] at hy
  cases hlast : ys.getLast? with
  | none =>
      rw [hlast] at hy
      obtain rfl : x = y := Option.some.inj hy
      exact hx
  | some z =>
      rw [hlast] at hy
      obtain rfl : z = y := Option.some.inj hy
      exact hys z hlast

/-- Where a closed stretch stands: behind the closing element before it, if
there is one, and in front of its own. -/
theorem exists_of_mem_closedFrom {seen xs stretch : List α} {d : α}
    (hseen : ∀ x ∈ seen, closes x = false)
    (h : (stretch, d) ∈ closedFrom closes seen xs) :
    ∃ before after, seen ++ xs = before ++ (stretch ++ d :: after) ∧
      closes d = true ∧ (∀ x ∈ stretch, closes x = false) ∧
        ∀ x ∈ before.getLast?, closes x = true := by
  induction xs generalizing seen with
  | nil => cases h
  | cons x xs ih =>
      cases hx : closes x with
      | true =>
          rw [closedFrom_cons_of_pos hx] at h
          rcases List.mem_cons.mp h with heq | hrest
          · obtain ⟨rfl, rfl⟩ := Prod.mk.inj heq
            exact ⟨[], xs, rfl, hx, hseen, nofun⟩
          · obtain ⟨before, after, hxs, hd, hstretch, hbefore⟩ :=
              ih (List.forall_mem_nil _) hrest
            refine ⟨seen ++ x :: before, after, ?_, hd, hstretch,
              forall_mem_getLast?_append_cons hx hbefore⟩
            rw [List.append_assoc, List.cons_append, ← hxs, List.nil_append]
      | false =>
          rw [closedFrom_cons_of_neg hx] at h
          have hseen' : ∀ y ∈ seen ++ [x], closes y = false := by
            intro y hy
            rcases List.mem_append.mp hy with hmem | hmem
            · exact hseen y hmem
            · rw [List.mem_singleton.mp hmem]
              exact hx
          obtain ⟨before, after, hxs, hrest⟩ := ih hseen' h
          refine ⟨before, after, ?_, hrest⟩
          rw [← hxs, List.append_assoc]
          rfl

end Closed

/-! ## Scanners -/

/-- **Scanning a sequence**: a reader whose state agrees with what was read of
the stretch, and which emits a result and starts afresh at each closing
element, emits the results of the closed stretches. -/
theorem foldl_eq_filterMap_closedFrom {σ : Type*} {closes : α → Bool}
    {apply : σ → α → σ} (results : σ → List β)
    (emit : List α × α → Option β) (Agrees : List α → σ → Prop)
    (hread : ∀ seen s x, closes x = false → Agrees seen s →
      Agrees (seen ++ [x]) (apply s x) ∧ results (apply s x) = results s)
    (hclose : ∀ seen s x, closes x = true → Agrees seen s →
      Agrees [] (apply s x) ∧
        results (apply s x) = results s ++ (emit (seen, x)).toList)
    {seen : List α} {s : σ} (hs : Agrees seen s) (xs : List α) :
    results (xs.foldl apply s) =
      results s ++ (closedFrom closes seen xs).filterMap emit := by
  induction xs generalizing seen s with
  | nil => exact (List.append_nil _).symm
  | cons x xs ih =>
      rw [List.foldl_cons]
      cases hx : closes x with
      | true =>
          obtain ⟨hagrees, hresults⟩ := hclose seen s x hx hs
          rw [ih hagrees, hresults, closedFrom_cons_of_pos hx,
            List.append_assoc]
          congr 1
          cases hemit : emit (seen, x) with
          | none => rw [List.filterMap_cons_none hemit]; rfl
          | some b => rw [List.filterMap_cons_some hemit]; rfl
      | false =>
          obtain ⟨hagrees, hresults⟩ := hread seen s x hx hs
          rw [ih hagrees, hresults, closedFrom_cons_of_neg hx]

/-- A scanner with registers that are emptied at each closing element makes
its results from the values given last in each closed stretch. -/
theorem foldl_registers {σ ρ ν : Type*} {closes : α → Bool}
    {apply : σ → α → σ} (results : σ → List β) (get : ρ → σ → Option ν)
    (slot : ρ → α → Option ν) (emit : (ρ → Option ν) → α → Option β)
    (hread : ∀ s x, closes x = false →
      (∀ r, get r (apply s x) = (slot r x).or (get r s)) ∧
        results (apply s x) = results s)
    (hclose : ∀ s x, closes x = true →
      (∀ r, get r (apply s x) = none) ∧
        results (apply s x) =
          results s ++ (emit (fun r => get r s) x).toList)
    {s : σ} (hs : ∀ r, get r s = none) (xs : List α) :
    results (xs.foldl apply s) =
      results s ++ (closed closes xs).filterMap fun t =>
        emit (fun r => Command.lastValue (slot r) t.1) t.2 := by
  refine foldl_eq_filterMap_closedFrom results _
    (fun seen s => ∀ r, get r s = Command.lastValue (slot r) seen)
    ?_ ?_ hs xs
  · intro seen s x hx hagrees
    refine ⟨fun r => ?_, (hread s x hx).2⟩
    rw [(hread s x hx).1 r, hagrees r, Command.lastValue_concat]
  · intro seen s x hx hagrees
    have hvalues : (fun r => get r s) =
        fun r => Command.lastValue (slot r) seen := funext hagrees
    rw [← hvalues]
    exact hclose s x hx

end Stretch
