import Kasou.Library.TransitionSystem
import Mathlib.Data.List.Induction

/-!
# Families of components

A family is a list of components that grows: an action either creates a
component or is an action of one that exists.  Each component runs through its
own actions only, whatever happens to the others in between.
-/

namespace Family

open TransitionSystem

variable {κ α β : Type*}

/-- The actions of a family. -/
inductive Action (α β : Type*) where
  | create (a : α)
  | act (i : Nat) (b : β)

/-- The step function of a family. -/
def step (make : List κ → α → Option κ) (stepOne : κ → β → Option κ)
    (cs : List κ) : Action α β → Option (List κ)
  | .create a => (make cs a).map fun c => cs ++ [c]
  | .act i b => cs[i]?.bind fun c => (stepOne c b).map fun c' => cs.set i c'

/-- What the components are created from, in order. -/
def creations (as : List (Action α β)) : List α :=
  as.filterMap fun
    | .create a => some a
    | .act _ _ => none

@[simp] theorem creations_concat_create (as : List (Action α β)) (a : α) :
    creations (as ++ [.create a]) = creations as ++ [a] := by
  simp [creations]

@[simp] theorem creations_concat_act (as : List (Action α β)) (i : Nat)
    (b : β) : creations (as ++ [.act i b]) = creations as := by
  simp [creations]

/-- The actions of one component. -/
def actionsOf (i : Nat) (as : List (Action α β)) : List β :=
  as.filterMap fun
    | .create _ => none
    | .act j b => if j = i then some b else none

theorem mem_actionsOf {i : Nat} {b : β} {as : List (Action α β)} :
    b ∈ actionsOf i as ↔ .act i b ∈ as := by
  rw [actionsOf, List.mem_filterMap]
  constructor
  · rintro ⟨a, ha, hb⟩
    cases a with
    | create _ => cases hb
    | act j b' =>
        by_cases hj : j = i
        · simp only [hj, if_true, Option.some.injEq] at hb
          exact hj ▸ hb ▸ ha
        · simp [hj] at hb
  · intro h
    exact ⟨_, h, if_pos rfl⟩

@[simp] theorem actionsOf_concat_create (i : Nat) (as : List (Action α β))
    (a : α) : actionsOf i (as ++ [.create a]) = actionsOf i as := by
  simp [actionsOf]

@[simp] theorem actionsOf_concat_self (i : Nat) (as : List (Action α β))
    (b : β) : actionsOf i (as ++ [.act i b]) = actionsOf i as ++ [b] := by
  simp [actionsOf]

theorem actionsOf_concat_of_ne {i j : Nat} (hj : j ≠ i)
    (as : List (Action α β)) (b : β) :
    actionsOf i (as ++ [.act j b]) = actionsOf i as := by
  simp [actionsOf, hj]

variable {make : List κ → α → Option κ} {stepOne : κ → β → Option κ}

theorem step_act_eq_some_iff {cs cs' : List κ} {i : Nat} {b : β} :
    step make stepOne cs (.act i b) = some cs' ↔
      ∃ c c', cs[i]? = some c ∧ stepOne c b = some c' ∧
        cs' = cs.set i c' := by
  simp only [step, Option.bind_eq_some_iff, Option.map_eq_some_iff]
  constructor
  · rintro ⟨c, hc, c', hc', rfl⟩
    exact ⟨c, c', hc, hc', rfl⟩
  · rintro ⟨c, c', hc, hc', rfl⟩
    exact ⟨c, hc, c', hc', rfl⟩

/-- An action of one component leaves every other as it is. -/
theorem getElem?_of_step_act {cs cs' : List κ} {i j : Nat} {b : β}
    (hstep : step make stepOne cs (.act i b) = some cs') (hj : j ≠ i) :
    cs'[j]? = cs[j]? := by
  obtain ⟨c, c', -, -, rfl⟩ := step_act_eq_some_iff.mp hstep
  exact List.getElem?_set_ne hj.symm

/-- Each creation makes one component. -/
theorem length_of_run {as : List (Action α β)} {cs : List κ}
    (hrun : run (step make stepOne) [] as = some cs) :
    cs.length = (creations as).length := by
  induction as using List.reverseRecOn generalizing cs with
  | nil =>
      obtain rfl := Option.some.inj hrun
      rfl
  | append_singleton as a ih =>
      obtain ⟨cs', hrun', hstep⟩ := run_concat_eq_some_iff.mp hrun
      cases a with
      | create a =>
          obtain ⟨c, -, rfl⟩ := Option.map_eq_some_iff.mp hstep
          rw [creations_concat_create, List.length_append, List.length_append,
            ih hrun', List.length_singleton, List.length_singleton]
      | act j b =>
          obtain ⟨c, c', -, -, rfl⟩ := step_act_eq_some_iff.mp hstep
          rw [creations_concat_act, List.length_set, ih hrun']

/-- A component that does not exist yet has not acted. -/
theorem actionsOf_eq_nil {as : List (Action α β)} {cs : List κ} {i : Nat}
    (hrun : run (step make stepOne) [] as = some cs) (hi : cs.length ≤ i) :
    actionsOf i as = [] := by
  induction as using List.reverseRecOn generalizing cs with
  | nil => rfl
  | append_singleton as a ih =>
      obtain ⟨cs', hrun', hstep⟩ := run_concat_eq_some_iff.mp hrun
      cases a with
      | create a =>
          obtain ⟨c, -, rfl⟩ := Option.map_eq_some_iff.mp hstep
          rw [List.length_append] at hi
          rw [actionsOf_concat_create]
          exact ih hrun' (by omega)
      | act j b =>
          obtain ⟨c, c', hc, -, rfl⟩ := step_act_eq_some_iff.mp hstep
          have hj := (List.getElem?_eq_some_iff.mp hc).1
          rw [List.length_set] at hi
          rw [actionsOf_concat_of_ne (by omega)]
          exact ih hrun' hi

/-- Each component has run through its own actions, from how it was made. -/
theorem component_run {as : List (Action α β)} {cs : List κ} {i : Nat} {c : κ}
    (hrun : run (step make stepOne) [] as = some cs) (hc : cs[i]? = some c) :
    ∃ (a : α) (before : List κ) (c₀ : κ), (creations as)[i]? = some a ∧
      make before a = some c₀ ∧
      run stepOne c₀ (actionsOf i as) = some c := by
  induction as using List.reverseRecOn generalizing cs c with
  | nil =>
      obtain rfl := Option.some.inj hrun
      simp at hc
  | append_singleton as a ih =>
      obtain ⟨cs', hrun', hstep⟩ := run_concat_eq_some_iff.mp hrun
      have hlength := length_of_run hrun'
      cases a with
      | create a =>
          obtain ⟨c₁, hmake, rfl⟩ := Option.map_eq_some_iff.mp hstep
          rw [actionsOf_concat_create, creations_concat_create]
          by_cases hi : i < cs'.length
          · rw [List.getElem?_append_left hi] at hc
            rw [List.getElem?_append_left (hlength ▸ hi)]
            exact ih hrun' hc
          · have hnil : actionsOf i as = [] := actionsOf_eq_nil hrun' (by omega)
            rw [List.getElem?_append_right (by omega)] at hc
            obtain rfl := List.mem_singleton.mp (List.mem_of_getElem? hc)
            have hlast : i = (creations as).length := by
              have hlt := (List.getElem?_eq_some_iff.mp hc).1
              rw [List.length_singleton] at hlt
              omega
            refine ⟨a, cs', c, ?_, hmake, by rw [hnil]; rfl⟩
            rw [hlast, List.getElem?_concat_length]
      | act j b =>
          obtain ⟨c', c'', hc', hone, rfl⟩ := step_act_eq_some_iff.mp hstep
          rw [creations_concat_act]
          by_cases hj : j = i
          · subst hj
            obtain ⟨a, before, c₀, hcreate, hmake, hold⟩ := ih hrun' hc'
            rw [List.getElem?_set_self (List.getElem?_eq_some_iff.mp hc').1,
              Option.some.injEq] at hc
            refine ⟨a, before, c₀, hcreate, hmake, ?_⟩
            rw [actionsOf_concat_self]
            exact run_concat_eq_some_iff.mpr ⟨c', hold, hc ▸ hone⟩
          · rw [List.getElem?_set_ne hj] at hc
            rw [actionsOf_concat_of_ne hj]
            exact ih hrun' hc

end Family
