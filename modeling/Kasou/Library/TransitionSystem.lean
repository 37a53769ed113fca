import Mathlib.Data.List.Basic

/-!
# Runs of a partial transition system

A system is given by a partial step function: `step s a = none` says that the
action `a` is not enabled in the state `s`.  A schedule is a list of actions,
and `run` takes its actions in order.

Two induction rules are packaged here.  `run_invariant` is for properties
that every step preserves.  `guarded_invariant` is for properties that a step
preserves only when it is taken under a condition on the state before it;
`Guarded` says that a schedule meets such a condition at each of its steps.
-/

namespace TransitionSystem

variable {σ α : Type*} {step : σ → α → Option σ}

/-- Take the actions of a schedule in order, as long as each is enabled. -/
def run (step : σ → α → Option σ) : σ → List α → Option σ
  | s, [] => some s
  | s, a :: as => (step s a).bind fun s' => run step s' as

@[simp] theorem run_nil (s : σ) : run step s [] = some s := rfl

theorem run_cons (s : σ) (a : α) (as : List α) :
    run step s (a :: as) = (step s a).bind fun s' => run step s' as := rfl

theorem run_cons_eq_some_iff {s t : σ} {a : α} {as : List α} :
    run step s (a :: as) = some t ↔
      ∃ s', step s a = some s' ∧ run step s' as = some t := by
  rw [run_cons, Option.bind_eq_some_iff]

theorem run_append (s : σ) (as bs : List α) :
    run step s (as ++ bs) = (run step s as).bind fun s' => run step s' bs := by
  induction as generalizing s with
  | nil => rfl
  | cons a as ih =>
      rw [List.cons_append, run_cons, run_cons, Option.bind_assoc]
      congr 1
      funext s'
      exact ih s'

theorem run_append_eq_some_iff {s t : σ} {as bs : List α} :
    run step s (as ++ bs) = some t ↔
      ∃ s', run step s as = some s' ∧ run step s' bs = some t := by
  rw [run_append, Option.bind_eq_some_iff]

/-- A schedule followed by one more action. -/
theorem run_concat_eq_some_iff {s t : σ} {as : List α} {a : α} :
    run step s (as ++ [a]) = some t ↔
      ∃ s', run step s as = some s' ∧ step s' a = some t := by
  rw [run_append_eq_some_iff]
  simp [run_cons]

/-- A run from `s` to `t` continues every run that ends in `s`. -/
theorem run_trans {s t u : σ} {as bs : List α}
    (hst : run step s as = some t) (htu : run step t bs = some u) :
    run step s (as ++ bs) = some u :=
  run_append_eq_some_iff.mpr ⟨t, hst, htu⟩

/-! ## Invariants -/

/-- A property that every step preserves is preserved by every run. -/
theorem run_invariant {P : σ → Prop}
    (hstep : ∀ s a s', P s → step s a = some s' → P s')
    {s t : σ} {as : List α} (hs : P s) (hrun : run step s as = some t) :
    P t := by
  induction as generalizing s with
  | nil =>
      rw [run_nil, Option.some.injEq] at hrun
      exact hrun ▸ hs
  | cons a as ih =>
      obtain ⟨s', ha, has⟩ := run_cons_eq_some_iff.mp hrun
      exact ih (hstep s a s' hs ha) has

/-- Every action of the schedule is taken in a state that admits it. -/
def Guarded (step : σ → α → Option σ) (admits : σ → α → Prop) :
    σ → List α → Prop
  | _, [] => True
  | s, a :: as =>
      admits s a ∧
        match step s a with
        | none => True
        | some s' => Guarded step admits s' as

instance Guarded.decidable (step : σ → α → Option σ) (admits : σ → α → Prop)
    [∀ s a, Decidable (admits s a)] :
    ∀ s as, Decidable (Guarded step admits s as)
  | _, [] => isTrue trivial
  | s, a :: as =>
      match h : step s a with
      | none => decidable_of_iff (admits s a) (by simp [Guarded, h])
      | some s' =>
          have := Guarded.decidable step admits s' as
          decidable_of_iff (admits s a ∧ Guarded step admits s' as)
            (by simp [Guarded, h])

variable {admits : σ → α → Prop}

theorem guarded_cons_of_step {s s' : σ} {a : α} {as : List α}
    (hstep : step s a = some s') :
    Guarded step admits s (a :: as) ↔
      admits s a ∧ Guarded step admits s' as := by
  simp [Guarded, hstep]

/-- A schedule meets its condition exactly when each of its actions is
admitted by the state that the actions before it lead to. -/
theorem guarded_iff {s : σ} {as : List α} :
    Guarded step admits s as ↔
      ∀ pre a post s', as = pre ++ a :: post →
        run step s pre = some s' → admits s' a := by
  induction as generalizing s with
  | nil => simp [Guarded]
  | cons b bs ih =>
      constructor
      · rintro ⟨hb, hbs⟩ pre a post s' heq hrun
        cases pre with
        | nil =>
            rw [run_nil, Option.some.injEq] at hrun
            rw [List.nil_append, List.cons.injEq] at heq
            exact heq.1 ▸ hrun ▸ hb
        | cons c pre =>
            rw [List.cons_append, List.cons.injEq] at heq
            obtain ⟨rfl, heq⟩ := heq
            obtain ⟨s₁, hs₁, hrun⟩ := run_cons_eq_some_iff.mp hrun
            rw [hs₁] at hbs
            exact ih.mp hbs pre a post s' heq hrun
      · intro h
        refine ⟨h [] b bs s rfl rfl, ?_⟩
        cases hs : step s b with
        | none => trivial
        | some s₁ =>
            refine ih.mpr fun pre a post s' heq hrun => ?_
            exact h (b :: pre) a post s' (by rw [heq]; rfl)
              (run_cons_eq_some_iff.mpr ⟨s₁, hs, hrun⟩)

/-- A property that every admitted step preserves is preserved by every run
whose steps are all admitted. -/
theorem guarded_invariant {P : σ → Prop}
    (hstep : ∀ s a s', P s → admits s a → step s a = some s' → P s')
    {s t : σ} {as : List α} (hs : P s)
    (hguard : Guarded step admits s as) (hrun : run step s as = some t) :
    P t := by
  induction as generalizing s with
  | nil =>
      rw [run_nil, Option.some.injEq] at hrun
      exact hrun ▸ hs
  | cons a as ih =>
      obtain ⟨s', ha, has⟩ := run_cons_eq_some_iff.mp hrun
      rw [guarded_cons_of_step ha] at hguard
      exact ih (hstep s a s' hs hguard.1 ha) hguard.2 has

/-- A condition met along a schedule is met along each of its beginnings. -/
theorem Guarded.of_append {s : σ} {as bs : List α}
    (h : Guarded step admits s (as ++ bs)) : Guarded step admits s as := by
  rw [guarded_iff] at h ⊢
  intro pre a post s' heq hrun
  exact h pre a (post ++ bs) s' (by simp [heq]) hrun

/-- A condition met along a schedule is met along what is left of it after a
run of one of its beginnings. -/
theorem Guarded.of_run {s t : σ} {as bs : List α}
    (h : Guarded step admits s (as ++ bs)) (hrun : run step s as = some t) :
    Guarded step admits t bs := by
  rw [guarded_iff] at h ⊢
  intro pre a post s' heq hrun'
  exact h (as ++ pre) a post s' (by simp [heq]) (run_trans hrun hrun')

/-- A condition met along a run and along what follows it is met along the
whole. -/
theorem Guarded.append {s t : σ} {as bs : List α}
    (h : Guarded step admits s as) (hrun : run step s as = some t)
    (hrest : Guarded step admits t bs) :
    Guarded step admits s (as ++ bs) := by
  induction as generalizing s with
  | nil =>
      obtain rfl := Option.some.inj hrun
      exact hrest
  | cons a as ih =>
      obtain ⟨s', hs', hrun'⟩ := run_cons_eq_some_iff.mp hrun
      rw [guarded_cons_of_step hs'] at h
      rw [List.cons_append, guarded_cons_of_step hs']
      exact ⟨h.1, ih h.2 hrun'⟩

/-- A condition that the actions of a schedule meet in every state is met
along it. -/
theorem guarded_of_forall {s : σ} {as : List α}
    (h : ∀ a ∈ as, ∀ s, admits s a) : Guarded step admits s as := by
  rw [guarded_iff]
  rintro pre a post s' rfl -
  exact h a (List.mem_append_right _ (List.mem_cons_self ..)) s'

/-! ## Simulations -/

section Simulations

variable {τ β : Type*} {other : τ → β → Option τ} {R : σ → τ → Prop}

/-- Each step of a system is followed by some run of another one. -/
def Simulation (step : σ → α → Option σ) (other : τ → β → Option τ)
    (R : σ → τ → Prop) : Prop :=
  ∀ s a s' t, R s t → step s a = some s' →
    ∃ bs t', run other t bs = some t' ∧ R s' t'

/-- Related results are there together. -/
theorem exists_of_rel_left {x : Option σ} {y : Option τ} {s : σ}
    (h : Option.Rel R x y) (hx : x = some s) : ∃ t, y = some t ∧ R s t := by
  cases h with
  | none => cases hx
  | some hR =>
      obtain rfl := Option.some.inj hx
      exact ⟨_, rfl, hR⟩

theorem exists_of_rel_right {x : Option σ} {y : Option τ} {t : τ}
    (h : Option.Rel R x y) (hy : y = some t) : ∃ s, x = some s ∧ R s t := by
  cases h with
  | none => cases hy
  | some hR =>
      obtain rfl := Option.some.inj hy
      exact ⟨_, rfl, hR⟩

/-- The other system follows whole runs. -/
theorem Simulation.run (h : Simulation step other R) {s s' : σ} {t : τ}
    {as : List α} (hR : R s t)
    (hrun : TransitionSystem.run step s as = some s') :
    ∃ bs t', TransitionSystem.run other t bs = some t' ∧ R s' t' := by
  induction as generalizing s t with
  | nil =>
      rw [run_nil, Option.some.injEq] at hrun
      exact ⟨[], t, rfl, hrun ▸ hR⟩
  | cons a as ih =>
      obtain ⟨s₁, ha, has⟩ := run_cons_eq_some_iff.mp hrun
      obtain ⟨bs, t₁, hbs, hR₁⟩ := h s a s₁ t hR ha
      obtain ⟨bs', t', hbs', hR'⟩ := ih hR₁ has
      exact ⟨bs ++ bs', t', run_trans hbs hbs', hR'⟩

end Simulations

/-! ## Projections -/

section Projections

variable {τ β : Type*} {part : τ → β → Option τ} {proj : σ → τ}
  {label : α → Option β}

/-- Each step of a system is a step of a part of it or leaves that part
alone. -/
def Projects (step : σ → α → Option σ) (part : τ → β → Option τ)
    (proj : σ → τ) (label : α → Option β) : Prop :=
  ∀ s a s', step s a = some s' →
    match label a with
    | none => proj s' = proj s
    | some b => part (proj s) b = some (proj s')

/-- The part runs through the steps that are its own. -/
theorem Projects.run (h : Projects step part proj label) {s t : σ}
    {as : List α} (hrun : run step s as = some t) :
    TransitionSystem.run part (proj s) (as.filterMap label) =
      some (proj t) := by
  induction as generalizing s with
  | nil =>
      rw [run_nil, Option.some.injEq] at hrun
      exact hrun ▸ rfl
  | cons a as ih =>
      obtain ⟨s', ha, has⟩ := run_cons_eq_some_iff.mp hrun
      have hstep := h s a s' ha
      cases hlabel : label a with
      | none =>
          rw [hlabel] at hstep
          rw [List.filterMap_cons_none hlabel, ← hstep]
          exact ih has
      | some b =>
          rw [hlabel] at hstep
          rw [List.filterMap_cons_some hlabel]
          exact run_cons_eq_some_iff.mpr ⟨proj s', hstep, ih has⟩

end Projections

/-! ## Progress -/

/-- A run that can go on wherever it has not ended, and whose cost grows in
each step and stays bounded, can be carried to its end.  `P t as` is what is
known of a state and the actions that led to it. -/
theorem exists_run_of_progress {P : σ → List α → Prop} {ended : σ → Prop}
    {cost : List α → Nat} {bound : Nat}
    (hbound : ∀ t as, P t as → cost as ≤ bound)
    (hprogress : ∀ t as, P t as → ¬ended t →
      ∃ a t', step t a = some t' ∧ P t' (as ++ [a]) ∧
        cost as < cost (as ++ [a]))
    {t : σ} {as : List α} (h : P t as) :
    ∃ bs u, run step t bs = some u ∧ P u (as ++ bs) ∧ ended u := by
  induction hleft : bound - cost as using Nat.strongRecOn
    generalizing t as with
  | ind left ih =>
      by_cases hended : ended t
      · refine ⟨[], t, rfl, ?_, hended⟩
        rwa [List.append_nil]
      · obtain ⟨a, t', hstep, hnext, hcost⟩ := hprogress t as h hended
        have hle := hbound t' (as ++ [a]) hnext
        obtain ⟨bs, u, hrun, hu, hend⟩ :=
          ih (bound - cost (as ++ [a])) (by omega) hnext rfl
        refine ⟨a :: bs, u, run_cons_eq_some_iff.mpr ⟨t', hstep, hrun⟩, ?_,
          hend⟩
        rwa [List.append_assoc, List.singleton_append] at hu

/-! ## Observations -/

section Observations

variable {ω : Type*} {observe : σ → α → Option ω}

/-- What is seen of a run, step by step. -/
def trace (step : σ → α → Option σ) (observe : σ → α → Option ω) :
    σ → List α → List ω
  | _, [] => []
  | s, a :: as =>
      (observe s a).toList ++
        match step s a with
        | none => []
        | some s' => trace step observe s' as

/-- Whatever is seen of a run is seen of one of its steps. -/
theorem exists_of_mem_trace {s : σ} {as : List α} {o : ω}
    (ho : o ∈ trace step observe s as) :
    ∃ t a, a ∈ as ∧ observe t a = some o := by
  induction as generalizing s with
  | nil => cases ho
  | cons a as ih =>
      rw [trace, List.mem_append] at ho
      rcases ho with hhead | htail
      · exact ⟨s, a, List.mem_cons_self .., Option.mem_toList.mp hhead⟩
      · cases hstep : step s a with
        | none =>
            rw [hstep] at htail
            cases htail
        | some s' =>
            rw [hstep] at htail
            obtain ⟨t, b, hb, hobserve⟩ := ih htail
            exact ⟨t, b, List.mem_cons_of_mem _ hb, hobserve⟩

/-- A relation between the state and what has been seen so far that every step
preserves is preserved by every run. -/
theorem traced_invariant {P : σ → List ω → Prop}
    (hstep : ∀ s a s' seen, P s seen → step s a = some s' →
      P s' (seen ++ (observe s a).toList))
    {s t : σ} {as : List α} {seen : List ω} (hs : P s seen)
    (hrun : run step s as = some t) :
    P t (seen ++ trace step observe s as) := by
  induction as generalizing s seen with
  | nil =>
      rw [run_nil, Option.some.injEq] at hrun
      rw [trace, List.append_nil]
      exact hrun ▸ hs
  | cons a as ih =>
      obtain ⟨s', ha, has⟩ := run_cons_eq_some_iff.mp hrun
      have hseen := ih (hstep s a s' seen hs ha) has
      rw [trace, ha, ← List.append_assoc]
      exact hseen

/-- The same for a run whose steps are all admitted. -/
theorem guarded_traced_invariant {P : σ → List ω → Prop}
    (hstep : ∀ s a s' seen, P s seen → admits s a → step s a = some s' →
      P s' (seen ++ (observe s a).toList))
    {s t : σ} {as : List α} {seen : List ω} (hs : P s seen)
    (hguard : Guarded step admits s as) (hrun : run step s as = some t) :
    P t (seen ++ trace step observe s as) := by
  induction as generalizing s seen with
  | nil =>
      rw [run_nil, Option.some.injEq] at hrun
      rw [trace, List.append_nil]
      exact hrun ▸ hs
  | cons a as ih =>
      obtain ⟨s', ha, has⟩ := run_cons_eq_some_iff.mp hrun
      rw [guarded_cons_of_step ha] at hguard
      have hnext := hstep s a s' seen hs hguard.1 ha
      have hseen := ih hnext hguard.2 has
      rw [trace, ha, ← List.append_assoc]
      exact hseen

end Observations

end TransitionSystem
