import Mathlib.Data.List.Basic
import Mathlib.Data.List.Forall2

/-!
# Checks that fail with an error

A computation that may fail is put together from checks in sequence.  It
succeeds when every check does, and what is known about the errors of each
part is known about the errors of the whole.
-/

namespace Checks

universe u v

variable {ε : Type v} {α β : Type u}

/-- Fail with an error unless a condition holds. -/
def ensure (ok : Bool) (e : ε) : Except ε Unit :=
  if ok then .ok () else .error e

/-- Run a check on each element, in order. -/
def forEach (f : α → Except ε Unit) : List α → Except ε Unit
  | [] => .ok ()
  | a :: as => f a >>= fun _ => forEach f as

@[simp] theorem ensure_eq_ok_iff {ok : Bool} {e : ε} :
    ensure ok e = .ok () ↔ ok = true := by
  rw [ensure]
  split <;> simp_all

@[simp] theorem ensure_eq_error_iff {ok : Bool} {e e' : ε} :
    ensure ok e = .error e' ↔ ok = false ∧ e = e' := by
  rw [ensure]
  split <;> simp_all

theorem bind_eq_ok_iff {x : Except ε α} {f : α → Except ε β} {b : β} :
    x >>= f = .ok b ↔ ∃ a, x = .ok a ∧ f a = .ok b := by
  cases x <;> simp [bind, Except.bind]

/-- A check followed by the rest succeeds when both do. -/
@[simp] theorem seq_eq_ok_iff {x : Except ε PUnit} {y : Except ε β} {b : β} :
    (x >>= fun _ => y) = .ok b ↔ x = .ok ⟨⟩ ∧ y = .ok b := by
  rw [bind_eq_ok_iff]
  constructor
  · rintro ⟨⟨⟩, hx, hy⟩
    exact ⟨hx, hy⟩
  · rintro ⟨hx, hy⟩
    exact ⟨⟨⟩, hx, hy⟩

theorem bind_eq_error_iff {x : Except ε α} {f : α → Except ε β}
    {e : ε} :
    x >>= f = .error e ↔ x = .error e ∨ ∃ a, x = .ok a ∧ f a = .error e := by
  cases x <;> simp [bind, Except.bind]

@[simp] theorem forEach_eq_ok_iff {f : α → Except ε Unit} {as : List α} :
    forEach f as = .ok () ↔ ∀ a ∈ as, f a = .ok () := by
  induction as with
  | nil => simp [forEach]
  | cons a as ih =>
      rw [forEach, seq_eq_ok_iff, List.forall_mem_cons, ih]

/-- Each element is made into a result, in order. -/
theorem mapM_eq_ok_iff {f : α → Except ε β} {as : List α} {bs : List β} :
    as.mapM f = .ok bs ↔ List.Forall₂ (fun a b => f a = .ok b) as bs := by
  induction as generalizing bs with
  | nil =>
      rw [List.mapM_nil, List.forall₂_nil_left_iff]
      exact ⟨fun h => (Except.ok.inj h).symm, fun h => h ▸ rfl⟩
  | cons a as ih =>
      rw [List.mapM_cons, bind_eq_ok_iff, List.forall₂_cons_left_iff]
      refine exists_congr fun b => ?_
      rw [bind_eq_ok_iff]
      constructor
      · rintro ⟨ha, bs', has, hbs⟩
        exact ⟨bs', ha, ih.mp has, (Except.ok.inj hbs).symm⟩
      · rintro ⟨bs', ha, has, rfl⟩
        exact ⟨ha, bs', ih.mpr has, rfl⟩

/-- Whether a computation fails. -/
def Fails (x : Except ε α) : Prop := ∃ e, x = .error e

theorem fails_iff_ne_ok {x : Except ε α} : Fails x ↔ ∀ a, x ≠ .ok a := by
  cases x <;> simp [Fails]

/-! ## Errors of one's own and errors of others -/

/-- Every error of the computation satisfies `P`. -/
def OnlyErrors (P : ε → Prop) (x : Except ε α) : Prop :=
  ∀ e, x = .error e → P e

/-- The condition `own` covers the computation's own checks: when it holds,
only errors that satisfy `foreign` remain, and a success implies it. -/
def Gated (foreign : ε → Prop) (own : Prop) (x : Except ε α) : Prop :=
  (own → OnlyErrors foreign x) ∧ ∀ a, x = .ok a → own

theorem onlyErrors_ok (P : ε → Prop) (a : α) :
    OnlyErrors P (.ok a : Except ε α) := by
  intro e he
  cases he

theorem onlyErrors_error {P : ε → Prop} {e : ε} (he : P e) :
    OnlyErrors P (.error e : Except ε α) := by
  intro e' he'
  exact Except.error.inj he' ▸ he

theorem onlyErrors_ensure {P : ε → Prop} {ok : Bool} {e : ε} (he : P e) :
    OnlyErrors P (ensure ok e) := by
  intro e' he'
  exact (ensure_eq_error_iff.mp he').2 ▸ he

theorem onlyErrors_bind {P : ε → Prop} {x : Except ε α}
    {f : α → Except ε β} (hx : OnlyErrors P x) (hf : ∀ a, OnlyErrors P (f a)) :
    OnlyErrors P (x >>= f) := by
  intro e he
  rcases bind_eq_error_iff.mp he with hfail | ⟨a, -, hrest⟩
  · exact hx e hfail
  · exact hf a e hrest

theorem gated_ok {foreign : ε → Prop} {own : Prop} (h : own) (a : α) :
    Gated foreign own (.ok a : Except ε α) :=
  ⟨fun _ => onlyErrors_ok foreign a, fun _ _ => h⟩

theorem gated_error {foreign : ε → Prop} {own : Prop} (h : ¬own) (e : ε) :
    Gated foreign own (.error e : Except ε α) :=
  ⟨fun hown => absurd hown h, fun a ha => by cases ha⟩

theorem gated_ensure (foreign : ε → Prop) (ok : Bool) (e : ε) :
    Gated foreign (ok = true) (ensure ok e) := by
  cases ok with
  | true => exact gated_ok rfl ()
  | false => exact gated_error (by simp) e

/-- A computation that fails with foreign errors only has no check of its
own. -/
theorem gated_of_onlyErrors {foreign : ε → Prop} {x : Except ε α}
    (h : OnlyErrors foreign x) : Gated foreign True x :=
  ⟨fun _ => h, fun _ _ => trivial⟩

theorem gated_bind {foreign : ε → Prop} {p q : Prop} {x : Except ε α}
    {f : α → Except ε β} (hx : Gated foreign p x)
    (hf : ∀ a, x = .ok a → Gated foreign q (f a)) :
    Gated foreign (p ∧ q) (x >>= f) := by
  constructor
  · rintro ⟨hp, hq⟩ e he
    rcases bind_eq_error_iff.mp he with hfail | ⟨a, ha, hrest⟩
    · exact hx.1 hp e hfail
    · exact (hf a ha).1 hq e hrest
  · intro b hb
    obtain ⟨a, ha, hrest⟩ := bind_eq_ok_iff.mp hb
    exact ⟨hx.2 a ha, (hf a ha).2 b hrest⟩

theorem gated_congr {foreign : ε → Prop} {p q : Prop} {x : Except ε α}
    (hpq : p ↔ q) (h : Gated foreign p x) : Gated foreign q x :=
  ⟨fun hq => h.1 (hpq.mpr hq), fun a ha => hpq.mp (h.2 a ha)⟩

/-- What is made of a result does not change the gate. -/
theorem gated_bind_ok {foreign : ε → Prop} {p : Prop} {x : Except ε α}
    (hx : Gated foreign p x) (g : α → β) :
    Gated foreign p (x >>= fun a => .ok (g a)) :=
  gated_congr (iff_of_eq (and_true p))
    (gated_bind hx fun a _ => gated_ok trivial (g a))

theorem onlyErrors_mapM {γ : Type u} {P : ε → Prop} {f : α → Except ε γ}
    (hf : ∀ a, OnlyErrors P (f a)) (as : List α) :
    OnlyErrors P (as.mapM f) := by
  induction as with
  | nil => exact onlyErrors_ok P []
  | cons a as ih =>
      rw [List.mapM_cons]
      exact onlyErrors_bind (hf a) fun b =>
        onlyErrors_bind ih fun bs => onlyErrors_ok P (b :: bs)

theorem gated_mapM {γ : Type u} {foreign : ε → Prop} {p : α → Prop}
    {f : α → Except ε γ} (hf : ∀ a, Gated foreign (p a) (f a))
    (as : List α) : Gated foreign (∀ a ∈ as, p a) (as.mapM f) := by
  induction as with
  | nil =>
      exact gated_ok (by simp) []
  | cons a as ih =>
      rw [List.mapM_cons, List.forall_mem_cons]
      refine gated_bind (hf a) fun b _ => ?_
      exact gated_bind_ok ih fun bs => b :: bs

end Checks
