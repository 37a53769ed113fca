import Mathlib.Data.List.DropRight

/-!
# Command histories

A value is put together by commands applied one after the other.  A register
keeps the last value given for it.  A component that starts afresh whenever a
command of another family arrives depends only on the last phase, the longest
end of the history that is of one family.
-/

namespace Command

variable {σ C F α : Type*}

/-! ## Registers -/

/-- The last value that the commands give for a slot. -/
def lastValue (slot : C → Option α) (cs : List C) : Option α :=
  (cs.filterMap slot).getLast?

theorem filterMap_concat (slot : C → Option α) (cs : List C) (c : C) :
    (cs ++ [c]).filterMap slot = cs.filterMap slot ++ (slot c).toList := by
  rw [List.filterMap_append]
  cases hc : slot c with
  | none => rw [List.filterMap_cons_none hc]; rfl
  | some a => rw [List.filterMap_cons_some hc]; rfl

@[simp] theorem lastValue_concat (slot : C → Option α) (cs : List C) (c : C) :
    lastValue slot (cs ++ [c]) = (slot c).or (lastValue slot cs) := by
  rw [lastValue, filterMap_concat, List.getLast?_append]
  cases slot c <;> rfl

theorem lastValue_append (slot : C → Option α) (cs ds : List C) :
    lastValue slot (cs ++ ds) =
      (lastValue slot ds).or (lastValue slot cs) := by
  rw [lastValue, List.filterMap_append, List.getLast?_append]
  rfl

theorem lastValue_eq_none_iff {slot : C → Option α} {cs : List C} :
    lastValue slot cs = none ↔ ∀ c ∈ cs, slot c = none := by
  rw [lastValue, List.getLast?_eq_none_iff, List.filterMap_eq_nil_iff]

theorem exists_of_lastValue_eq_some {slot : C → Option α} {cs : List C}
    {a : α} (h : lastValue slot cs = some a) : ∃ c ∈ cs, slot c = some a :=
  List.mem_filterMap.mp (List.mem_of_getLast? h)

/-- A register holds the last value given, or what it held before. -/
theorem foldl_register {apply : σ → C → σ} {get : σ → Option α}
    {slot : C → Option α} {cs : List C}
    (h : ∀ s, ∀ c ∈ cs, get (apply s c) = (slot c).or (get s)) (s : σ) :
    get (cs.foldl apply s) = (lastValue slot cs).or (get s) := by
  induction cs using List.reverseRecOn with
  | nil => rfl
  | append_singleton cs c ih =>
      rw [List.foldl_concat, h _ c (by simp), lastValue_concat,
        ih fun s d hd => h s d (by simp [hd]), Option.or_assoc]

/-- What a slot selects is not changed by leaving out other commands. -/
theorem filterMap_filter_of_imp {slot : C → Option α} {p : C → Bool}
    (h : ∀ c a, slot c = some a → p c = true) (cs : List C) :
    (cs.filter p).filterMap slot = cs.filterMap slot := by
  rw [List.filterMap_filter]
  refine List.filterMap_congr fun c _ => ?_
  cases hc : slot c with
  | none => simp
  | some a => simp [h c a hc]

/-! ## Phases -/

section Phase

variable [DecidableEq F] (family : C → F)

/-- The longest end of the history whose commands are all of the family of
the last one. -/
def lastPhase (cs : List C) : List C :=
  match cs.getLast? with
  | none => []
  | some c => cs.rtakeWhile fun d => family d = family c

@[simp] theorem lastPhase_singleton (c : C) : lastPhase family [c] = [c] := by
  simp [lastPhase, List.rtakeWhile]

theorem lastPhase_concat_of_eq (cs : List C) {c d : C}
    (h : family d = family c) :
    lastPhase family (cs ++ [d] ++ [c]) =
      lastPhase family (cs ++ [d]) ++ [c] := by
  simp only [lastPhase, List.getLast?_concat, h]
  rw [List.rtakeWhile_concat_pos _ _ _ (by simp)]

theorem lastPhase_concat_of_ne (cs : List C) {c d : C}
    (h : family d ≠ family c) :
    lastPhase family (cs ++ [d] ++ [c]) = [c] := by
  simp only [lastPhase, List.getLast?_concat]
  rw [List.rtakeWhile_concat_pos _ _ _ (by simp),
    List.rtakeWhile_concat_neg _ _ _ (by simpa using h), List.nil_append]

/-- A history of one family is all one phase. -/
theorem lastPhase_eq_self {cs : List C} {f : F}
    (h : ∀ c ∈ cs, family c = f) : lastPhase family cs = cs := by
  cases hlast : cs.getLast? with
  | none => rw [List.getLast?_eq_none_iff.mp hlast]; rfl
  | some c =>
      simp only [lastPhase, hlast]
      refine List.rtakeWhile_eq_self_iff.mpr fun d hd => ?_
      simp [h d hd, h c (List.mem_of_getLast? hlast)]

/-- The commands of the last phase are of one family. -/
theorem family_of_mem_lastPhase {cs : List C} {c d : C}
    (hlast : cs.getLast? = some c) (hd : d ∈ lastPhase family cs) :
    family d = family c := by
  rw [lastPhase, hlast] at hd
  simpa using List.mem_rtakeWhile_imp hd

variable {family}

/-- A component that starts afresh when the family changes is what the last
phase makes of a fresh start. -/
theorem foldl_lastPhase {apply : σ → C → σ} {mode : σ → F} {start : F → σ}
    (hmode : ∀ s c, mode (apply s c) = family c)
    (hreset : ∀ s c, mode s ≠ family c →
      apply s c = apply (start (family c)) c)
    {s : σ} (hs : s = start (mode s)) {cs : List C} {c : C}
    (hlast : cs.getLast? = some c) :
    cs.foldl apply s =
      (lastPhase family cs).foldl apply (start (family c)) := by
  obtain ⟨front, rfl⟩ := List.getLast?_eq_some_iff.mp hlast
  clear hlast
  induction front using List.reverseRecOn generalizing c with
  | nil =>
      rw [List.nil_append, lastPhase_singleton, List.foldl_cons,
        List.foldl_nil, List.foldl_cons, List.foldl_nil]
      by_cases hc : mode s = family c
      · rw [← hc, ← hs]
      · exact hreset s c hc
  | append_singleton front d ih =>
      rw [List.foldl_concat]
      by_cases hd : family d = family c
      · rw [ih, lastPhase_concat_of_eq family front hd, List.foldl_concat, hd]
      · rw [lastPhase_concat_of_ne family front hd, List.foldl_cons,
          List.foldl_nil]
        refine hreset _ c ?_
        rw [List.foldl_concat, hmode]
        exact hd

end Phase

end Command
