import Kasou.Library.TransitionSystem

/-!
# A published copy of a value, with two writers

A value changes in two ways.  It is *reported*: it changes and its copy is
written in the same step.  Or it is *settled*: it changes now, and the copy is
written by a later step, the *publish*.  Between the two, a report can change
the value again, and the publish then overwrites the copy with a stale value.

Two invariants are derived from one description of the steps.  When every
publish is timely, the copy agrees with the value whenever no publish is
pending.  Without any condition, a disagreement is possible only while the
value is one that reports produce.
-/

/-- A value, its published copy, and the write of the copy that a settled
change still owes. -/
structure Mirror (α : Type*) where
  truth : α
  published : α
  pending : Option α

namespace Mirror

variable {α : Type*}

/-- What one step does to a value and its copy. -/
inductive Event (α : Type*) where
  | report (v : α)
  | settle (v : α)
  | publish (v : α)
  | silent

/-- The steps of a value and its copy. -/
inductive Step : Mirror α → Event α → Mirror α → Prop where
  | report {m : Mirror α} (v : α) :
      Step m (.report v) { m with truth := v, published := v }
  | settle {m : Mirror α} (v : α) (hquiet : m.pending = none) :
      Step m (.settle v) { m with truth := v, pending := some v }
  | publish {m : Mirror α} (v : α) (hpending : m.pending = some v) :
      Step m (.publish v) { m with published := v, pending := none }
  | silent {m : Mirror α} : Step m .silent m

/-- The value that an event writes to the copy. -/
def Event.writes : Event α → Option α
  | .report v => some v
  | .publish v => some v
  | .settle _ => none
  | .silent => none

/-- A publish is timely when the value is still the one it publishes. -/
def Event.Timely (m : Mirror α) : Event α → Prop
  | .publish v => m.truth = v
  | _ => True

/-- The copy agrees with the value unless a publish is pending. -/
def Agrees (m : Mirror α) : Prop := m.pending = none → m.published = m.truth

/-- The copy agrees with the value, or will by the pending publish, unless the
value is one of `reported`. -/
def Covered (reported : α → Prop) (m : Mirror α) : Prop :=
  reported m.truth ∨
    match m.pending with
    | none => m.published = m.truth
    | some v => v = m.truth

/-- Reports produce only values of `reported`. -/
def Event.Within (reported : α → Prop) : Event α → Prop
  | .report v => reported v
  | _ => True

variable {m m' : Mirror α} {e : Event α}

/-- After a step the copy is what the step wrote, if it wrote anything. -/
theorem Step.published_eq (hstep : Step m e m') :
    m'.published = e.writes.getD m.published := by
  cases hstep <;> rfl

theorem Step.agrees (hstep : Step m e m') (htimely : e.Timely m)
    (h : m.Agrees) : m'.Agrees := by
  cases hstep with
  | report v => exact fun _ => rfl
  | settle v hquiet => exact fun hnone => nomatch hnone
  | publish v hpending => exact fun _ => htimely.symm
  | silent => exact h

/-- A publish that is not timely leaves the copy different from the value. -/
theorem Step.not_agrees_of_not_timely (hstep : Step m e m')
    (htimely : ¬ e.Timely m) : ¬ m'.Agrees := by
  cases hstep with
  | publish v hpending => exact fun h => htimely (h rfl).symm
  | report v => exact (htimely trivial).elim
  | settle v hquiet => exact (htimely trivial).elim
  | silent => exact (htimely trivial).elim

theorem Step.covered {reported : α → Prop} (hstep : Step m e m')
    (hwithin : e.Within reported) (h : m.Covered reported) :
    m'.Covered reported := by
  cases hstep with
  | report v => exact Or.inl hwithin
  | settle v hquiet => exact Or.inr rfl
  | publish v hpending =>
      rcases h with h | h
      · exact Or.inl h
      · rw [hpending] at h
        exact Or.inr h
  | silent => exact h

/-- Unless the value is a reported one, an unowed copy agrees with it. -/
theorem Covered.published_eq {reported : α → Prop} (h : m.Covered reported)
    (hquiet : m.pending = none) :
    m.published = m.truth ∨ reported m.truth := by
  rcases h with h | h
  · exact Or.inr h
  · rw [hquiet] at h
    exact Or.inl h

/-! ## The two histories -/

/-- The change of the value. -/
def Event.change (m : Mirror α) : Event α → Option (α × α)
  | .report v => some (m.truth, v)
  | .settle v => some (m.truth, v)
  | .publish _ => none
  | .silent => none

/-- The change of the value, unless it is reported. -/
def Event.settled (m : Mirror α) : Event α → Option (α × α)
  | .settle v => some (m.truth, v)
  | _ => none

/-- The change of the copy. -/
def Event.replaces (m : Mirror α) (e : Event α) : Option (α × α) :=
  e.writes.map fun v => (m.published, v)

/-- The change of the copy, unless it comes with a report. -/
def Event.publishes (m : Mirror α) : Event α → Option (α × α)
  | .publish v => some (m.published, v)
  | _ => none

/-- The change of the copy that a publish is pending for. -/
def owed (m : Mirror α) : List (α × α) :=
  m.pending.toList.map fun v => (m.published, v)

/-- The copy agrees with the value, or a publish is pending that will make
it agree. -/
def Current (m : Mirror α) : Prop :=
  match m.pending with
  | none => m.published = m.truth
  | some v => m.truth = v

/-- No report overtakes a publish. -/
def Event.InTurn (m : Mirror α) : Event α → Prop
  | .report _ => m.pending = none
  | _ => True

theorem Step.current (hstep : Step m e m') (hturn : e.InTurn m)
    (h : m.Current) : m'.Current := by
  cases hstep with
  | report v =>
      have hquiet : m.pending = none := hturn
      simp [Current, hquiet]
  | settle v hquiet => rfl
  | publish v hpending =>
      rw [Current, hpending] at h
      exact h.symm
  | silent => exact h

/-- As long as no report overtakes a publish, the copy changes as the value
does, up to the change that it is owed. -/
theorem Step.replaces_owed (hstep : Step m e m') (hturn : e.InTurn m)
    (h : m.Current) :
    (e.replaces m).toList ++ m'.owed = m.owed ++ (e.change m).toList := by
  cases hstep with
  | report v =>
      have hquiet : m.pending = none := hturn
      have hsame : m.published = m.truth := by rwa [Current, hquiet] at h
      simp [Event.replaces, Event.writes, Event.change, owed, hquiet, hsame]
  | settle v hquiet =>
      have hsame : m.published = m.truth := by rwa [Current, hquiet] at h
      simp [Event.replaces, Event.writes, Event.change, owed, hquiet, hsame]
  | publish v hpending =>
      simp [Event.replaces, Event.writes, Event.change, owed, hpending]
  | silent => simp [Event.replaces, Event.writes, Event.change]

/-- The same for the changes that are settled and their publishes. -/
theorem Step.publishes_owed (hstep : Step m e m') (hturn : e.InTurn m)
    (h : m.Current) :
    (e.publishes m).toList ++ m'.owed = m.owed ++ (e.settled m).toList := by
  cases hstep with
  | report v =>
      have hquiet : m.pending = none := hturn
      simp [Event.publishes, Event.settled, owed, hquiet]
  | settle v hquiet =>
      have hsame : m.published = m.truth := by rwa [Current, hquiet] at h
      simp [Event.publishes, Event.settled, owed, hquiet, hsame]
  | publish v hpending =>
      simp [Event.publishes, Event.settled, owed, hpending]
  | silent => simp [Event.publishes, Event.settled]

/-! ## A value that is to stay published -/

/-- What would replace the published `last` does not happen: it is reported
only while no publish is pending, and once it is published no other value is
reported and none is settled. -/
def Event.Spares (last : α) (m : Mirror α) : Event α → Prop
  | .report v => v = last ∧ m.pending = none ∨ v ≠ last ∧ m.published ≠ last
  | .settle _ => m.published ≠ last
  | .publish _ => True
  | .silent => True

/-- No publish is pending that would replace the published `last`. -/
def Lasting (last : α) (m : Mirror α) : Prop :=
  m.published = last → m.pending = none

theorem Step.lasting {last : α} (hstep : Step m e m')
    (hspares : e.Spares last m) (h : m.Lasting last) : m'.Lasting last := by
  cases hstep with
  | report v =>
      rcases hspares with ⟨-, hquiet⟩ | ⟨hne, -⟩
      · exact fun _ => hquiet
      · exact fun heq => absurd heq hne
  | settle v hquiet => exact fun heq => absurd heq hspares
  | publish v hpending => exact fun _ => rfl
  | silent => exact h

theorem Step.published_eq_of_spares {last : α} (hstep : Step m e m')
    (hspares : e.Spares last m) (h : m.Lasting last)
    (hpublished : m.published = last) : m'.published = last := by
  cases hstep with
  | report v =>
      rcases hspares with ⟨heq, -⟩ | ⟨-, hne⟩
      · exact heq
      · exact absurd hpublished hne
  | settle v hquiet => exact hpublished
  | publish v hpending =>
      rw [h hpublished] at hpending
      cases hpending
  | silent => exact hpublished

/-- An event that does not spare `last` replaces it, or leaves it published
with a publish pending. -/
theorem Step.of_not_spares {last : α} (hstep : Step m e m')
    (hnot : ¬ e.Spares last m) :
    m.published = last ∧ m'.published ≠ last ∨
      m'.published = last ∧ m'.pending ≠ none := by
  cases hstep with
  | report v =>
      by_cases heq : v = last
      · exact Or.inr ⟨heq, fun hquiet => hnot (Or.inl ⟨heq, hquiet⟩)⟩
      · refine Or.inl ⟨?_, heq⟩
        by_contra hne
        exact hnot (Or.inr ⟨heq, hne⟩)
  | settle v hquiet =>
      exact Or.inr ⟨not_not.mp hnot, Option.some_ne_none v⟩
  | publish v hpending => exact absurd trivial hnot
  | silent => exact absurd trivial hnot

/-- While `last` stays published, a publish of another value stays pending. -/
theorem Step.pending_eq {last v : α} (hstep : Step m e m')
    (hpending : m.pending = some v) (hne : v ≠ last)
    (hpublished : m'.published = last) : m'.pending = some v := by
  cases hstep with
  | report v' => exact hpending
  | settle v' hquiet =>
      rw [hquiet] at hpending
      cases hpending
  | publish v' hown =>
      obtain rfl := Option.some.inj (hpending.symm.trans hown)
      exact absurd hpublished hne
  | silent => exact hpending

end Mirror
