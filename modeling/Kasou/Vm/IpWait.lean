import Kasou.Library.Polling
import Kasou.Vm.Trace

/-!
# Waiting for an IP address

One call of `wait_for_ip`, from its invocation to its return, whatever the
lease lookups answer and whatever the clock shows, as long as a sleep takes
its second.  Delegate callbacks may fall between any two steps of the call.
-/

namespace Kasou

open TransitionSystem

/-- The pause between two rounds of the loop, in nanoseconds. -/
def pollInterval : Nat := 1000000000

/-- The seconds of a span, rounded up. -/
def Duration.ceilSecs (d : Duration) : Nat :=
  (d.asNanos + pollInterval - 1) / pollInterval

/-- What a call of `wait_for_ip` meets. -/
abbrev LeasePolling := Polling Text pollInterval

/-! ## Schedules of one call -/

/-- A step of the host thread outside the loop. -/
def Action.isHost : Action → Bool
  | .host _ => true
  | _ => false

/-- A round of the loop, which makes one lookup. -/
def Action.isLookup : Action → Bool
  | .poll _ _ => true
  | _ => false

/-- The steps of the host thread outside the loop. -/
def hostSteps (as : List Action) : Nat := as.countP Action.isHost

/-- The lookups. -/
def lookups (as : List Action) : Nat := as.countP Action.isLookup

/-- The action can follow `k` host steps and `n` lookups of the call: the
first host step reads the clock, each lookup has its answer and its reading,
and no other call is made. -/
def LeasePolling.Admits (p : LeasePolling) (k n : Nat) : Action → Prop
  | .invoke _ => False
  | .host now => k = 0 → now = p.start
  | .poll found now => found = p.answer n ∧ now = p.clock n
  | .sync _ => True
  | .complete _ => True
  | .guestDidStop => True
  | .didStopWithError _ => True

/-- The schedule of a call that meets `p`. -/
inductive LeasePolling.Meets (p : LeasePolling) : List Action → Prop where
  | nil : Meets p []
  | concat (as : List Action) (a : Action) (hmeets : Meets p as)
      (ha : p.Admits (hostSteps as) (lookups as) a) : Meets p (as ++ [a])

theorem hostSteps_concat (as : List Action) (a : Action) :
    hostSteps (as ++ [a]) = hostSteps as + a.isHost.toNat := by
  rw [hostSteps, List.countP_append, List.countP_singleton]
  cases a.isHost <;> rfl

theorem lookups_concat (as : List Action) (a : Action) :
    lookups (as ++ [a]) = lookups as + a.isLookup.toNat := by
  rw [lookups, List.countP_append, List.countP_singleton]
  cases a.isLookup <;> rfl

namespace VmHandle

/-! ## How far a call can be -/

/-- How far a call is. -/
inductive WaitStage where
  /-- About to read the clock. -/
  | begun
  /-- In the loop. -/
  | polling
  /-- Out of the loop with an address. -/
  | found (ip : Text)
  /-- The address is announced. -/
  | announced (ip : Text) (now : Instant)
  | succeeded (ip : Text) (now : Instant)
  /-- Out of the loop at the deadline. -/
  | expired
  | failed

namespace WaitStage

/-- The steps that the host thread has taken outside the loop. -/
def hostSteps : WaitStage → Nat
  | begun => 0
  | polling | found _ | expired => 1
  | announced _ _ | failed => 2
  | succeeded _ _ => 3

/-- Where the host thread is. -/
def thread (mac : Text) (timeout : Duration) (deadline : Instant) :
    WaitStage → Thread
  | begun =>
      .running (.waitForIp timeout) (.readClock fun now =>
        pollUntil mac timeout (Instant.checkedAdd now timeout))
  | polling =>
      .running (.waitForIp timeout) (.pollLease mac timeout deadline)
  | found ip =>
      .running (.waitForIp timeout)
        (.emit (.ipAssigned ip) (.finish (.returned (.ok (.ip ip)))))
  | announced ip _ =>
      .running (.waitForIp timeout) (.finish (.returned (.ok (.ip ip))))
  | expired =>
      .running (.waitForIp timeout)
        (.finish (.returned (.error (noLeaseError mac timeout))))
  | succeeded _ _ | failed => .idle

/-- What the call has put on the event bus. -/
def events (id : VmId) : WaitStage → List VmEvent
  | announced ip now | succeeded ip now => [⟨now, id, .ipAssigned ip⟩]
  | begun | polling | found _ | expired | failed => []

/-- What the call has returned. -/
def outcomes (mac : Text) (timeout : Duration) : WaitStage → List Outcome
  | succeeded ip _ => [.returned (.ok (.ip ip))]
  | failed => [.returned (.error (noLeaseError mac timeout))]
  | begun | polling | found _ | announced _ _ | expired => []

/-- What `n` lookups have shown. -/
def Knows (p : LeasePolling) (deadline : Instant) (n : Nat) :
    WaitStage → Prop
  | begun => n = 0
  | polling => ∀ i < n, p.GoesOn deadline i
  | found ip | announced ip _ | succeeded ip _ =>
      ∃ m, n = m + 1 ∧ (∀ i < m, p.GoesOn deadline i) ∧ p.answer m = some ip
  | expired | failed =>
      ∃ m, n = m + 1 ∧ (∀ i < m, p.GoesOn deadline i) ∧ p.answer m = none ∧
        deadline ≤ p.clock m

end WaitStage

/-- After `k` host steps and `n` lookups, the call that was invoked on `h` is
as far as `stage` says, and it has left nothing else on the handle. -/
structure WaitsAt (h : VmHandle) (mac : Text) (timeout : Duration)
    (p : LeasePolling) (stage : WaitStage) (k n : Nat) (g : VmHandle) :
    Prop where
  hostSteps : k = stage.hostSteps
  lookups : stage.Knows p (p.start + timeout.asNanos) n
  sameConfig : g.config = h.config
  thread : g.thread = stage.thread mac timeout (p.start + timeout.asNanos)
  events : g.eventBus.sent = h.eventBus.sent ++ stage.events h.config.id
  returns : g.returns = h.returns ++
    (stage.outcomes mac timeout).map fun o => (.waitForIp timeout, o)

section Steps

variable {h g g' : VmHandle} {mac : Text} {timeout : Duration}
  {p : LeasePolling} {stage : WaitStage} {k n : Nat}

/-- A delegate callback leaves the call where it is. -/
theorem WaitsAt.callback {v : VmState}
    (hat : WaitsAt h mac timeout p stage k n g) :
    WaitsAt h mac timeout p stage k n ({ g with vm := v }.sendState v) :=
  ⟨hat.hostSteps, hat.lookups, hat.sameConfig, hat.thread, hat.events,
    hat.returns⟩

/-- A step of the host thread outside the loop. -/
theorem WaitsAt.host {now : Instant}
    (hat : WaitsAt h mac timeout p stage k n g)
    (hfits : p.start + timeout.asNanos < Instant.limit)
    (hnow : k = 0 → now = p.start) (hstep : g.step (.host now) = some g') :
    ∃ stage', WaitsAt h mac timeout p stage' (k + 1) n g' := by
  obtain ⟨hk, hknows, hconfig, hthread, hevents, hreturns⟩ := hat
  rw [step, stepHost, hthread] at hstep
  cases stage with
  | begun =>
      have hstart : Instant.checkedAdd now timeout =
          some (p.start + timeout.asNanos) := by
        rw [hnow hk, Instant.checkedAdd, if_pos hfits]
      obtain rfl := Option.some.inj hstep
      refine ⟨.polling, congrArg (· + 1) hk, ?_, hconfig, ?_, hevents,
        hreturns⟩
      · intro i hi
        obtain rfl : n = 0 := hknows
        exact absurd hi (Nat.not_lt_zero i)
      · exact congrArg (fun d => Thread.running (.waitForIp timeout)
          (pollUntil mac timeout d)) hstart
  | polling => cases hstep
  | found ip =>
      obtain rfl := Option.some.inj hstep
      refine ⟨.announced ip now, congrArg (· + 1) hk, hknows, hconfig, rfl, ?_,
        hreturns⟩
      change g.eventBus.sent ++ [⟨now, g.config.id, .ipAssigned ip⟩] = _
      simp [hevents, hconfig, WaitStage.events]
  | announced ip t =>
      obtain rfl := Option.some.inj hstep
      refine ⟨.succeeded ip t, congrArg (· + 1) hk, hknows, hconfig, rfl,
        hevents, ?_⟩
      simp [hreturns, WaitStage.outcomes]
  | expired =>
      obtain rfl := Option.some.inj hstep
      refine ⟨.failed, congrArg (· + 1) hk, hknows, hconfig, rfl, hevents, ?_⟩
      simp [hreturns, WaitStage.outcomes]
  | succeeded ip t => cases hstep
  | failed => cases hstep

/-- A round of the loop. -/
theorem WaitsAt.poll (hat : WaitsAt h mac timeout p stage k n g)
    (hstep : g.step (.poll (p.answer n) (p.clock n)) = some g') :
    ∃ stage', WaitsAt h mac timeout p stage' k (n + 1) g' := by
  obtain ⟨hk, hknows, hconfig, hthread, hevents, hreturns⟩ := hat
  rw [step, stepPoll, hthread] at hstep
  cases stage with
  | polling =>
      cases hanswer : p.answer n with
      | some ip =>
          simp only [WaitStage.thread, hanswer, Option.some.injEq] at hstep
          subst hstep
          exact ⟨.found ip, hk, ⟨n, rfl, hknows, hanswer⟩, hconfig, rfl,
            hevents, hreturns⟩
      | none =>
          by_cases hclock : p.start + timeout.asNanos ≤ p.clock n
          · simp only [WaitStage.thread, hanswer, if_pos hclock,
              Option.some.injEq] at hstep
            subst hstep
            exact ⟨.expired, hk, ⟨n, rfl, hknows, hanswer, hclock⟩, hconfig,
              rfl, hevents, hreturns⟩
          · simp only [WaitStage.thread, hanswer, if_neg hclock,
              Option.some.injEq] at hstep
            subst hstep
            have hround : p.GoesOn (p.start + timeout.asNanos) n :=
              ⟨hanswer, Nat.lt_of_not_le hclock⟩
            exact ⟨.polling, hk, p.goesOn_succ hknows hround, hconfig, hthread,
              hevents, hreturns⟩
  | begun | found _ | announced _ _ | succeeded _ _ | expired | failed =>
      cases hstep

/-- A step of the system that meets `p`. -/
theorem WaitsAt.step {a : Action}
    (hat : WaitsAt h mac timeout p stage k n g)
    (hfits : p.start + timeout.asNanos < Instant.limit)
    (ha : p.Admits k n a) (hstep : g.step a = some g') :
    ∃ stage', WaitsAt h mac timeout p stage' (k + a.isHost.toNat)
      (n + a.isLookup.toNat) g' := by
  cases a with
  | invoke call => exact absurd ha not_false
  | host now => exact hat.host hfits ha hstep
  | sync outcome =>
      rw [VmHandle.step, hat.thread] at hstep
      cases stage <;> cases hstep
  | poll found now =>
      obtain ⟨rfl, rfl⟩ := ha
      exact hat.poll hstep
  | complete answer =>
      rw [VmHandle.step, hat.thread] at hstep
      cases stage <;> cases hstep
  | guestDidStop =>
      obtain rfl := Option.some.inj hstep
      exact ⟨stage, hat.callback⟩
  | didStopWithError error =>
      obtain rfl := Option.some.inj hstep
      exact ⟨stage, hat.callback⟩

/-- The host thread always has a next step, until the call has returned. -/
theorem WaitsAt.goesOn (hat : WaitsAt h mac timeout p stage k n g)
    (hbusy : g.thread ≠ .idle) :
    ∃ a g', g.step a = some g' ∧ p.Admits k n a ∧ a.onQueue = false ∧
      0 < a.isHost.toNat + a.isLookup.toNat := by
  have hhost : ∀ {body : Body} {g' : VmHandle} {now : Instant},
      g.thread = .running (.waitForIp timeout) body →
        g.stepBody now (.waitForIp timeout) body = some g' →
          g.step (.host now) = some g' := by
    intro body g' now hthread hbody
    rw [VmHandle.step, stepHost, hthread]
    exact hbody
  have hthread := hat.thread
  have hk := hat.hostSteps
  cases stage with
  | begun =>
      exact ⟨.host p.start, _, hhost hthread rfl, fun _ => rfl, rfl,
        Nat.one_pos⟩
  | polling =>
      obtain ⟨g', hpoll⟩ : ∃ g',
          g.step (.poll (p.answer n) (p.clock n)) = some g' := by
        rw [VmHandle.step, stepPoll, hthread]
        cases p.answer n with
        | some ip => exact ⟨_, rfl⟩
        | none =>
            by_cases hclock : p.start + timeout.asNanos ≤ p.clock n
            · exact ⟨_, if_pos hclock⟩
            · exact ⟨_, if_neg hclock⟩
      exact ⟨_, g', hpoll, ⟨rfl, rfl⟩, rfl, Nat.one_pos⟩
  | found _ | announced _ _ | expired =>
      refine ⟨.host 0, _, hhost hthread rfl, ?_, rfl, Nat.one_pos⟩
      intro hzero
      cases hk.symm.trans hzero
  | succeeded _ _ | failed => exact absurd hthread hbusy

/-- The timeout bounds the lookups. -/
theorem WaitsAt.lookups_le (hat : WaitsAt h mac timeout p stage k n g) :
    n ≤ timeout.ceilSecs + 1 := by
  have hrounds : ∀ {m : Nat},
      (∀ i < m, p.GoesOn (p.start + timeout.asNanos) i) →
        m ≤ timeout.ceilSecs :=
    fun hm => p.rounds_le (by decide) hm
  have hknows := hat.lookups
  cases stage with
  | begun =>
      obtain rfl : n = 0 := hknows
      exact Nat.zero_le _
  | polling => exact Nat.le_succ_of_le (hrounds hknows)
  | found _ | announced _ _ | succeeded _ _ | expired | failed =>
      obtain ⟨m, rfl, hm, -⟩ := hknows
      exact Nat.succ_le_succ (hrounds hm)

theorem WaitsAt.hostSteps_le (hat : WaitsAt h mac timeout p stage k n g) :
    k ≤ 3 := by
  rw [hat.hostSteps]
  cases stage <;> simp [WaitStage.hostSteps]

/-! ## Whole calls -/

/-- What the invocation of the call leaves to run. -/
theorem run_invoke (hidle : h.thread = .idle)
    (hmac : h.config.network.macAddress = some mac) (as : List Action) :
    run VmHandle.step h (.invoke (.waitForIp timeout) :: as) =
      run VmHandle.step (h.setThread (.running (.waitForIp timeout)
        (.readClock fun now =>
          pollUntil mac timeout (Instant.checkedAdd now timeout)))) as := by
  have hinvoke : h.step (.invoke (.waitForIp timeout)) =
      some (h.setThread (.running (.waitForIp timeout)
        (waitForIp h.config timeout))) := by
    rw [VmHandle.step, hidle]
    rfl
  rw [run_cons, hinvoke, waitForIp, hmac]
  rfl

/-- What is left of a call that meets `p`. -/
theorem waitsAt_of_meets {as : List Action} (hidle : h.thread = .idle)
    (hmac : h.config.network.macAddress = some mac)
    (hfits : p.start + timeout.asNanos < Instant.limit) (hmeets : p.Meets as)
    (hrun : run VmHandle.step h (.invoke (.waitForIp timeout) :: as) =
      some g) :
    ∃ stage, WaitsAt h mac timeout p stage (hostSteps as) (lookups as) g := by
  induction hmeets generalizing g with
  | nil =>
      rw [run_invoke hidle hmac, run_nil] at hrun
      obtain rfl := Option.some.inj hrun
      exact ⟨.begun, rfl, rfl, rfl, rfl, (List.append_nil _).symm,
        (List.append_nil _).symm⟩
  | concat as a hmeets ha ih =>
      rw [← List.cons_append] at hrun
      obtain ⟨g₀, hbefore, hstep⟩ := run_concat_eq_some_iff.mp hrun
      obtain ⟨stage, hat⟩ := ih hbefore
      rw [hostSteps_concat, lookups_concat]
      exact hat.step hfits ha hstep

/-- What a call that has returned after `n` lookups reports. -/
inductive Reports (h : VmHandle) (timeout : Duration) (p : LeasePolling)
    (n : Nat) (g : VmHandle) : Prop where
  /-- The first address found, which was announced once. -/
  | found (m : Nat) (ip : Text) (now : Instant) (hn : n = m + 1)
      (hnone : ∀ i < m, p.answer i = none) (hfirst : p.answer m = some ip)
      (hreturns : g.returns =
        h.returns ++ [(.waitForIp timeout, .returned (.ok (.ip ip)))])
      (hevents : g.eventBus.sent =
        h.eventBus.sent ++ [⟨now, h.config.id, .ipAssigned ip⟩]) :
      Reports h timeout p n g
  /-- That there was none up to the deadline, and nothing was announced. -/
  | expired (m : Nat) (e : KasouError) (hn : n = m + 1)
      (hnone : ∀ i ≤ m, p.answer i = none)
      (hdeadline : p.start + timeout.asNanos ≤ p.clock m)
      (hreturns : g.returns =
        h.returns ++ [(.waitForIp timeout, .returned (.error e))])
      (hevents : g.eventBus.sent = h.eventBus.sent) :
      Reports h timeout p n g

theorem WaitsAt.reports (hat : WaitsAt h mac timeout p stage k n g)
    (hidle : g.thread = .idle) : Reports h timeout p n g := by
  obtain ⟨-, hknows, -, hthread, hevents, hreturns⟩ := hat
  rw [hidle] at hthread
  cases stage with
  | begun | polling | found _ | announced _ _ | expired => cases hthread
  | succeeded ip now =>
      obtain ⟨m, hn, hm, hanswer⟩ := hknows
      exact .found m ip now hn (fun i hi => (hm i hi).1) hanswer hreturns
        hevents
  | failed =>
      obtain ⟨m, hn, hm, hanswer, hclock⟩ := hknows
      refine .expired m (noLeaseError mac timeout) hn ?_ hclock hreturns ?_
      · intro i hi
        by_cases heq : i = m
        · exact heq ▸ hanswer
        · exact (hm i (by omega)).1
      · rw [hevents, WaitStage.events, List.append_nil]

/-- What holds of a call that was invoked on `h` and has led to `g` by the
actions `as`. -/
structure WaitsInTime (h : VmHandle) (timeout : Duration) (p : LeasePolling)
    (as : List Action) (g : VmHandle) : Prop where
  lookups_le : lookups as ≤ timeout.ceilSecs + 1
  hostSteps_le : hostSteps as ≤ 3
  /-- The host thread can carry the call to its end. -/
  ends : ∃ bs u, (∀ b ∈ bs, b.onQueue = false) ∧ p.Meets (as ++ bs) ∧
    run VmHandle.step g bs = some u ∧ u.thread = .idle
  reports : g.thread = .idle → Reports h timeout p (lookups as) g

theorem ends_of_waitsAt {as : List Action}
    (hfits : p.start + timeout.asNanos < Instant.limit) (hmeets : p.Meets as)
    (hat : WaitsAt h mac timeout p stage (hostSteps as) (lookups as) g) :
    ∃ bs u, (∀ b ∈ bs, b.onQueue = false) ∧ p.Meets (as ++ bs) ∧
      run VmHandle.step g bs = some u ∧ u.thread = .idle := by
  let P (u : VmHandle) (bs : List Action) : Prop :=
    (∀ b ∈ bs, b.onQueue = false) ∧ p.Meets (as ++ bs) ∧
      ∃ stage, WaitsAt h mac timeout p stage (hostSteps (as ++ bs))
        (lookups (as ++ bs)) u
  have hbound : ∀ u bs, P u bs →
      hostSteps (as ++ bs) + lookups (as ++ bs) ≤
        3 + (timeout.ceilSecs + 1) := by
    rintro u bs ⟨-, -, stage, hu⟩
    exact Nat.add_le_add hu.hostSteps_le hu.lookups_le
  have hprogress : ∀ u bs, P u bs → ¬u.thread = .idle →
      ∃ a u', u.step a = some u' ∧ P u' (bs ++ [a]) ∧
        hostSteps (as ++ bs) + lookups (as ++ bs) <
          hostSteps (as ++ (bs ++ [a])) + lookups (as ++ (bs ++ [a])) := by
    rintro u bs ⟨hbs, hmeets, stage, hu⟩ hbusy
    obtain ⟨a, u', hstep, ha, hhost, hcost⟩ := hu.goesOn hbusy
    obtain ⟨stage', hu'⟩ := hu.step hfits ha hstep
    rw [← hostSteps_concat, ← lookups_concat, List.append_assoc] at hu'
    refine ⟨a, u', hstep, ⟨?_, ?_, stage', hu'⟩, ?_⟩
    · intro b hb
      rcases List.mem_append.mp hb with hb | hb
      · exact hbs b hb
      · exact List.mem_singleton.mp hb ▸ hhost
    · rw [← List.append_assoc]
      exact .concat _ a hmeets ha
    · rw [← List.append_assoc, hostSteps_concat, lookups_concat]
      omega
  have hstart : P g [] := by
    refine ⟨fun b hb => absurd hb List.not_mem_nil, ?_, stage, ?_⟩
    · rwa [List.append_nil]
    · rwa [List.append_nil]
  obtain ⟨bs, u, hrun, ⟨hbs, hend, -⟩, hidle⟩ :=
    exists_run_of_progress hbound hprogress hstart
  exact ⟨bs, u, hbs, hend, hrun, hidle⟩

/-- With a deadline that is no instant, the call panics at once. -/
theorem panics_of_limit_le (hidle : h.thread = .idle)
    (hmac : h.config.network.macAddress = some mac)
    (hlimit : ¬p.start + timeout.asNanos < Instant.limit) :
    ∃ as u message, p.Meets as ∧
      run VmHandle.step h (.invoke (.waitForIp timeout) :: as) = some u ∧
        u.thread = .idle ∧
          u.returns = h.returns ++
            [(.waitForIp timeout, .panicked message)] := by
  have hclock : (h.setThread (.running (.waitForIp timeout)
      (.readClock fun now => pollUntil mac timeout
        (Instant.checkedAdd now timeout)))).step (.host p.start) =
      some (h.setThread (.running (.waitForIp timeout)
        (pollUntil mac timeout none))) := by
    have hnone : Instant.checkedAdd p.start timeout = none := by
      rw [Instant.checkedAdd, if_neg hlimit]
    rw [← hnone]
    rfl
  have hmeets : p.Meets [.host p.start, .host 0] := by
    refine .concat [.host p.start] _ (.concat [] _ .nil fun _ => rfl) ?_
    intro hzero
    cases hzero
  exact ⟨_, _, _, hmeets, (run_invoke hidle hmac _).trans
    (run_cons_eq_some_iff.mpr ⟨_, hclock, rfl⟩), rfl, rfl⟩

theorem Reports.not_panicked {message : Text}
    (hreports : Reports h timeout p n g) :
    g.returns ≠ h.returns ++ [(.waitForIp timeout, .panicked message)] := by
  intro hpanicked
  cases hreports with
  | found m ip now _ _ _ hreturns _ =>
      cases List.append_cancel_left (hreturns.symm.trans hpanicked)
  | expired m e _ _ _ hreturns _ =>
      cases List.append_cancel_left (hreturns.symm.trans hpanicked)

end Steps

/-- **The wait for an address is bounded and reports what it saw** exactly when
the deadline is an instant, however the lookups answer and the clock goes. -/
theorem waitForIp_in_time_iff (h : VmHandle) (mac : Text) (timeout : Duration)
    (p : LeasePolling) (hidle : h.thread = .idle)
    (hmac : h.config.network.macAddress = some mac) :
    (∀ as g, p.Meets as →
      run step h (.invoke (.waitForIp timeout) :: as) = some g →
        WaitsInTime h timeout p as g) ↔
      p.start + timeout.asNanos < Instant.limit := by
  constructor
  · intro hall
    by_contra hlimit
    obtain ⟨as, u, message, hmeets, hrun, hend, hpanicked⟩ :=
      panics_of_limit_le hidle hmac hlimit
    exact ((hall as u hmeets hrun).reports hend).not_panicked hpanicked
  · intro hfits as g hmeets hrun
    obtain ⟨stage, hat⟩ := waitsAt_of_meets hidle hmac hfits hmeets hrun
    exact
      { lookups_le := hat.lookups_le
        hostSteps_le := hat.hostSteps_le
        ends := ends_of_waitsAt hfits hmeets hat
        reports := hat.reports }

/-- Two lookups in vain, and then an address, on a clock that is a little
late. -/
def thirdTime : LeasePolling where
  start := 5
  answer i := if i < 2 then none else some "192.168.64.9".toList
  clock i := 7 + i * (pollInterval + 1)
  start_le := by decide
  clock_add_le i := by
    rw [Nat.succ_mul]
    omega

theorem waitForIp_in_time_thirdTime :
    (∃ u, run step (create smokeConfig) [.invoke (.waitForIp ⟨30, 0⟩),
      .host 5, .poll none 7, .guestDidStop, .poll none 1000000008,
      .poll (some "192.168.64.9".toList) 2000000009, .host 2000000010,
      .host 2000000011] = some u ∧ u.returns = [(.waitForIp ⟨30, 0⟩,
        .returned (.ok (.ip "192.168.64.9".toList)))]) ∧
      ∀ as g, thirdTime.Meets as → run step (create smokeConfig)
        (.invoke (.waitForIp ⟨30, 0⟩) :: as) = some g →
          WaitsInTime (create smokeConfig) ⟨30, 0⟩ thirdTime as g := by
  have hfits : thirdTime.start + (Duration.mk 30 0).asNanos <
      Instant.limit := by decide
  exact ⟨⟨_, rfl, rfl⟩, (waitForIp_in_time_iff (create smokeConfig)
    "52:55:55:aa:bb:cc".toList ⟨30, 0⟩ thirdTime rfl rfl).mpr hfits⟩

/-- The longest span of whole seconds. -/
def longestWait : Duration := ⟨0xffffffffffffffff, 0⟩

/-- A wait that long panics. -/
theorem longestWait_panics :
    (∃ u message, run step (create smokeConfig)
      [.invoke (.waitForIp longestWait), .host 5, .host 0] = some u ∧
        u.returns = [(.waitForIp longestWait, .panicked message)]) ∧
      ¬∀ as g, thirdTime.Meets as → run step (create smokeConfig)
        (.invoke (.waitForIp longestWait) :: as) = some g →
          WaitsInTime (create smokeConfig) longestWait thirdTime as g := by
  refine ⟨⟨_, _, rfl, rfl⟩, ?_⟩
  intro hall
  have hlimit : ¬thirdTime.start + longestWait.asNanos < Instant.limit := by
    decide
  have hidle : (create smokeConfig).thread = .idle := rfl
  obtain ⟨as, u, message, hmeets, hrun, hend, hpanicked⟩ :=
    panics_of_limit_le hidle rfl hlimit
  exact ((hall as u hmeets hrun).reports hend).not_panicked hpanicked

end VmHandle

end Kasou
