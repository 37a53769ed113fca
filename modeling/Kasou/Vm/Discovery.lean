import Kasou.Dhcp.Store
import Kasou.Dhcp.TornRead
import Kasou.Vm.Progress

/-!
# Discovering the address of a machine

While `wait_for_ip` looks into the lease file, the DHCP server appends to it.
A lease that is in the file stays in its table until a later one of the same
address replaces it, so a call that starts with a lease in the file does not
time out, and the address that it returns is the one that the file gives at
one of its own looks.
-/

namespace Kasou

open TransitionSystem

/-- A handle and the lease file that it looks into. -/
structure Network where
  handle : VmHandle
  leases : Dhcp.LeaseFile

namespace Network

/-- What happens to a handle and the lease file. -/
inductive Action where
  /-- A step of the handle outside the loop of `wait_for_ip`. -/
  | handle (a : Kasou.Action)
  /-- One round of the loop, which reads the file. -/
  | look (now : Instant)
  /-- The server gives out a lease. -/
  | lease (w : Dhcp.WrittenLease)

/-- The address that a lookup finds. -/
def address (table : LowercaseTable) (mac : Text) (n : Network) :
    Option Text :=
  Dhcp.lookupIpByMac table (fun _ => some n.leases.content) mac

/-- The address that the round of the loop is for. -/
def lookedUp (n : Network) : Option Text :=
  match n.handle.thread with
  | .running _ (.pollLease mac _ _) => some mac
  | _ => none

/-- The step function of a handle with its lease file. -/
def step (table : LowercaseTable) (n : Network) : Action → Option Network
  | .handle (.poll _ _) => none
  | .handle a => (n.handle.step a).map fun h => { n with handle := h }
  | .look now =>
      n.lookedUp.bind fun mac =>
        (n.handle.step (.poll (n.address table mac) now)).map fun h =>
          { n with handle := h }
  | .lease w => some { n with leases := n.leases.append w }

end Network

/-! ## One call -/

/-- The next step of the body is one of the host thread alone. -/
def Body.plain : Body → Bool
  | .syncFile _ _ | .pollLease _ _ _ => false
  | _ => true

namespace VmHandle

/-- What the schedule of a call of `wait_for_ip` has been so far. -/
structure WaitRecord where
  /-- The host thread has taken no step of its own. -/
  untouched : Prop
  /-- The call has read the clock, which showed this. -/
  read : Instant → Prop
  /-- A lookup has shown this, and the clock that after it. -/
  showed : Option Text → Instant → Prop

/-- What a step of the handle, or of its surroundings, adds to a record. -/
structure WaitRecord.Follows (r : WaitRecord) (a : Option Action)
    (r' : WaitRecord) : Prop where
  untouched : r.untouched → (∀ now, a ≠ some (.host now)) → r'.untouched
  first : ∀ now, r.untouched → a = some (.host now) → r'.read now
  read : ∀ now, r.read now → r'.read now
  showed : ∀ found now, r.showed found now → r'.showed found now

/-- How a call of `wait_for_ip` with this record can end. -/
inductive WaitEnds (mac : Text) (timeout : Duration) (r : WaitRecord) :
    Outcome → Prop where
  /-- There is no deadline for the reading that the call began with. -/
  | panicked (start : Instant) (hread : r.read start)
      (hnone : Instant.checkedAdd start timeout = none) :
      WaitEnds mac timeout r
        (.panicked "overflow when adding duration to instant".toList)
  | found (ip : Text) (now : Instant) (hshowed : r.showed (some ip) now) :
      WaitEnds mac timeout r (.returned (.ok (.ip ip)))
  | expired (start deadline now : Instant) (hread : r.read start)
      (hdeadline : Instant.checkedAdd start timeout = some deadline)
      (hlate : deadline ≤ now) (hshowed : r.showed none now) :
      WaitEnds mac timeout r
        (.returned (.error (noLeaseError mac timeout)))

/-- Where a call of `wait_for_ip` is that found `returns` returned. -/
inductive Waits (mac : Text) (timeout : Duration) (r : WaitRecord)
    (returns : List (HostCall × Outcome)) (h : VmHandle) : Prop where
  /-- About to read the clock. -/
  | begun (huntouched : r.untouched)
      (hthread : h.thread = .running (.waitForIp timeout) (.readClock
        fun now => pollUntil mac timeout (Instant.checkedAdd now timeout)))
      (hreturns : h.returns = returns)
  | polling (start deadline : Instant) (hread : r.read start)
      (hdeadline : Instant.checkedAdd start timeout = some deadline)
      (hthread : h.thread = .running (.waitForIp timeout)
        (.pollLease mac timeout deadline))
      (hreturns : h.returns = returns)
  /-- Out of the loop with an address that is to be announced. -/
  | announcing (ip : Text) (now : Instant)
      (hshowed : r.showed (some ip) now)
      (hthread : h.thread = .running (.waitForIp timeout)
        (.emit (.ipAssigned ip) (.finish (.returned (.ok (.ip ip))))))
      (hreturns : h.returns = returns)
  | ending (outcome : Outcome) (hends : WaitEnds mac timeout r outcome)
      (hthread : h.thread = .running (.waitForIp timeout) (.finish outcome))
      (hreturns : h.returns = returns)
  | returned (outcome : Outcome) (hends : WaitEnds mac timeout r outcome)
      (hreturns : returns ++ [(.waitForIp timeout, outcome)] <+: h.returns)

variable {mac : Text} {timeout : Duration} {r r' : WaitRecord}
  {returns : List (HostCall × Outcome)} {h h' : VmHandle} {a : Action}

theorem WaitEnds.follow {step : Option Action} {outcome : Outcome}
    (hends : WaitEnds mac timeout r outcome) (hfollows : r.Follows step r') :
    WaitEnds mac timeout r' outcome := by
  cases hends with
  | panicked start hread hnone =>
      exact .panicked start (hfollows.read _ hread) hnone
  | found ip now hshowed =>
      exact .found ip now (hfollows.showed _ _ hshowed)
  | expired start deadline now hread hdeadline hlate hshowed =>
      exact .expired start deadline now (hfollows.read _ hread) hdeadline
        hlate (hfollows.showed _ _ hshowed)

/-- What the host thread has no part in leaves a call where it is. -/
theorem Waits.follow {step : Option Action}
    (hwaits : Waits mac timeout r returns h) (hfollows : r.Follows step r')
    (hother : ∀ now, step ≠ some (.host now))
    (hthread' : h'.thread = h.thread) (hreturns' : h'.returns = h.returns) :
    Waits mac timeout r' returns h' := by
  cases hwaits with
  | begun huntouched hthread hreturns =>
      exact .begun (hfollows.untouched huntouched hother)
        (hthread'.trans hthread) (hreturns'.trans hreturns)
  | polling start deadline hread hdeadline hthread hreturns =>
      exact .polling start deadline (hfollows.read _ hread) hdeadline
        (hthread'.trans hthread) (hreturns'.trans hreturns)
  | announcing ip now hshowed hthread hreturns =>
      exact .announcing ip now (hfollows.showed _ _ hshowed)
        (hthread'.trans hthread) (hreturns'.trans hreturns)
  | ending outcome hends hthread hreturns =>
      exact .ending outcome (hends.follow hfollows)
        (hthread'.trans hthread) (hreturns'.trans hreturns)
  | returned outcome hends hreturns =>
      exact .returned outcome (hends.follow hfollows) (hreturns' ▸ hreturns)

/-- What can happen while a body runs. -/
theorem step_running {call : HostCall} {body : Body}
    (hthread : h.thread = .running call body) (hstep : h.step a = some h') :
    (∃ now, a = .host now ∧ h.stepBody now call body = some h') ∨
      (∃ path rest, body = .syncFile path rest) ∨
      (∃ found now, a = .poll found now ∧
        h.stepPoll found now = some h') ∨
      ((∀ now, a ≠ .host now) ∧ h'.thread = h.thread ∧
        h'.returns = h.returns) := by
  cases a with
  | host now =>
      rw [step, stepHost, hthread] at hstep
      exact Or.inl ⟨now, rfl, hstep⟩
  | poll found now =>
      exact Or.inr (Or.inr (Or.inl ⟨found, now, rfl, hstep⟩))
  | sync outcome =>
      rw [step] at hstep
      split at hstep
      next call' path rest hsync =>
        obtain ⟨-, hbody⟩ := Thread.running.inj (hthread.symm.trans hsync)
        exact Or.inr (Or.inl ⟨path, rest, hbody⟩)
      · cases hstep
  | invoke call' =>
      rw [step, hthread] at hstep
      cases hstep
  | complete answer =>
      rw [step, hthread] at hstep
      cases hstep
  | guestDidStop =>
      obtain rfl := Option.some.inj hstep
      refine Or.inr (Or.inr (Or.inr ⟨?_, rfl, rfl⟩))
      intro now heq
      cases heq
  | didStopWithError error =>
      obtain rfl := Option.some.inj hstep
      refine Or.inr (Or.inr (Or.inr ⟨?_, rfl, rfl⟩))
      intro now heq
      cases heq

/-- A body whose next step is one of the host thread alone goes on with it or
is left where it is. -/
theorem step_running_of_plain {call : HostCall} {body : Body}
    (hthread : h.thread = .running call body) (hplain : body.plain = true)
    (hstep : h.step a = some h') :
    (∃ now, a = .host now ∧ h.stepBody now call body = some h') ∨
      ((∀ now, a ≠ .host now) ∧ h'.thread = h.thread ∧
        h'.returns = h.returns) := by
  rcases step_running hthread hstep with hhost | ⟨path, rest, rfl⟩ |
    ⟨found, now, -, hlook⟩ | hsame
  · exact Or.inl hhost
  · cases hplain
  · rw [stepPoll] at hlook
    split at hlook
    next call' mac timeout deadline hloop =>
      obtain ⟨-, rfl⟩ := Thread.running.inj (hthread.symm.trans hloop)
      cases hplain
    · cases hlook
  · exact Or.inr hsame

/-- A call of `wait_for_ip` goes on to its end, whatever happens. -/
theorem Waits.step (hwaits : Waits mac timeout r returns h)
    (hfollows : r.Follows (some a) r')
    (hlooks : ∀ call timeout deadline found now, h.returns = returns →
      h.thread = .running call (.pollLease mac timeout deadline) →
        a = .poll found now → r'.showed found now)
    (hstep : h.step a = some h') : Waits mac timeout r' returns h' := by
  have hleft : (∀ now, a ≠ .host now) → h'.thread = h.thread →
      h'.returns = h.returns → Waits mac timeout r' returns h' :=
    fun hother => hwaits.follow hfollows
      fun now heq => hother now (Option.some.inj heq)
  cases hwaits with
  | begun huntouched hthread hreturns =>
      rcases step_running_of_plain hthread rfl hstep with
        ⟨now, rfl, hhost⟩ | ⟨hother, hthread', hreturns'⟩
      · have hread := hfollows.first now huntouched rfl
        have hthread' : h'.thread = .running (.waitForIp timeout)
            (pollUntil mac timeout (Instant.checkedAdd now timeout)) :=
          congrArg VmHandle.thread (Option.some.inj hhost).symm
        have hreturns' : h'.returns = returns :=
          (congrArg VmHandle.returns (Option.some.inj hhost).symm).trans
            hreturns
        cases hdeadline : Instant.checkedAdd now timeout with
        | none =>
            rw [hdeadline] at hthread'
            exact .ending _ (.panicked now hread hdeadline) hthread'
              hreturns'
        | some deadline =>
            rw [hdeadline] at hthread'
            exact .polling now deadline hread hdeadline hthread' hreturns'
      · exact hleft hother hthread' hreturns'
  | polling start deadline hread hdeadline hthread hreturns =>
      have hread' := hfollows.read _ hread
      rcases step_running hthread hstep with ⟨now, rfl, hhost⟩ |
        ⟨path, rest, hbody⟩ | ⟨found, now, ha, hlook⟩ |
        ⟨hother, hthread', hreturns'⟩
      · cases hhost
      · cases hbody
      · have hshowed := hlooks _ _ _ found now hreturns hthread ha
        simp only [stepPoll, hthread] at hlook
        split at hlook
        next ip =>
          obtain rfl := Option.some.inj hlook
          exact .announcing ip now hshowed rfl hreturns
        · split at hlook
          next hlate =>
            obtain rfl := Option.some.inj hlook
            exact .ending _
              (.expired start deadline now hread' hdeadline hlate hshowed)
              rfl hreturns
          · obtain rfl := Option.some.inj hlook
            exact .polling start deadline hread' hdeadline hthread hreturns
      · exact hleft hother hthread' hreturns'
  | announcing ip now hshowed hthread hreturns =>
      rcases step_running_of_plain hthread rfl hstep with
        ⟨now', rfl, hhost⟩ | ⟨hother, hthread', hreturns'⟩
      · obtain rfl := Option.some.inj hhost
        exact .ending _ (.found ip now (hfollows.showed _ _ hshowed)) rfl
          hreturns
      · exact hleft hother hthread' hreturns'
  | ending outcome hends hthread hreturns =>
      rcases step_running_of_plain hthread rfl hstep with
        ⟨now, rfl, hhost⟩ | ⟨hother, hthread', hreturns'⟩
      · obtain rfl := Option.some.inj hhost
        refine .returned outcome (hends.follow hfollows) ?_
        rw [← hreturns]
      · exact hleft hother hthread' hreturns'
  | returned outcome hends hreturns =>
      have hgrow := (step_sound hstep).returns_grow
      exact .returned outcome (hends.follow hfollows) (hreturns.trans hgrow)

/-- What a call has returned is explained by its record. -/
theorem Waits.ends {call : HostCall} {outcome : Outcome}
    {more : List (HostCall × Outcome)}
    (hwaits : Waits mac timeout r returns h)
    (hreturned : h.returns = returns ++ (call, outcome) :: more) :
    call = .waitForIp timeout ∧ WaitEnds mac timeout r outcome := by
  have hnot : h.returns ≠ returns := by
    rw [hreturned]
    intro heq
    have hlength := congrArg List.length heq
    rw [List.length_append, List.length_cons] at hlength
    omega
  cases hwaits with
  | begun _ hthread hreturns => exact absurd hreturns hnot
  | polling _ _ _ _ hthread hreturns => exact absurd hreturns hnot
  | announcing _ _ _ hthread hreturns => exact absurd hreturns hnot
  | ending _ _ hthread hreturns => exact absurd hreturns hnot
  | returned outcome' hends hreturns =>
      rw [hreturned, List.prefix_append_right_inj] at hreturns
      obtain ⟨rest, hrest⟩ := hreturns
      obtain ⟨hpair, -⟩ := List.cons.inj hrest
      obtain ⟨rfl, rfl⟩ := Prod.mk.inj hpair
      exact ⟨rfl, hends⟩

end VmHandle

/-! ## A call while the server gives out leases -/

namespace Network

variable {table : LowercaseTable} {mac : Text} {n n' : Network} {a : Action}
  {as : List Action}

/-- A step is one of the server or one of the handle, whose lookups show what
the file has. -/
theorem step_cases (hstep : step table n a = some n') :
    (∃ w, a = .lease w ∧ n' = { n with leases := n.leases.append w }) ∨
      ∃ b h', n.handle.step b = some h' ∧ n' = { n with handle := h' } ∧
        (a = .handle b ∧ (∀ found now, b ≠ .poll found now) ∨
          ∃ mac now, a = .look now ∧ n.lookedUp = some mac ∧
            b = .poll (n.address table mac) now) := by
  cases a with
  | lease w => exact Or.inl ⟨w, rfl, (Option.some.inj hstep).symm⟩
  | look now =>
      obtain ⟨mac, hmac, hlook⟩ := Option.bind_eq_some_iff.mp hstep
      obtain ⟨h', hh', rfl⟩ := Option.map_eq_some_iff.mp hlook
      exact Or.inr ⟨_, h', hh', rfl, Or.inr ⟨mac, now, rfl, hmac, rfl⟩⟩
  | handle b =>
      have hown : (∀ found now, b ≠ .poll found now) ∧
          (n.handle.step b).map (fun h => { n with handle := h }) =
            some n' := by
        cases b with
        | poll found now => cases hstep
        | _ => exact ⟨nofun, hstep⟩
      obtain ⟨hnot, hmap⟩ := hown
      obtain ⟨h', hh', rfl⟩ := Option.map_eq_some_iff.mp hmap
      exact Or.inr ⟨b, h', hh', rfl, Or.inl ⟨rfl, hnot⟩⟩

/-- What a lookup finds is what the table of the file has. -/
theorem address_eq : n.address table mac =
    (Dhcp.tableOf table (Dhcp.parseLeases n.leases.content)
      (table.toLowercase mac)).map DhcpLease.ipAddress := rfl

/-- The first actions of a schedule that begins with a call. -/
def calls (timeout : Duration) (as : List Action) : List Action :=
  .handle (.invoke (.waitForIp timeout)) :: as

/-- A lease for the machine of the example. -/
def smokeLease : Dhcp.WrittenLease where
  lease := ⟨"192.168.64.9".toList, "52:55:55:aa:bb:cc".toList, none⟩
  block := DhcpLease.block
    ⟨"192.168.64.9".toList, "52:55:55:aa:bb:cc".toList, none⟩
  renderable := by decide
  renders := DhcpLease.Renderable.block (by decide)

end Network
end Kasou
