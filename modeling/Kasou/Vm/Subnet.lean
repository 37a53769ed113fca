import Kasou.Vm.Discovery
import Kasou.Vm.Info

/-!
# Machines that share the lease file

All machines of a host look into the one lease file that its DHCP server
writes.  Their handles take steps in any order, and the server gives out
leases meanwhile.  What the owner of a machine is told to be its address is
leased to this machine's MAC address, so that machines are told apart as far
as the server tells them apart.
-/

namespace Kasou

open TransitionSystem

/-! ## What a call looks up -/

/-- All that is left to do looks up no other MAC address than `mac`. -/
def Body.LooksUp (mac : Option Text) : Body → Prop
  | .readState rest => ∀ s, (rest s).LooksUp mac
  | .readClock rest => ∀ t, (rest t).LooksUp mac
  | .dispatchVzOp _ rest => rest.LooksUp mac
  | .dispatchVzUrlOp _ _ rest => rest.LooksUp mac
  | .send _ rest => rest.LooksUp mac
  | .emit _ rest => rest.LooksUp mac
  | .syncFile _ rest => rest.LooksUp mac
  | .pollLease own _ _ => mac = some own
  | .finish _ => True

def Thread.LooksUp (mac : Option Text) : Thread → Prop
  | .idle => True
  | .running _ body => body.LooksUp mac
  | .waiting _ _ rest => rest.LooksUp mac
  | .answered _ _ _ rest => rest.LooksUp mac

namespace VmHandle

/-- Every method looks up the configured address alone. -/
theorem body_looksUp (config : VmConfig) (call : HostCall) :
    (call.body config).LooksUp config.network.macAddress := by
  cases call with
  | start => exact fun _ => trivial
  | stop => exact fun _ => trivial
  | pause => exact fun _ => trivial
  | resume => exact fun _ => trivial
  | saveState path => exact trivial
  | restoreState path => exact fun _ => trivial
  | requestStop => exact trivial
  | waitForIp timeout =>
      rw [HostCall.body, waitForIp]
      cases hmac : config.network.macAddress with
      | none => trivial
      | some mac =>
          intro now
          dsimp only
          cases Instant.checkedAdd now timeout with
          | none => trivial
          | some deadline => exact rfl

theorem Moves.looksUp {config : VmConfig} {state : VmState} {t t' : Thread}
    (hmoves : Moves config state t t')
    (ht : t.LooksUp config.network.macAddress) :
    t'.LooksUp config.network.macAddress := by
  cases hmoves with
  | invoke call => exact body_looksUp config call
  | readState call rest => exact ht state
  | readClock call rest now => exact ht now
  | dispatch call op rest => exact ht
  | dispatchUrl call op path rest => exact ht
  | badPath call op path rest outcome => trivial
  | receive call op rest => exact ht
  | receiveError call op answer rest e herror => trivial
  | sync call path rest => exact ht
  | leaseFound call mac timeout deadline ip => trivial
  | deadlinePassed call mac timeout deadline outcome => trivial

theorem Step.looksUp {h h' : VmHandle} {a : Action} (hstep : Step h a h')
    (hthread : h.thread.LooksUp h.config.network.macAddress) :
    h'.thread.LooksUp h'.config.network.macAddress := by
  cases hstep with
  | callback a v hcallback => exact hthread
  | complete call op rest answer hwaiting =>
      rw [hwaiting] at hthread
      exact hthread
  | publish now call v rest hrunning =>
      rw [hrunning] at hthread
      exact hthread
  | emit now call kind rest hrunning =>
      rw [hrunning] at hthread
      exact hthread
  | finish now call outcome hrunning => trivial
  | pollAgain found now => exact hthread
  | move a thread hhost hmoves => exact hmoves.looksUp hthread

theorem looksUp_of_run {config : VmConfig} {schedule : List Action}
    {h : VmHandle} (hrun : run step (.create config) schedule = some h) :
    h.thread.LooksUp h.config.network.macAddress := by
  refine run_invariant
    (P := fun h : VmHandle => h.thread.LooksUp h.config.network.macAddress)
    ?_ ?_ hrun
  · intro h a h' hold hstep
    exact (step_sound hstep).looksUp hold
  · trivial

end VmHandle

/-! ## What one machine is told -/

namespace Network

variable {table : LowercaseTable} {config : VmConfig} {f : Dhcp.LeaseFile}
  {n n' : Network} {a : Action} {as : List Action} {mac ip : Text}

/-- What a lookup finds is leased. -/
theorem leased_of_address (haddress : n.address table mac = some ip) :
    Dhcp.Leased table n.leases.content mac ip := by
  rw [address_eq] at haddress
  obtain ⟨lease, hlease, rfl⟩ := Option.map_eq_some_iff.mp haddress
  obtain ⟨hmem, hsame⟩ := Dhcp.mem_of_tableOf_eq_some hlease
  exact ⟨lease, hmem, hsame, rfl⟩

/-- What is leased stays in the file. -/
theorem leased_of_step (hstep : step table n a = some n')
    (hleased : Dhcp.Leased table n.leases.content mac ip) :
    Dhcp.Leased table n'.leases.content mac ip := by
  rcases step_cases hstep with ⟨w, -, rfl⟩ | ⟨b, h', -, rfl, -⟩
  · obtain ⟨lease, hmem, hlease⟩ := hleased
    refine ⟨lease, ?_, hlease⟩
    dsimp only
    rw [n.leases.parseLeases_append]
    exact List.mem_append_left _ hmem
  · exact hleased

/-- Only the server writes the file. -/
theorem leases_of_step (hstep : step table n a = some n')
    (hown : ∀ w, a ≠ .lease w) : n'.leases = n.leases := by
  cases a with
  | lease w => exact absurd rfl (hown w)
  | look now =>
      obtain ⟨mac, -, hlook⟩ := Option.bind_eq_some_iff.mp hstep
      obtain ⟨h', -, rfl⟩ := Option.map_eq_some_iff.mp hlook
      rfl
  | handle b =>
      have hmap : (n.handle.step b).map (fun h => { n with handle := h }) =
          some n' := by
        cases b with
        | poll found now => cases hstep
        | _ => exact hstep
      obtain ⟨h', -, rfl⟩ := Option.map_eq_some_iff.mp hmap
      rfl

/-- A run of the handle with lookups that found what is leased. -/
def Ran (table : LowercaseTable) (config : VmConfig) (n : Network) : Prop :=
  ∃ schedule, run VmHandle.step (.create config) schedule = some n.handle ∧
    ∀ ip now, .poll (some ip) now ∈ schedule →
      ∃ mac, config.network.macAddress = some mac ∧
        Dhcp.Leased table n.leases.content mac ip

theorem Ran.step (hran : n.Ran table config)
    (hstep : Network.step table n a = some n') : n'.Ran table config := by
  obtain ⟨schedule, hrun, hpolls⟩ := hran
  have hold : ∀ ip now, .poll (some ip) now ∈ schedule →
      ∃ mac, config.network.macAddress = some mac ∧
        Dhcp.Leased table n'.leases.content mac ip := by
    intro ip now hpoll
    obtain ⟨mac, hmac, hleased⟩ := hpolls ip now hpoll
    exact ⟨mac, hmac, leased_of_step hstep hleased⟩
  rcases step_cases hstep with ⟨w, -, rfl⟩ | ⟨b, h', hown, rfl, hlabel⟩
  · exact ⟨schedule, hrun, hold⟩
  · refine ⟨schedule ++ [b],
      run_concat_eq_some_iff.mpr ⟨n.handle, hrun, hown⟩, ?_⟩
    intro ip now hpoll
    rcases List.mem_append.mp hpoll with hbefore | hnew
    · exact hold ip now hbefore
    · have hb := List.mem_singleton.mp hnew
      rcases hlabel with ⟨-, hnot⟩ | ⟨mac, now', -, hlooked, rfl⟩
      · exact absurd hb.symm (hnot _ _)
      · -- the loop looks up the configured address, in the file as it is
        obtain ⟨hfound, -⟩ := Kasou.Action.poll.inj hb
        have hlooksUp := VmHandle.looksUp_of_run hrun
        rw [VmHandle.config_of_run hrun] at hlooksUp
        rw [lookedUp] at hlooked
        split at hlooked
        next call mac' timeout deadline hthread =>
          obtain rfl := Option.some.inj hlooked
          rw [hthread] at hlooksUp
          exact ⟨mac', hlooksUp, leased_of_address hfound.symm⟩
        · cases hlooked

theorem ran_of_run
    (hrun : run (step table) ⟨.create config, f⟩ as = some n) :
    n.Ran table config := by
  have hstart : Ran table config ⟨.create config, f⟩ :=
    ⟨[], rfl, fun _ _ hpoll => absurd hpoll List.not_mem_nil⟩
  exact run_invariant (P := Ran table config)
    (fun _ _ _ hran hstep => hran.step hstep) hstart hrun

/-- An address that a call has returned is leased to the machine. -/
theorem Ran.leased_of_returned {timeout : Duration}
    (hran : n.Ran table config)
    (hreturned : (.waitForIp timeout, .returned (.ok (.ip ip))) ∈
      n.handle.returns) :
    ∃ mac, config.network.macAddress = some mac ∧
      Dhcp.Leased table n.leases.content mac ip := by
  obtain ⟨schedule, hown, hpolls⟩ := hran
  obtain ⟨now, hpoll⟩ := Dhcp.exists_poll_of_returned hown hreturned
  exact hpolls ip now hpoll

/-- The address that `info` reports is leased to the machine. -/
theorem Ran.leased_of_info {pid : UInt32} {createdAt now : Instant}
    (hran : n.Ran table config)
    (hinfo : (n.handle.info table (fun _ => some n.leases.content) pid
      createdAt now).ipAddress = some ip) :
    ∃ mac, config.network.macAddress = some mac ∧
      Dhcp.Leased table n.leases.content mac ip := by
  obtain ⟨schedule, hown, -⟩ := hran
  obtain ⟨mac, hmac, hlookup⟩ := Option.bind_eq_some_iff.mp hinfo
  rw [VmHandle.config_of_run hown] at hmac
  exact ⟨mac, hmac, leased_of_address hlookup⟩

end Network

/-! ## All machines -/

variable {κ : Type}

/-- The handles of all machines, and the lease file. -/
structure Subnet (κ : Type) where
  machine : κ → VmHandle
  leases : Dhcp.LeaseFile

namespace Subnet

/-- What happens on a subnet. -/
inductive Action (κ : Type) where
  /-- A step of one machine's handle. -/
  | act (i : κ) (a : Network.Action)
  /-- The server gives out a lease. -/
  | lease (w : Dhcp.WrittenLease)

/-- What concerns one machine. -/
def network (i : κ) (s : Subnet κ) : Network := ⟨s.machine i, s.leases⟩

variable [DecidableEq κ]

/-- One machine takes a step. -/
def stepOne (table : LowercaseTable) (s : Subnet κ) (i : κ)
    (a : Network.Action) : Option (Subnet κ) :=
  ((s.network i).step table a).map fun n =>
    { machine := Function.update s.machine i n.handle, leases := n.leases }

/-- The step function of a subnet. -/
def step (table : LowercaseTable) (s : Subnet κ) :
    Action κ → Option (Subnet κ)
  | .act _ (.lease _) => none
  | .act i a => s.stepOne table i a
  | .lease w => some { s with leases := s.leases.append w }

/-- The actions that concern a machine. -/
def Action.concerns (i : κ) : Action κ → Option Network.Action
  | .act j a => if j = i then some a else none
  | .lease w => some (.lease w)

variable {table : LowercaseTable} {s s' : Subnet κ}

/-- A step of one machine is a step on its network, and nothing changes for
the other machines. -/
theorem stepOne_cases {j : κ} {a : Network.Action}
    (hstep : s.stepOne table j a = some s') (hown : ∀ w, a ≠ .lease w) :
    (s.network j).step table a = some (s'.network j) ∧
      ∀ i, j ≠ i → s'.network i = s.network i := by
  obtain ⟨n, hn, rfl⟩ := Option.map_eq_some_iff.mp hstep
  have hleases : n.leases = s.leases := Network.leases_of_step hn hown
  constructor
  · rw [hn, network]
    dsimp only
    rw [Function.update_self]
  · intro i hi
    rw [network, network, hleases]
    dsimp only
    rw [Function.update_of_ne (Ne.symm hi)]

/-- What concerns a machine is a run on its network. -/
theorem projects_network (table : LowercaseTable) (i : κ) :
    Projects (step table) (Network.step table) (network i)
      (Action.concerns i) := by
  intro s a s' hstep
  cases a with
  | lease w =>
      obtain rfl := Option.some.inj hstep
      rfl
  | act j a =>
      have hone : (∀ w, a ≠ .lease w) ∧ s.stepOne table j a = some s' := by
        cases a with
        | lease w => cases hstep
        | _ => exact ⟨(by intro w h; cases h), hstep⟩
      obtain ⟨hmine, hothers⟩ := stepOne_cases hone.2 hone.1
      by_cases hj : j = i
      · rw [Action.concerns, if_pos hj]
        exact hj ▸ hmine
      · rw [Action.concerns, if_neg hj]
        exact hothers i hj

/-! ## Owners are told their own addresses -/

/-- The owner of a machine has been told this IP address by `wait_for_ip`, or
is told it by `info`. -/
def Told (table : LowercaseTable) (s : Subnet κ) (i : κ) (ip : Text) : Prop :=
  (∃ timeout, (.waitForIp timeout, .returned (.ok (.ip ip))) ∈
    (s.machine i).returns) ∨
  ∃ pid createdAt now, ((s.machine i).info table
    (fun _ => some s.leases.content) pid createdAt now).ipAddress = some ip

end Subnet

/-- The MAC address of a configuration. -/
def VmConfig.HasAddress (config : VmConfig) (m : MacAddress) : Prop :=
  ∃ mac, config.network.macAddress = some mac ∧ MacAddress.parse mac = .ok m

/-- The file has a lease of this IP address for this MAC address. -/
def Dhcp.LeaseFile.LeasedTo (f : Dhcp.LeaseFile) (ip : Text)
    (m : MacAddress) : Prop :=
  ∃ lease ∈ Dhcp.parseLeases f.content,
    lease.ipAddress = ip ∧ MacAddress.parse lease.hwAddress = .ok m

namespace Subnet

variable {table : LowercaseTable} {s : Subnet κ}

/-- What the owner of a machine is told is leased to the machine. -/
theorem leased_of_told {config : VmConfig} {i : κ} {ip : Text}
    (hran : (s.network i).Ran table config) (htold : s.Told table i ip) :
    ∃ mac, config.network.macAddress = some mac ∧
      Dhcp.Leased table s.leases.content mac ip := by
  rcases htold with ⟨timeout, hreturned⟩ | ⟨pid, createdAt, now, hinfo⟩
  · exact hran.leased_of_returned hreturned
  · exact hran.leased_of_info hinfo

variable {ι : Type} {F : VZFramework ι} {V : VZGenericMachineIdentifier ι}
  {config : κ → VmConfig} {machine : κ → Machine ι} {f : Dhcp.LeaseFile}
  {as : List (Action κ)}

/-- **Machines are told apart.**  However machines and the server interleave,
what the owner of a machine is told by `wait_for_ip` or `info` is leased to
this machine's own MAC address; so if the server leases no IP address to two
MAC addresses, the owners of two machines are told the same one only if the
machines have the same MAC address. -/
theorem told_own_address [DecidableEq κ]
    (hcreate : ∀ i, ∃ exception present host fresh,
      Machine.create F V exception present host fresh (config i) =
        .ok (machine i))
    (hrun : run (step table) ⟨fun i => (machine i).handle, f⟩ as = some s) :
    (∀ i ip, s.Told table i ip →
      ∃ m, (config i).HasAddress m ∧ s.leases.LeasedTo ip m) ∧
    ((∀ ip m m', s.leases.LeasedTo ip m → s.leases.LeasedTo ip m' →
        m = m') →
      ∀ i j ip, s.Told table i ip → s.Told table j ip →
        ∃ m, (config i).HasAddress m ∧ (config j).HasAddress m) := by
  have hown : ∀ i ip, s.Told table i ip →
      ∃ m, (config i).HasAddress m ∧ s.leases.LeasedTo ip m := by
    intro i ip htold
    obtain ⟨exception, present, host, fresh, hcreate⟩ := hcreate i
    have hcreated := create_eq_ok_iff.mp hcreate
    have hnetwork := (projects_network table i).run hrun
    rw [network] at hnetwork
    dsimp only at hnetwork
    rw [hcreated.handle] at hnetwork
    obtain ⟨mac, hmac, lease, hlease, hsame, hip⟩ :=
      leased_of_told (Network.ran_of_run hnetwork) htold
    obtain ⟨m, hparse, -⟩ := VmHandle.exists_parse_of_created hcreated hmac
    exact ⟨m, ⟨mac, hmac, hparse⟩, lease, hlease, hip,
      MacAddress.parse_of_toLowercase_eq hparse hsame⟩
  refine ⟨hown, ?_⟩
  intro hserver i j ip hi hj
  obtain ⟨m, hm, hleased⟩ := hown i ip hi
  obtain ⟨m', hm', hleased'⟩ := hown j ip hj
  obtain rfl := hserver ip m m' hleased hleased'
  exact ⟨m, hm, hm'⟩

/-- The machine of the example, and one like it with another address. -/
def twoConfigs : Bool → VmConfig
  | false => smokeConfig
  | true =>
      { smokeConfig with
        network := { macAddress := some "52:55:55:aa:bb:cd".toList } }

/-- A lease for the second machine. -/
def secondLease : Dhcp.WrittenLease where
  lease := ⟨"192.168.64.10".toList, "52:55:55:AA:BB:CD".toList, none⟩
  block := DhcpLease.block
    ⟨"192.168.64.10".toList, "52:55:55:AA:BB:CD".toList, none⟩
  renderable := by decide
  renders := DhcpLease.Renderable.block (by decide)

/-- Both machines wait, and the server gives out two leases. -/
def bothWait (timeout : Duration) : List (Action Bool) :=
  [.act false (.handle (.invoke (.waitForIp timeout))),
    .act true (.handle (.invoke (.waitForIp timeout))),
    .act false (.handle (.host 0)), .act true (.handle (.host 0)),
    .act true (.look 1), .lease Network.smokeLease, .lease secondLease,
    .act false (.look 2), .act true (.look 1000000001),
    .act true (.handle (.host 1000000002)), .act false (.handle (.host 3)),
    .act false (.handle (.host 4)), .act true (.handle (.host 1000000003))]

theorem told_own_address_bothWait :
    ∃ (machine : Bool → Machine UInt8) (s : Subnet Bool),
      run (step Dhcp.keepingTable)
          ⟨fun i => (machine i).handle, ⟨[], Or.inl rfl⟩⟩
          (bothWait ⟨30, 0⟩) = some s ∧
        s.Told Dhcp.keepingTable false "192.168.64.9".toList ∧
        s.Told Dhcp.keepingTable true "192.168.64.10".toList ∧
        ∃ m, (twoConfigs true).HasAddress m ∧
          s.leases.LeasedTo "192.168.64.10".toList m := by
  have hcreate : ∀ i, ∃ machine,
      Machine.create (.silent UInt8) MachineIdentifier.byteIdentifier none
        (fun _ => true) hostWithoutShare 0 (twoConfigs i) = .ok machine := by
    intro i
    cases i with
    | false => exact ⟨_, rfl⟩
    | true => exact ⟨_, rfl⟩
  choose machine hmachine using hcreate
  have hhandle : (fun i => (machine i).handle) = fun i =>
      .create (twoConfigs i) :=
    funext fun i => (create_eq_ok_iff.mp (hmachine i)).handle
  have hrun : ∃ s : Subnet Bool, run (step Dhcp.keepingTable)
      ⟨fun i => .create (twoConfigs i), ⟨[], Or.inl rfl⟩⟩
      (bothWait ⟨30, 0⟩) = some s ∧
      (s.machine false).returns = [(.waitForIp ⟨30, 0⟩,
        .returned (.ok (.ip "192.168.64.9".toList)))] ∧
      (s.machine true).returns = [(.waitForIp ⟨30, 0⟩,
        .returned (.ok (.ip "192.168.64.10".toList)))] :=
    ⟨_, rfl, rfl, rfl⟩
  obtain ⟨s, hs, hfirst, hsecond⟩ := hrun
  rw [← hhandle] at hs
  have htold : s.Told Dhcp.keepingTable true "192.168.64.10".toList :=
    Or.inl ⟨⟨30, 0⟩, hsecond ▸ List.mem_singleton_self _⟩
  refine ⟨machine, s, hs, ?_, htold, ?_⟩
  · exact Or.inl ⟨⟨30, 0⟩, hfirst ▸ List.mem_singleton_self _⟩
  · exact (told_own_address (fun i => ⟨_, _, _, _, hmachine i⟩) hs).1 _ _
      htold

end Subnet

end Kasou
