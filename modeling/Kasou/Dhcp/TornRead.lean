import Kasou.Dhcp.Recency
import Kasou.Vm.Accounting

/-!
# Reading a lease file that is being written

The DHCP server writes the lease file while `lookup_ip_by_mac` reads it, and
nothing keeps a reader from seeing only the beginning of what is being written.
The line at which such a read breaks off may be cut anywhere.  It gives a value
that no lease takes, unless the cut makes a closing line of it.  So
`wait_for_ip` returns no address but those of the finished file.
-/

namespace Kasou
namespace Dhcp

open Stretch

/-- Whatever line begins with `}` is a closing line: no beginning of a line
closes a block that the whole line does not close. -/
def ClosesWhole (content : Text) : Prop :=
  ∀ line ∈ trimmedLines content, line.head? = some '\x7d' →
    line = "\x7d".toList

instance (content : Text) : Decidable (ClosesWhole content) :=
  inferInstanceAs (Decidable (∀ line ∈ trimmedLines content, _))

/-- What is given behind the last closing line is in no stretch. -/
theorem closed_concat {i : Item} (hi : i.closes = false) (xs : List Item) :
    closed Item.closes (xs ++ [i]) = closed Item.closes xs := by
  have hfrom : ∀ seen, closedFrom Item.closes seen (xs ++ [i]) =
      closedFrom Item.closes seen xs := by
    induction xs with
    | nil =>
        intro seen
        rw [List.nil_append, closedFrom_cons_of_neg hi]
        rfl
    | cons x xs ih =>
        intro seen
        rw [List.cons_append]
        cases hx : x.closes with
        | true =>
            rw [closedFrom_cons_of_pos hx, closedFrom_cons_of_pos hx]
            exact congrArg _ (ih [])
        | false =>
            rw [closedFrom_cons_of_neg hx, closedFrom_cons_of_neg hx, ih]
  exact hfrom []

theorem trimmedLines_of_not_mem {line : Text} (hline : '\n' ∉ line)
    (hne : line ≠ []) : trimmedLines line = [line.trim] := by
  rw [trimmedLines, Text.lines_of_not_mem hline hne]
  rfl

/-- The first line of a text goes on where its beginning breaks off. -/
theorem head?_trimmedLines_append {line : Text} (hline : '\n' ∉ line)
    (hne : line ≠ []) (rest : Text) :
    ∃ more later, trimmedLines (line ++ rest) =
      (line ++ more).trim :: later := by
  by_cases hrest : '\n' ∈ rest
  · obtain ⟨more, later, rfl, hmore⟩ := List.eq_append_cons_of_mem hrest
    have hboth : '\n' ∉ line ++ more := by
      rw [List.mem_append, not_or]
      exact ⟨hline, hmore⟩
    refine ⟨more, trimmedLines later, ?_⟩
    rw [← List.append_assoc, trimmedLines, Text.lines_append_cons hboth,
      List.map_cons, Text.trim_stripCarriageReturn]
    rfl
  · have hboth : '\n' ∉ line ++ rest := by
      rw [List.mem_append, not_or]
      exact ⟨hline, hrest⟩
    exact ⟨rest, [], trimmedLines_of_not_mem hboth (by simp [hne])⟩

/-- A cut line that closes a block is a beginning of a line that does. -/
theorem closes_of_closes_cut {a line rest : Text} (ha : a.LineComplete)
    (hline : '\n' ∉ line) (hwhole : ClosesWhole (a ++ (line ++ rest)))
    (hcut : line.trim = "\x7d".toList) :
    ∃ later, items (line ++ rest) = .close :: later := by
  have hne : line ≠ [] := by
    rintro rfl
    cases hcut
  obtain ⟨more, later, hlines⟩ := head?_trimmedLines_append hline hne rest
  have hhead : (line ++ more).trim.head? = some '\x7d' :=
    Text.head?_trim_append (by rw [hcut]; rfl) more
  have hmem : (line ++ more).trim ∈ trimmedLines (a ++ (line ++ rest)) := by
    rw [trimmedLines_append ha, hlines]
    exact List.mem_append_right _ (List.mem_cons_self ..)
  have hclose := hwhole _ hmem hhead
  refine ⟨later.map item, ?_⟩
  rw [items, hlines, List.map_cons, item_eq_close_iff.mpr hclose]

/-- **Reading the beginning of a lease file** gives its first leases, wherever
the read breaks off. -/
theorem prefix_parseLeases_of_prefix {content pre : Text}
    (hwhole : ClosesWhole content) (hpre : pre <+: content) :
    parseLeases pre <+: parseLeases content := by
  obtain ⟨rest, rfl⟩ := hpre
  obtain ⟨a, line, ha, hline, rfl⟩ := Text.exists_lineComplete_append pre
  rw [List.append_assoc] at hwhole ⊢
  by_cases hnil : line = []
  · rw [hnil, List.append_nil]
    exact prefix_parseLeases ha _
  · have hitems : items line = [item line.trim] := by
      rw [items, trimmedLines_of_not_mem hline hnil]
      rfl
    rw [parseLeases_eq_stretches, parseLeases_eq_stretches]
    refine List.IsPrefix.filterMap _ ?_
    rw [stretches, stretches, items_append ha, items_append ha, hitems]
    by_cases hcut : line.trim = "\x7d".toList
    · obtain ⟨later, hlater⟩ := closes_of_closes_cut ha hline hwhole hcut
      have hsplit : items a ++ Item.close :: later =
          items a ++ [Item.close] ++ later := by
        rw [List.append_assoc, List.singleton_append]
      rw [hlater, item_eq_close_iff.mpr hcut, hsplit]
      exact prefix_closedFrom [] _ _
    · have hopen : (item line.trim).closes = false :=
        decide_eq_false (mt item_eq_close_iff.mp hcut)
      rw [closed_concat hopen]
      exact prefix_closedFrom [] _ _

/-! ## Looking up and waiting -/

/-- The lease file of macOS. -/
def leaseFile : Path :=
  rootFile "var" ++
    [.normal (OsStr.ofText "db".toList),
      .normal (OsStr.ofText "dhcpd_leases".toList)]

/-- `lookup_ip_by_mac`. -/
def lookupIpByMac (table : LowercaseTable)
    (readToString : Path → Option Text) (mac : Text) : Option Text :=
  lookupIpByMacFrom table readToString leaseFile mac

/-- The file has a lease of this IP address for the MAC address. -/
def Leased (table : LowercaseTable) (content mac ip : Text) : Prop :=
  ∃ lease ∈ parseLeases content,
    table.toLowercase lease.hwAddress = table.toLowercase mac ∧
      lease.ipAddress = ip

/-- The reader sees nothing of the lease file, or a beginning of it. -/
def SeesBeginning (content : Text) (readToString : Path → Option Text) :
    Prop :=
  ∀ text ∈ readToString leaseFile, text <+: content

/-- A lookup in a beginning of the file finds a lease of the whole file. -/
theorem leased_of_lookup {table : LowercaseTable} {content mac ip : Text}
    {readToString : Path → Option Text} (hwhole : ClosesWhole content)
    (hsees : SeesBeginning content readToString)
    (hlookup : lookupIpByMac table readToString mac = some ip) :
    Leased table content mac ip := by
  obtain ⟨pre, hread, hfind⟩ := Option.bind_eq_some_iff.mp hlookup
  obtain ⟨lease, hlease, rfl⟩ := Option.map_eq_some_iff.mp hfind
  have hfirst := prefix_parseLeases_of_prefix hwhole (hsees pre hread)
  have hmem := List.mem_reverse.mp (List.mem_of_find?_eq_some hlease)
  have hmac := List.find?_some hlease
  exact ⟨lease, hfirst.subset hmem, beq_iff_eq.mp hmac, rfl⟩

/-- The lookups of the schedule are for the address of the configuration, and
read the lease file while it is written. -/
def LooksUp (table : LowercaseTable) (content : Text) (config : VmConfig)
    (schedule : List Action) : Prop :=
  ∀ found now, .poll found now ∈ schedule → ∃ mac readToString,
    config.network.macAddress = some mac ∧
      SeesBeginning content readToString ∧
        found = lookupIpByMac table readToString mac

/-- Only a round of the loop of `wait_for_ip` shows a lookup. -/
theorem eq_poll_of_observe {h : VmHandle} {a : Action} {found : Option Text}
    {now : Instant}
    (ho : h.observe a = some (.effect (.looked found now))) :
    a = .poll found now := by
  cases a with
  | poll found' now' =>
      obtain ⟨rfl, rfl⟩ : found' = found ∧ now' = now := by
        simpa [VmHandle.observe] using ho
      rfl
  | host t =>
      rw [VmHandle.observe] at ho
      split at ho
      next call body hthread =>
        cases body <;> simp [VmHandle.observeBody] at ho
      · simp at ho
      · cases ho
  | sync outcome =>
      rw [VmHandle.observe] at ho
      split at ho
      · simp at ho
      · cases ho
  | invoke call => simp [VmHandle.observe] at ho
  | complete answer => cases ho
  | guestDidStop => simp [VmHandle.observe] at ho
  | didStopWithError error => simp [VmHandle.observe] at ho

/-- An address that a call of `wait_for_ip` returns was found by a lookup. -/
theorem exists_poll_of_returned {config : VmConfig} {schedule : List Action}
    {h : VmHandle} {timeout : Duration} {ip : Text}
    (hrun : TransitionSystem.run VmHandle.step (.create config) schedule =
      some h)
    (hreturned : (.waitForIp timeout, .returned (.ok (.ip ip))) ∈ h.returns) :
    ∃ now, .poll (some ip) now ∈ schedule := by
  have hseen := VmHandle.run_seen hrun
  rw [hseen.returns, Ledger.ended_eq] at hreturned
  obtain ⟨r, hr, hends⟩ := List.mem_map.mp hreturned
  obtain ⟨hcall, houtcome⟩ := Prod.mk.inj hends
  have hruns := hseen.explains.allRun r hr
  rw [hcall, houtcome] at hruns
  -- the call has looked up the address that it returns
  have hlooked : ∃ now, .looked (some ip) now ∈ r.effects := by
    rcases VmHandle.runs_waitForIp hruns with ⟨e, -, ho, -⟩ |
      ⟨mac, start, -, ⟨message, -, ho, -⟩ | ⟨deadline, es, -, hes, hloop⟩⟩
    · cases ho
    · cases ho
    · obtain ⟨early, -, ⟨found, now, hfound, ho⟩ | ⟨now, -, -, ho⟩⟩ :=
        Body.runs_pollLease hloop
      · cases ho
        exact ⟨now, by simp [hes, hfound]⟩
      · cases ho
  obtain ⟨now, hnow⟩ := hlooked
  have heffect : .looked (some ip) now ∈
      (VmHandle.seen config schedule).filterMap Observation.hostEffect := by
    rw [Ledger.effects_eq]
    exact List.mem_append_left _ (List.mem_flatMap.mpr ⟨r, hr, hnow⟩)
  obtain ⟨o, ho, hhost⟩ := List.mem_filterMap.mp heffect
  obtain ⟨g, a, ha, hobserve⟩ := TransitionSystem.exists_of_mem_trace ho
  have hshown : o = .effect (.looked (some ip) now) := by
    cases o with
    | effect e => exact congrArg Observation.effect (Option.some.inj hhost)
    | invoked call => cases hhost
    | callback state => cases hhost
    | returned call outcome => cases hhost
  rw [hshown] at hobserve
  exact ⟨now, eq_poll_of_observe hobserve ▸ ha⟩

/-- **Waiting while the lease file is written**: in every run of a handle, if
no lookup sees anything but a beginning of the file, every address that a call
of `wait_for_ip` returns is leased to the machine in the finished file. -/
theorem leased_of_waitForIp {table : LowercaseTable} {config : VmConfig}
    {content : Text} {schedule : List Action} {h : VmHandle}
    {timeout : Duration} {ip : Text}
    (hwhole : ClosesWhole content)
    (hlooks : LooksUp table content config schedule)
    (hrun : TransitionSystem.run VmHandle.step (.create config) schedule =
      some h)
    (hreturned : (.waitForIp timeout, .returned (.ok (.ip ip))) ∈ h.returns) :
    ∃ mac, config.network.macAddress = some mac ∧
      Leased table content mac ip := by
  obtain ⟨now, hpoll⟩ := exists_poll_of_returned hrun hreturned
  obtain ⟨mac, readToString, hmac, hsees, hfound⟩ :=
    hlooks (some ip) now hpoll
  exact ⟨mac, hmac, leased_of_lookup hwhole hsees hfound.symm⟩

/-- A lease file of one block. -/
def oneLease : Text :=
  "\x7b\nip_address=192.168.64.9\nhw_address=1,52:55:55:aa:bb:cc\n".toList ++
    "lease=0x69caa0ef\n\x7d\n".toList

theorem prefix_parseLeases_oneLease :
    parseLeases (oneLease.take 50) <+: parseLeases oneLease :=
  prefix_parseLeases_of_prefix (by decide) (List.take_prefix 50 oneLease)

/-- A call whose first lookup reads half of the block. -/
def waitedForBlock : List Action :=
  [.invoke (.waitForIp ⟨2, ⟨0, by decide⟩⟩), .host 0, .poll none 1,
    .poll (some "192.168.64.9".toList) 1000000001, .host 1000000002,
    .host 1000000003]

theorem leased_of_waitForIp_waitedForBlock :
    Leased keepingTable oneLease "52:55:55:aa:bb:cc".toList
      "192.168.64.9".toList := by
  have hlooks : LooksUp keepingTable oneLease smokeConfig waitedForBlock := by
    intro found now hpoll
    have hcases : (found = none ∧ now = 1) ∨
        (found = some "192.168.64.9".toList ∧ now = 1000000001) := by
      simpa [waitedForBlock] using hpoll
    rcases hcases with ⟨rfl, -⟩ | ⟨rfl, -⟩
    · refine ⟨_, fun _ => some (oneLease.take 50), rfl, ?_, by decide⟩
      intro text htext
      obtain rfl := Option.some.inj htext
      exact List.take_prefix 50 oneLease
    · refine ⟨_, fun _ => some oneLease, rfl, ?_, by decide⟩
      intro text htext
      obtain rfl := Option.some.inj htext
      exact List.prefix_refl _
  obtain ⟨mac, hmac, hleased⟩ := leased_of_waitForIp (by decide) hlooks rfl
    (List.mem_singleton.mpr rfl)
  obtain rfl := Option.some.inj hmac
  exact hleased

end Dhcp
end Kasou
