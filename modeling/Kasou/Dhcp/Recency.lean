import Kasou.Dhcp.Lookup
import Kasou.Dhcp.Stretches
import Kasou.Path
import Mathlib.Data.List.Pairwise

/-!
# The most recent lease of an address

`lookup_ip_by_mac` is documented to find the most recent lease.  The blocks of
a lease file have a value `lease=0x…`, which the parser skips; it keeps the
order of the blocks, and the lookup takes the last block of the address.
-/

namespace Kasou
namespace Dhcp

open Command

/-- `lookup_ip_by_mac_from`, where `readToString` has the contents of the files
that can be read. -/
def lookupIpByMacFrom (table : LowercaseTable)
    (readToString : Path → Option Text) (path : Path) (mac : Text) :
    Option Text :=
  (readToString path).bind fun content =>
    (findLeaseByMac table (parseLeases content) mac).map DhcpLease.ipAddress

/-! ## Blocks with a lease value -/

/-- The value of one or more hexadecimal digits. -/
def hexValue (digits : Text) : Option Nat :=
  if digits = [] then none
  else digits.foldlM
    (fun value c => (hexDigit c).map fun digit => value * 16 + digit) 0

/-- The value of a line `lease=0x…`. -/
def leaseValue (line : Text) : Option Nat :=
  (Text.stripPrefix "lease=0x".toList line).bind hexValue

/-- What a block says of a lease. -/
structure LeaseBlock where
  ipAddress : Text
  hwAddress : Text
  lease : Nat
  deriving DecidableEq

/-- The block of a closed stretch that has both addresses and a lease
value. -/
def blockOf (stretch : List Text) : Option LeaseBlock :=
  match lastValue (fun line => (item line).value .ipAddress) stretch,
    lastValue (fun line => (item line).value .hwAddress) stretch,
    lastValue leaseValue stretch with
  | some ip, some hw, some lease => some ⟨ip, hw, lease⟩
  | _, _, _ => none

/-- The blocks of the file. -/
def blocks (content : Text) : List LeaseBlock :=
  (lineStretches content).filterMap fun s => blockOf s.1

/-- Every block carries both addresses and a lease value, and the blocks of
one address have distinct lease values. -/
structure IsLeaseFile (content : Text) : Prop where
  carries : ∀ s ∈ lineStretches content, (blockOf s.1).isSome = true
  distinct : (blocks content).Pairwise fun b c =>
    b.hwAddress = c.hwAddress → b.lease ≠ c.lease

/-- The blocks whose address is spelled as `mac` up to case. -/
def matching (table : LowercaseTable) (bs : List LeaseBlock) (mac : Text) :
    List LeaseBlock :=
  bs.filter fun b => table.toLowercase b.hwAddress == table.toLowercase mac

/-- A block of these with the greatest lease value. -/
def IsMostRecent (bs : List LeaseBlock) (b : LeaseBlock) : Prop :=
  b ∈ bs ∧ ∀ c ∈ bs, c.lease ≤ b.lease

/-- The result is the IP address of the block with the greatest lease value,
and none when there is no block. -/
def ReturnsMostRecent (bs : List LeaseBlock) : Option Text → Prop
  | none => bs = []
  | some ip => ∃ b, IsMostRecent bs b ∧ b.ipAddress = ip

/-- The last block has the IP address of one with the greatest lease value. -/
def EndsMostRecent (bs : List LeaseBlock) : Prop :=
  ∀ last ∈ bs.getLast?, ∃ b, IsMostRecent bs b ∧ b.ipAddress = last.ipAddress

/-- In a lease file there is one such block of a spelling of the address. -/
theorem IsMostRecent.unique {table : LowercaseTable} {content mac : Text}
    {b c : LeaseBlock} (h : IsLeaseFile content)
    (hb : IsMostRecent (matching table (blocks content) mac) b)
    (hc : IsMostRecent (matching table (blocks content) mac) c)
    (hspelled : b.hwAddress = c.hwAddress) : b = c := by
  by_contra hne
  have : Std.Symm fun b c : LeaseBlock =>
      b.hwAddress = c.hwAddress → b.lease ≠ c.lease :=
    ⟨fun _ _ hbc heq => (hbc heq.symm).symm⟩
  have hlease : b.lease = c.lease :=
    Nat.le_antisymm (hc.2 b hb.1) (hb.2 c hc.1)
  exact h.distinct.forall (List.mem_of_mem_filter hb.1)
    (List.mem_of_mem_filter hc.1) hne hspelled hlease

/-! ## The last block -/

theorem leaseOfStretch_of_blockOf {stretch : List Text} {b : LeaseBlock}
    (h : blockOf stretch = some b) :
    (leaseOfStretch (stretch.map item)).map
        (fun lease => (lease.ipAddress, lease.hwAddress)) =
      some (b.ipAddress, b.hwAddress) := by
  rw [blockOf] at h
  split at h
  next ip hw value hip hhw hvalue =>
    obtain rfl := Option.some.inj h
    have hlast : ∀ f, lastValue (Item.value f) (stretch.map item) =
        lastValue (fun line => (item line).value f) stretch := by
      intro f
      rw [lastValue, List.filterMap_map]
      rfl
    rw [leaseOfStretch, leaseOfValues, hlast, hlast, hip, hhw]
    rfl
  next => cases h

/-- The leases of the file have the addresses of its blocks, in the same
order. -/
theorem map_parseLeases {content : Text} (h : IsLeaseFile content) :
    (parseLeases content).map
        (fun lease => (lease.ipAddress, lease.hwAddress)) =
      (blocks content).map fun b => (b.ipAddress, b.hwAddress) := by
  rw [parseLeases_eq_stretches, stretches_eq_map, List.filterMap_map,
    List.map_filterMap, blocks, List.map_filterMap]
  refine List.filterMap_congr fun s hs => ?_
  obtain ⟨b, hb⟩ := Option.isSome_iff_exists.mp (h.carries s hs)
  rw [hb]
  exact leaseOfStretch_of_blockOf hb

/-- The last of the entries whose address agrees with `mac` up to case. -/
theorem getLast?_filter_map {α : Type*} (table : LowercaseTable) (mac : Text)
    (addresses : α → Text × Text) (xs : List α) :
    (xs.filter fun x => table.toLowercase (addresses x).2 ==
        table.toLowercase mac).getLast?.map (fun x => (addresses x).1) =
      ((xs.map addresses).filter fun a =>
        table.toLowercase a.2 == table.toLowercase mac).getLast?.map
          Prod.fst := by
  rw [List.filter_map, List.getLast?_map, Option.map_map]
  rfl

/-- **The lookup finds the last block** of the address in the file. -/
theorem lookupIpByMacFrom_eq {table : LowercaseTable}
    {readToString : Path → Option Text} {path : Path} {content : Text}
    (hread : readToString path = some content) (h : IsLeaseFile content)
    (mac : Text) :
    lookupIpByMacFrom table readToString path mac =
      (matching table (blocks content) mac).getLast?.map
        LeaseBlock.ipAddress := by
  have hlast : ∀ leases, findLeaseByMac table leases mac =
      (leases.filter fun lease => table.toLowercase lease.hwAddress ==
        table.toLowercase mac).getLast? := by
    intro leases
    rw [findLeaseByMac, ← List.head?_filter, List.filter_reverse,
      List.head?_reverse]
  calc
    lookupIpByMacFrom table readToString path mac =
        ((parseLeases content).filter fun lease =>
          table.toLowercase lease.hwAddress ==
            table.toLowercase mac).getLast?.map DhcpLease.ipAddress := by
      rw [lookupIpByMacFrom, hread, Option.bind_some, hlast]
    _ = (((parseLeases content).map fun lease =>
          (lease.ipAddress, lease.hwAddress)).filter fun a =>
            table.toLowercase a.2 == table.toLowercase mac).getLast?.map
              Prod.fst :=
      getLast?_filter_map table mac
        (fun lease : DhcpLease => (lease.ipAddress, lease.hwAddress)) _
    _ = (((blocks content).map fun b => (b.ipAddress, b.hwAddress)).filter
          fun a => table.toLowercase a.2 ==
            table.toLowercase mac).getLast?.map Prod.fst := by
      rw [map_parseLeases h]
    _ = (matching table (blocks content) mac).getLast?.map
          LeaseBlock.ipAddress :=
      (getLast?_filter_map table mac
        (fun b : LeaseBlock => (b.ipAddress, b.hwAddress)) _).symm

/-- **The lookup returns the most recent lease** exactly when the last block
of the address has the IP address of the most recent one. -/
theorem lookup_mostRecent_iff (table : LowercaseTable)
    {readToString : Path → Option Text} {path : Path} {content : Text}
    (hread : readToString path = some content) (h : IsLeaseFile content)
    (mac : Text) :
    ReturnsMostRecent (matching table (blocks content) mac)
        (lookupIpByMacFrom table readToString path mac) ↔
      EndsMostRecent (matching table (blocks content) mac) := by
  rw [lookupIpByMacFrom_eq hread h, EndsMostRecent]
  cases hlast : (matching table (blocks content) mac).getLast? with
  | none => exact iff_of_true (List.getLast?_eq_none_iff.mp hlast) nofun
  | some last =>
      constructor
      · intro hresult b hb
        obtain rfl := Option.some.inj hb
        exact hresult
      · intro hends
        exact hends last rfl

/-- A lease file with two blocks of one address, with these lease values. -/
def twoLeases (first second : String) : Text :=
  "\x7b\nip_address=192.168.64.8\nhw_address=1,5a:94:ef:5c:f4:70\n".toList ++
    "lease=0x".toList ++ first.toList ++ "\n\x7d\n\x7b\n".toList ++
    "ip_address=192.168.64.7\nhw_address=1,5a:94:ef:5c:f4:70\n".toList ++
    "lease=0x".toList ++ second.toList ++ "\n\x7d\n".toList

/-- Its blocks. -/
def twoBlocks (first second : Nat) : List LeaseBlock :=
  [⟨"192.168.64.8".toList, "5a:94:ef:5c:f4:70".toList, first⟩,
    ⟨"192.168.64.7".toList, "5a:94:ef:5c:f4:70".toList, second⟩]

theorem lookup_mostRecent_ascending :
    ReturnsMostRecent
      (matching keepingTable (blocks (twoLeases "69ca9c00" "69caa111"))
        "5A:94:EF:5C:F4:70".toList)
      (lookupIpByMacFrom keepingTable
        (fun _ => some (twoLeases "69ca9c00" "69caa111")) []
        "5A:94:EF:5C:F4:70".toList) := by
  have hfile : IsLeaseFile (twoLeases "69ca9c00" "69caa111") :=
    ⟨by decide, by decide⟩
  have hmatching : matching keepingTable
      (blocks (twoLeases "69ca9c00" "69caa111"))
        "5A:94:EF:5C:F4:70".toList = twoBlocks 0x69ca9c00 0x69caa111 := by
    decide
  refine (lookup_mostRecent_iff keepingTable rfl hfile _).mpr ?_
  rw [hmatching]
  intro last hlast
  obtain rfl := Option.some.inj hlast
  exact ⟨_, ⟨by simp [twoBlocks], by simp [twoBlocks]⟩, rfl⟩

/-- The lookup returns the lease with the lower lease value, which stands
last. -/
theorem lookup_descending_stale :
    IsLeaseFile (twoLeases "69caa111" "69ca9c00") ∧
      ¬ ReturnsMostRecent
        (matching keepingTable (blocks (twoLeases "69caa111" "69ca9c00"))
          "5a:94:ef:5c:f4:70".toList)
        (lookupIpByMacFrom keepingTable
          (fun _ => some (twoLeases "69caa111" "69ca9c00")) []
          "5a:94:ef:5c:f4:70".toList) := by
  have hfile : IsLeaseFile (twoLeases "69caa111" "69ca9c00") :=
    ⟨by decide, by decide⟩
  have hmatching : matching keepingTable
      (blocks (twoLeases "69caa111" "69ca9c00"))
        "5a:94:ef:5c:f4:70".toList = twoBlocks 0x69caa111 0x69ca9c00 := by
    decide
  have hlookup : lookupIpByMacFrom keepingTable
      (fun _ => some (twoLeases "69caa111" "69ca9c00")) []
        "5a:94:ef:5c:f4:70".toList = some "192.168.64.7".toList := by
    rw [lookupIpByMacFrom_eq rfl hfile, hmatching]
    rfl
  refine ⟨hfile, ?_⟩
  rw [hmatching, hlookup]
  rintro ⟨b, ⟨hmem, hmax⟩, hip⟩
  rcases List.mem_cons.mp hmem with rfl | hmem
  · exact absurd hip (by decide)
  · obtain rfl := List.mem_singleton.mp hmem
    exact absurd (hmax _ (List.mem_cons_self ..)) (by decide)

end Dhcp
end Kasou
