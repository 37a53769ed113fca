import Kasou.Dhcp.Lookup
import Kasou.Dhcp.Range
import Mathlib.Logic.Function.Basic

/-!
# The lease file as a store

A DHCP server appends a block for each lease that it gives out.  As long as
the file ends with a closed block, looking an address up in the file is
looking it up in a table in which each lease has replaced the earlier one of
its address.
-/

namespace Kasou
namespace Dhcp

/-! ## Files and their tables -/

/-- A lease file that is empty or ends with a closing line. -/
structure LeaseFile where
  content : Text
  whole : content = [] ∨ EndsClosed content

/-- A block that renders a lease, among any other lines. -/
structure WrittenLease where
  block : Block
  lease : DhcpLease
  renderable : lease.Renderable
  renders : block.Renders lease

/-- A table of leases, by the lower case of their addresses. -/
abbrev LeaseTable := Text → Option DhcpLease

/-- The table of a list of leases: the last lease of each address. -/
def tableOf (table : LowercaseTable) (leases : List DhcpLease) :
    LeaseTable :=
  fun key => leases.reverse.find? fun lease =>
    table.toLowercase lease.hwAddress == key

/-- A lease replaces the one of its address. -/
def LeaseTable.insert (table : LowercaseTable) (t : LeaseTable)
    (lease : DhcpLease) : LeaseTable :=
  Function.update t (table.toLowercase lease.hwAddress) (some lease)

/-- A lookup is one in the table. -/
theorem findLeaseByMac_eq_tableOf (table : LowercaseTable)
    (leases : List DhcpLease) (mac : Text) :
    findLeaseByMac table leases mac =
      tableOf table leases (table.toLowercase mac) := rfl

/-- What the table has is a lease of the list, with the address asked for. -/
theorem mem_of_tableOf_eq_some {table : LowercaseTable}
    {leases : List DhcpLease} {key : Text} {lease : DhcpLease}
    (h : tableOf table leases key = some lease) :
    lease ∈ leases ∧ table.toLowercase lease.hwAddress = key := by
  rw [tableOf, List.find?_eq_some_iff_append] at h
  obtain ⟨hkey, before, after, hleases, -⟩ := h
  refine ⟨?_, beq_iff_eq.mp hkey⟩
  rw [← List.mem_reverse, hleases]
  exact List.mem_append_right _ (List.mem_cons_self ..)

theorem tableOf_concat (table : LowercaseTable) (leases : List DhcpLease)
    (lease : DhcpLease) :
    tableOf table (leases ++ [lease]) =
      (tableOf table leases).insert table lease := by
  funext key
  rw [tableOf, List.reverse_concat, LeaseTable.insert]
  by_cases hkey : table.toLowercase lease.hwAddress = key
  · have hfound : (table.toLowercase lease.hwAddress == key) = true :=
      beq_iff_eq.mpr hkey
    rw [List.find?_cons, hfound, ← hkey, Function.update_self]
  · have hmissed : (table.toLowercase lease.hwAddress == key) = false :=
      beq_eq_false_iff_ne.mpr hkey
    rw [List.find?_cons, hmissed, Function.update_of_ne (Ne.symm hkey)]
    rfl

/-! ## Appending a block -/

theorem lineComplete_flatMap_render (ls : List Line) :
    Text.LineComplete (ls.flatMap Line.render) := by
  induction ls with
  | nil => exact Text.LineComplete.nil
  | cons l ls ih =>
      have hline : l.render.LineComplete := by
        intro c hc
        rw [Line.render, List.getLast?_concat] at hc
        exact (Option.some.inj hc).symm
      rw [List.flatMap_cons]
      exact hline.append ih

/-- A rendered block ends with its closing line. -/
theorem WrittenLease.endsClosed (w : WrittenLease) :
    EndsClosed w.block.render := by
  have hpadded := w.renders.padded
  rw [Block.lines, List.forall_mem_append] at hpadded
  have hclosing : w.block.closing.Padded :=
    hpadded.2 _ (List.mem_singleton_self _)
  have htrim : w.block.closing.body.trim = "\x7d".toList := by
    have hbody := Line.trim_body hclosing
    rw [Text.trim_stripCarriageReturn, w.renders.closing] at hbody
    exact hbody
  refine ⟨(w.block.opening :: w.block.inner).flatMap Line.render,
    w.block.closing.body, lineComplete_flatMap_render _,
    Line.newline_not_mem_body hclosing, htrim, ?_⟩
  rw [Block.render, Block.lines, List.flatMap_append,
    List.flatMap_singleton, Line.render, ← List.append_assoc]

/-- The file with one more block. -/
def LeaseFile.append (f : LeaseFile) (w : WrittenLease) : LeaseFile where
  content := f.content ++ w.block.render
  whole := by
    refine Or.inr (EndsClosed.append ?_ w.endsClosed)
    rcases f.whole with hempty | hclosed
    · rw [hempty]
      exact Text.LineComplete.nil
    · exact hclosed.lineComplete

theorem parseLeases_block (w : WrittenLease) :
    parseLeases w.block.render = [w.lease] := by
  have hblocks : List.Forall₂ Block.Renders [w.block] [w.lease] :=
    .cons w.renders .nil
  have hparse := parseLeases_blocks hblocks
    (List.forall_mem_singleton.mpr w.renderable)
  rwa [List.flatMap_singleton] at hparse

theorem LeaseFile.parseLeases_append (f : LeaseFile) (w : WrittenLease) :
    parseLeases (f.append w).content = parseLeases f.content ++ [w.lease] := by
  have hcontent : (f.append w).content = f.content ++ w.block.render := rfl
  rw [hcontent, ← parseLeases_block w]
  rcases f.whole with hempty | hclosed
  · rw [hempty]
    rfl
  · exact Dhcp.parseLeases_append hclosed _

/-- **The lease file is a table of addresses.**  After any sequence of leases
whose blocks are appended to a file that ends closed, looking up a MAC address
in the file finds what was inserted for it last, up to case, and what was
found before if nothing was. -/
theorem lookup_foldl_append (table : LowercaseTable) (f : LeaseFile)
    (written : List WrittenLease) (mac : Text) :
    findLeaseByMac table (parseLeases (written.foldl .append f).content) mac =
      (written.map WrittenLease.lease).foldl (LeaseTable.insert table)
        (tableOf table (parseLeases f.content)) (table.toLowercase mac) := by
  rw [findLeaseByMac_eq_tableOf]
  refine congrFun ?_ _
  induction written generalizing f with
  | nil => rfl
  | cons w written ih =>
      rw [List.foldl_cons, ih, List.map_cons, List.foldl_cons,
        f.parseLeases_append, tableOf_concat]

end Dhcp
end Kasou
