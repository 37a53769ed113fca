import Kasou.Dhcp.Leases

/-!
# The lease file round trip

A lease is written as a block of lines: `{`, its fields in any order with any
other lines among them, and `}`.  Each line may be surrounded by white space
and may end with LF or CRLF.  Parsing gives back the leases.
-/

namespace Kasou

open List

/-! ## Written lines -/

/-- A line of the file: its contents, the white space around them, and
whether it ends with CRLF. -/
structure Line where
  indent : Text
  content : Text
  trailing : Text
  crlf : Bool

namespace Line

/-- The line end. -/
def ending (l : Line) : Text := if l.crlf then ['\r'] else []

/-- The line without its line feed. -/
def body (l : Line) : Text := l.indent ++ l.content ++ l.trailing ++ l.ending

/-- The text of the line. -/
def render (l : Line) : Text := l.body ++ ['\n']

/-- Only white space stands around the contents, and the line is one line. -/
structure Padded (l : Line) : Prop where
  indent : l.indent.Blank
  trailing : l.trailing.Blank
  oneLine : '\n' ∉ l.indent ++ l.content ++ l.trailing

instance (l : Line) : Decidable l.Padded :=
  decidable_of_iff (l.indent.Blank ∧ l.trailing.Blank ∧
      '\n' ∉ l.indent ++ l.content ++ l.trailing)
    ⟨fun ⟨hindent, htrailing, hline⟩ => ⟨hindent, htrailing, hline⟩,
      fun h => ⟨h.indent, h.trailing, h.oneLine⟩⟩

theorem newline_not_mem_body {l : Line} (hl : l.Padded) : '\n' ∉ l.body := by
  rw [body, List.mem_append, not_or]
  refine ⟨hl.oneLine, ?_⟩
  rw [ending]
  split <;> decide

/-- A reader that trims sees the trimmed contents. -/
theorem trim_body {l : Line} (hl : l.Padded) :
    (Text.stripCarriageReturn l.body).trim = l.content.trim := by
  have hending : (l.trailing ++ l.ending).Blank := by
    intro c hc
    rcases List.mem_append.mp hc with h | h
    · exact hl.trailing c h
    · rw [ending] at h
      split at h
      · rw [List.mem_singleton] at h
        subst h
        rfl
      · cases h
  rw [Text.trim_stripCarriageReturn, body, List.append_assoc]
  exact Text.trim_surrounded hl.indent hending l.content

end Line

/-- The lines of a text that is written line by line, as a reader that trims
sees them. -/
theorem trimmed_lines_render {ls : List Line} (hls : ∀ l ∈ ls, l.Padded) :
    (Text.lines (ls.flatMap Line.render)).map Text.trim =
      ls.map fun l => l.content.trim := by
  induction ls with
  | nil => rfl
  | cons l ls ih =>
      rw [List.forall_mem_cons] at hls
      rw [List.flatMap_cons, Line.render, List.append_assoc,
        List.singleton_append,
        Text.lines_append_cons (Line.newline_not_mem_body hls.1),
        List.map_cons, List.map_cons, Line.trim_body hls.1, ih hls.2]

/-! ## Written leases -/

namespace DhcpLease

/-- The values of the lease. -/
def values (lease : DhcpLease) : List Text :=
  [lease.ipAddress, lease.hwAddress] ++ lease.name.toList

/-- No value contains a line feed or ends in white space. -/
def Renderable (lease : DhcpLease) : Prop :=
  ∀ v ∈ lease.values, '\n' ∉ v ∧
    ∀ c ∈ v.getLast?, Text.isWhitespace c = false

-- The quantifiers are bounded: the finite type of characters is not searched.
instance (lease : DhcpLease) : Decidable lease.Renderable :=
  have (v : Text) : Decidable (∀ c ∈ v.getLast?, Text.isWhitespace c = false) :=
    Option.decidableForallMem _
  List.decidableBAll (fun v : Text => '\n' ∉ v ∧
    ∀ c ∈ v.getLast?, Text.isWhitespace c = false) lease.values

/-- The lines of the fields. -/
def fields (lease : DhcpLease) : List Text :=
  ["ip_address=".toList ++ lease.ipAddress,
    "hw_address=1,".toList ++ lease.hwAddress] ++
    lease.name.toList.map ("name=".toList ++ ·)

/-- What these lines say. -/
def items (lease : DhcpLease) : List Dhcp.Item :=
  [.ip lease.ipAddress, .hw lease.hwAddress] ++ lease.name.toList.map .name

end DhcpLease

/-- The lines of a block. -/
structure Block where
  opening : Line
  inner : List Line
  closing : Line

namespace Block

/-- All lines of the block. -/
def lines (b : Block) : List Line := b.opening :: b.inner ++ [b.closing]

/-- The text of the block. -/
def render (b : Block) : Text := b.lines.flatMap Line.render

end Block

/-- The contents of a line that is neither a closing line nor the line of a
field. -/
def IsOther (content : Text) : Prop :=
  content.trim ≠ "\x7d".toList ∧ ¬ "ip_address=".toList <+: content.trim ∧
    ¬ "hw_address=".toList <+: content.trim ∧
      ¬ "name=".toList <+: content.trim

instance (content : Text) : Decidable (IsOther content) :=
  inferInstanceAs (Decidable (_ ∧ _))

/-- The block renders the lease: within it, the lines that are not other lines
are the lines of the lease's fields, in any order. -/
structure Block.Renders (b : Block) (lease : DhcpLease) : Prop where
  padded : ∀ l ∈ b.lines, l.Padded
  opening : b.opening.content = "\x7b".toList
  closing : b.closing.content = "\x7d".toList
  inner : (b.inner.map Line.content).filter (fun c => ¬ IsOther c) ~
    lease.fields

/-! ## What a block says -/

namespace Dhcp

/-- The line of a field is left as it is by trimming. -/
theorem trim_field {key value : Text}
    (hfirst : key.head?.all (!Text.isWhitespace ·) = true)
    (hlast : key.getLast?.all (!Text.isWhitespace ·) = true)
    (hne : key ≠ [])
    (hvalue : ∀ c ∈ value.getLast?, Text.isWhitespace c = false) :
    (key ++ value).trim = key ++ value := by
  simp only [Option.all_eq_true, Bool.not_eq_true'] at hfirst hlast
  refine Text.trim_eq_self ?_ fun c hc => ?_
  · rwa [List.head?_append_of_ne_nil _ hne]
  · rw [List.getLast?_append] at hc
    cases hv : value.getLast? with
    | none =>
        rw [hv, Option.none_or] at hc
        exact hlast c hc
    | some d =>
        rw [hv, Option.some_or] at hc
        exact hvalue c (hv.trans hc)

theorem items_fields {lease : DhcpLease} (h : lease.Renderable) :
    lease.fields.map (fun c => item c.trim) = lease.items := by
  have hip := h lease.ipAddress (by simp [DhcpLease.values])
  have hhw := h lease.hwAddress (by simp [DhcpLease.values])
  rw [DhcpLease.fields, DhcpLease.items, List.map_append, List.map_map]
  congr 1
  · rw [List.map_cons, List.map_singleton,
      trim_field (by decide) (by decide) (by decide) hip.2,
      trim_field (by decide) (by decide) (by decide) hhw.2, item_ip, item_hw]
  · apply List.map_congr_left
    intro name hname
    have hvalue := h name (List.mem_append_right _ hname)
    rw [Function.comp_apply,
      trim_field (by decide) (by decide) (by decide) hvalue.2, item_name]

/-- Lines that say nothing do not matter. -/
theorem foldl_apply_filter (s : Scan) (items : List Item) :
    items.foldl Scan.apply s =
      (items.filter (· ≠ .other)).foldl Scan.apply s := by
  induction items generalizing s with
  | nil => rfl
  | cons i items ih =>
      by_cases hi : i = .other
      · subst hi
        rw [List.filter_cons_of_neg (by simp), List.foldl_cons]
        exact ih s
      · rw [List.filter_cons_of_pos (by simpa using hi), List.foldl_cons,
          List.foldl_cons]
        exact ih _

/-- The fields of a lease can be taken in in any order. -/
theorem apply_comm {lease : DhcpLease} {i j : Item} (hi : i ∈ lease.items)
    (hj : j ∈ lease.items) (s : Scan) :
    (s.apply i).apply j = (s.apply j).apply i := by
  have hcases : ∀ k ∈ lease.items, k = .ip lease.ipAddress ∨
      k = .hw lease.hwAddress ∨ ∃ name, lease.name = some name ∧
        k = .name name := by
    intro k hk
    simpa [DhcpLease.items, or_assoc, eq_comm] using hk
  rcases hcases i hi with rfl | rfl | ⟨name, hname, rfl⟩
  · rcases hcases j hj with rfl | rfl | ⟨name', -, rfl⟩ <;> rfl
  · rcases hcases j hj with rfl | rfl | ⟨name', -, rfl⟩ <;> rfl
  · rcases hcases j hj with rfl | rfl | ⟨name', hname', rfl⟩
    · rfl
    · rfl
    · obtain rfl := Option.some.inj (hname.symm.trans hname')
      rfl

/-- After the fields of a lease, the closing line completes it. -/
theorem foldl_apply_items (leases : List DhcpLease) (lease : DhcpLease) :
    (lease.items.foldl Scan.apply
      { Scan.start with leases := leases }).close =
        { Scan.start with leases := leases ++ [lease] } := by
  obtain ⟨ip, hw, name⟩ := lease
  cases name with
  | none => rfl
  | some name => rfl

/-- Scanning a block adds the lease that it renders. -/
theorem scan_block {b : Block} {lease : DhcpLease} (hb : b.Renders lease)
    (hlease : lease.Renderable) (leases : List DhcpLease) :
    (b.lines.map fun l => item l.content.trim).foldl Scan.apply
        { Scan.start with leases := leases } =
      { Scan.start with leases := leases ++ [lease] } := by
  have hopening : item b.opening.content.trim = .other := by
    rw [hb.opening]
    decide
  have hclosing : item b.closing.content.trim = .close := by
    rw [hb.closing]
    decide
  -- the lines that say something say the items of the lease
  have hinner : (b.inner.map fun l => item l.content.trim).filter
      (· ≠ .other) ~ lease.items := by
    have hperm := hb.inner.map fun c => item c.trim
    rw [items_fields hlease] at hperm
    refine List.Perm.trans (List.Perm.of_eq ?_) hperm
    rw [← Function.comp_def (fun c : Text => item c.trim) Line.content,
      ← List.map_map, List.filter_map]
    congr 1
    refine List.filter_congr fun c _ => ?_
    simp [IsOther, item_eq_other_iff]
  have hfold : (b.inner.map fun l => item l.content.trim).foldl Scan.apply
      { Scan.start with leases := leases } =
        lease.items.foldl Scan.apply { Scan.start with leases := leases } := by
    rw [foldl_apply_filter]
    exact hinner.foldl_eq' (fun i hi j hj s =>
      apply_comm (hinner.mem_iff.mp hi) (hinner.mem_iff.mp hj) s) _
  rw [Block.lines, List.map_append, List.map_cons, List.foldl_append,
    List.foldl_cons, hopening, List.map_singleton, hclosing]
  exact (congrArg Scan.close hfold).trans (foldl_apply_items leases lease)

end Dhcp

/-! ## The round trip -/

theorem scan_blocks {blocks : List Block} {leases : List DhcpLease}
    (hblocks : Forall₂ Block.Renders blocks leases)
    (hleases : ∀ lease ∈ leases, lease.Renderable)
    (before : List DhcpLease) :
    ((blocks.flatMap Block.lines).map fun l =>
      Dhcp.item l.content.trim).foldl Dhcp.Scan.apply
        { Dhcp.Scan.start with leases := before } =
      { Dhcp.Scan.start with leases := before ++ leases } := by
  induction hblocks generalizing before with
  | nil => rw [List.append_nil]; rfl
  | cons hb hrest ih =>
      rw [List.forall_mem_cons] at hleases
      rw [List.flatMap_cons, List.map_append, List.foldl_append,
        Dhcp.scan_block hb hleases.1, ih hleases.2, List.append_assoc]
      rfl

/-- All lines of blocks that render leases are padded. -/
theorem padded_of_renders {blocks : List Block} {leases : List DhcpLease}
    (hblocks : Forall₂ Block.Renders blocks leases) :
    ∀ l ∈ blocks.flatMap Block.lines, l.Padded := by
  induction hblocks with
  | nil => exact List.forall_mem_nil _
  | cons hb hrest ih =>
      rw [List.flatMap_cons, List.forall_mem_append]
      exact ⟨hb.padded, ih⟩

/-- Blocks that render leases are read as these leases. -/
theorem parseLeases_blocks {blocks : List Block} {leases : List DhcpLease}
    (hblocks : Forall₂ Block.Renders blocks leases)
    (hleases : ∀ lease ∈ leases, lease.Renderable) :
    Dhcp.parseLeases (blocks.flatMap Block.render) = leases := by
  have htext : blocks.flatMap Block.render =
      (blocks.flatMap Block.lines).flatMap Line.render := by
    rw [List.flatMap_assoc]
    rfl
  have hitems : (Text.lines (blocks.flatMap Block.render)).map
      (fun line => Dhcp.item line.trim) =
        (blocks.flatMap Block.lines).map fun l =>
          Dhcp.item l.content.trim := by
    rw [htext, ← Function.comp_def Dhcp.item Text.trim, ← List.map_map,
      trimmed_lines_render (padded_of_renders hblocks), List.map_map]
    rfl
  rw [Dhcp.parseLeases_eq, hitems]
  exact congrArg Dhcp.Scan.leases (scan_blocks hblocks hleases [])

/-- **The lease file round trip**: parsing blocks that render leases gives
back the leases, in order. -/
theorem parseLeases_render {blocks : List Block} {leases : List DhcpLease}
    (hblocks : Forall₂ Block.Renders blocks leases)
    (hleases : ∀ lease ∈ leases, lease.Renderable) :
    Dhcp.parseLeases (blocks.flatMap Block.render) = leases :=
  parseLeases_blocks hblocks hleases

/-- The lease of the virtual machine named `minimal`. -/
def minimalLease : DhcpLease where
  ipAddress := "192.168.64.9".toList
  hwAddress := "52:55:55:aa:bb:cc".toList
  name := some "minimal".toList

/-- Its block, with two lines that the parser skips; the field lines end with
CRLF. -/
def minimalBlock : Block where
  opening := ⟨[], "\x7b".toList, [], false⟩
  inner :=
    [⟨['\t'], "name=minimal".toList, [], true⟩,
      ⟨['\t'], "ip_address=192.168.64.9".toList, [' '], true⟩,
      ⟨['\t'], "hw_address=1,52:55:55:aa:bb:cc".toList, [], true⟩,
      ⟨['\t'], "identifier=1,52:55:55:aa:bb:cc".toList, [], false⟩,
      ⟨['\t'], "lease=0x69caa0ef".toList, [], false⟩]
  closing := ⟨[], "\x7d".toList, [], false⟩

theorem parseLeases_minimalBlock :
    Dhcp.parseLeases ([minimalBlock, minimalBlock].flatMap Block.render) =
      [minimalLease, minimalLease] := by
  have hrenders : minimalBlock.Renders minimalLease :=
    ⟨by decide, rfl, rfl, by decide⟩
  exact parseLeases_render (.cons hrenders (.cons hrenders .nil))
    (by decide)

end Kasou
