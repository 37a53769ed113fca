import Kasou.Dhcp.RoundTrip
import Kasou.Dhcp.Stretches

/-!
# Which leases a file can have

Trimming takes the white space off the end of every value, and no line
contains a line feed.  Nothing else is lost: each list of leases without such
values can be written in the format of macOS, and it is what the parser makes
of that file.
-/

namespace Kasou

/-! ## Writing leases -/

/-- A line of a written block. -/
def writtenLine (indent content : Text) : Line := ⟨indent, content, [], false⟩

theorem padded_writtenLine {indent content : Text} (hindent : indent.Blank)
    (hline : '\n' ∉ indent ++ content) :
    (writtenLine indent content).Padded where
  indent := hindent
  trailing := by
    intro c hc
    cases hc
  oneLine := by
    rw [writtenLine, List.append_nil]
    exact hline

/-- The block of a lease, as macOS writes it. -/
def DhcpLease.block (lease : DhcpLease) : Block where
  opening := writtenLine [] "\x7b".toList
  inner := lease.fields.map (writtenLine ['\t'])
  closing := writtenLine [] "\x7d".toList

/-- The lease file of these leases. -/
def writeLeases (leases : List DhcpLease) : Text :=
  leases.flatMap fun lease => lease.block.render

theorem DhcpLease.Renderable.newline_not_mem {lease : DhcpLease}
    (h : lease.Renderable) : ∀ field ∈ lease.fields, '\n' ∉ field := by
  have hkey : ∀ (key value : Text), '\n' ∉ key → value ∈ lease.values →
      '\n' ∉ key ++ value := by
    intro key value hkey hvalue
    rw [List.mem_append, not_or]
    exact ⟨hkey, (h value hvalue).1⟩
  intro field hfield
  rw [DhcpLease.fields] at hfield
  rcases List.mem_append.mp hfield with hmem | hmem
  · rcases List.mem_cons.mp hmem with rfl | hmem
    · exact hkey _ _ (by decide) (by simp [DhcpLease.values])
    · rw [List.mem_singleton] at hmem
      subst hmem
      exact hkey _ _ (by decide) (by simp [DhcpLease.values])
  · obtain ⟨name, hname, rfl⟩ := List.mem_map.mp hmem
    exact hkey _ _ (by decide) (List.mem_append_right _ hname)

/-- Every line of a field says something. -/
theorem DhcpLease.Renderable.not_isOther {lease : DhcpLease}
    (h : lease.Renderable) : ∀ field ∈ lease.fields, ¬ IsOther field := by
  intro field hfield hother
  have hitem := List.mem_map_of_mem (f := fun c => Dhcp.item c.trim) hfield
  rw [Dhcp.items_fields h] at hitem
  have hnothing : Dhcp.item field.trim = .other :=
    Dhcp.item_eq_other_iff.mpr hother
  rw [hnothing] at hitem
  simp [DhcpLease.items] at hitem

theorem DhcpLease.Renderable.block {lease : DhcpLease}
    (h : lease.Renderable) : lease.block.Renders lease := by
  constructor
  · intro l hl
    rw [Block.lines] at hl
    rcases List.mem_append.mp hl with hmem | hmem
    · rcases List.mem_cons.mp hmem with rfl | hmem
      · exact padded_writtenLine (by decide) (by decide)
      · obtain ⟨field, hfield, rfl⟩ := List.mem_map.mp hmem
        have hline := h.newline_not_mem field hfield
        exact padded_writtenLine (by decide) (by simpa using hline)
    · rw [List.mem_singleton] at hmem
      subst hmem
      exact padded_writtenLine (by decide) (by decide)
  · rfl
  · rfl
  · have hcontents : lease.block.inner.map Line.content = lease.fields := by
      rw [DhcpLease.block, List.map_map]
      exact List.map_id _
    rw [hcontents, List.filter_eq_self.mpr]
    intro field hfield
    exact decide_eq_true (h.not_isOther field hfield)

theorem forall₂_block {leases : List DhcpLease}
    (h : ∀ lease ∈ leases, lease.Renderable) :
    List.Forall₂ Block.Renders (leases.map DhcpLease.block) leases := by
  induction leases with
  | nil => exact .nil
  | cons lease leases ih =>
      rw [List.forall_mem_cons] at h
      exact .cons h.1.block (ih h.2)

/-- Parsing a written file gives back the leases. -/
theorem parseLeases_writeLeases {leases : List DhcpLease}
    (h : ∀ lease ∈ leases, lease.Renderable) :
    Dhcp.parseLeases (writeLeases leases) = leases := by
  have htext : writeLeases leases =
      (leases.map DhcpLease.block).flatMap Block.render := by
    rw [writeLeases, List.flatMap_map]
  rw [htext]
  exact parseLeases_blocks (forall₂_block h) h

/-! ## What is read -/

namespace Dhcp

open Command

/-- A value is the end of the line that gives it. -/
theorem suffix_of_value {f : Field} {line value : Text}
    (h : (item line).value f = some value) : value <:+ line := by
  rcases item_cases line with ⟨-, hitem⟩ | ⟨v, rfl, hitem⟩ |
    ⟨v, rfl, hitem⟩ | ⟨v, rfl, hitem⟩ | ⟨hitem, -⟩
  · rw [hitem] at h
    cases f <;> cases h
  · rw [hitem] at h
    cases f with
    | ipAddress =>
        obtain rfl := Option.some.inj h
        exact List.suffix_append _ _
    | hwAddress => cases h
    | name => cases h
  · rw [hitem] at h
    cases f with
    | ipAddress => cases h
    | hwAddress =>
        obtain rfl := Option.some.inj h
        refine List.IsSuffix.trans ?_ (List.suffix_append _ _)
        cases hstrip : Text.stripPrefix "1,".toList v with
        | none => exact List.suffix_refl v
        | some rest =>
            rw [Text.stripPrefix_eq_some_iff.mp hstrip]
            exact List.suffix_append _ _
    | name => cases h
  · rw [hitem] at h
    cases f with
    | ipAddress => cases h
    | hwAddress => cases h
    | name =>
        obtain rfl := Option.some.inj h
        exact List.suffix_append _ _
  · rw [hitem] at h
    cases f <;> cases h

/-- Every value of a lease that is read ends a trimmed line of the file. -/
theorem exists_line_of_mem_values {content : Text} {lease : DhcpLease}
    (hlease : lease ∈ parseLeases content) {v : Text}
    (hv : v ∈ lease.values) : ∃ line ∈ trimmedLines content, v <:+ line := by
  rw [parseLeases_eq_stretches] at hlease
  obtain ⟨s, hs, hmakes⟩ := List.mem_filterMap.mp hlease
  have hfield : ∃ f, lastValue (Item.value f) s.1 = some v := by
    rw [leaseOfStretch, leaseOfValues] at hmakes
    split at hmakes
    next ip hw hip hhw =>
      obtain rfl := Option.some.inj hmakes
      rw [DhcpLease.values] at hv
      rcases List.mem_append.mp hv with hmem | hmem
      · rcases List.mem_cons.mp hmem with rfl | hmem
        · exact ⟨.ipAddress, hip⟩
        · rw [List.mem_singleton] at hmem
          exact ⟨.hwAddress, hmem ▸ hhw⟩
      · exact ⟨.name, Option.mem_toList.mp hmem⟩
    next => cases hmakes
  obtain ⟨f, hlast⟩ := hfield
  obtain ⟨i, hi, hvalue⟩ := exists_of_lastValue_eq_some hlast
  obtain ⟨line, hline, rfl⟩ :=
    List.mem_map.mp (mem_items_of_mem_stretches hs i hi)
  exact ⟨line, hline, suffix_of_value hvalue⟩

/-- Every lease that is read can be written. -/
theorem renderable_of_mem_parseLeases {content : Text} {lease : DhcpLease}
    (hlease : lease ∈ parseLeases content) : lease.Renderable := by
  intro v hv
  obtain ⟨trimmed, hline, before, rfl⟩ := exists_line_of_mem_values hlease hv
  obtain ⟨line, hmem, htrim⟩ := List.mem_map.mp hline
  constructor
  · intro hfeed
    have htrimmed : '\n' ∈ line.trim := htrim ▸ List.mem_append_right _ hfeed
    exact Text.newline_not_mem_of_mem_lines hmem
      (Text.mem_of_mem_trim htrimmed)
  · intro c hc
    refine Text.isWhitespace_getLast?_trim line c ?_
    rw [htrim, List.getLast?_append]
    rw [Option.mem_def] at hc ⊢
    rw [hc, Option.some_or]

/-- **The leases that files can have** are those whose values contain no line
feed and do not end in white space: such leases are what is read from the file
that has them written, and all leases that are read are such. -/
theorem exists_parseLeases_iff (leases : List DhcpLease) :
    (∃ content, parseLeases content = leases) ↔
      ∀ lease ∈ leases, lease.Renderable := by
  constructor
  · rintro ⟨content, rfl⟩ lease hlease
    exact renderable_of_mem_parseLeases hlease
  · intro h
    exact ⟨writeLeases leases, parseLeases_writeLeases h⟩

/-- **Rewriting a lease file** in the format of macOS changes none of its
leases, whatever the file was. -/
theorem parseLeases_rewrite (content : Text) :
    parseLeases (writeLeases (parseLeases content)) = parseLeases content :=
  parseLeases_writeLeases fun _ hlease => renderable_of_mem_parseLeases hlease

end Dhcp
end Kasou
