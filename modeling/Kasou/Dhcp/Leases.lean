import Kasou.Library.Text

/-!
# Reading the DHCP lease file

`parseLeases` goes over the lines of the file with three values carried from
line to line, and closes a lease at each line `}`.

A trimmed line is one of five kinds of `Item`; the scan is the application of
the items of the lines one after another.
-/

namespace Kasou

/-- A parsed DHCP lease entry. -/
structure DhcpLease where
  ipAddress : Text
  hwAddress : Text
  name : Option Text
  deriving DecidableEq, Repr

namespace Dhcp

/-- The leases read so far, and the values of the block being read. -/
structure Scan where
  leases : List DhcpLease
  currentIp : Option Text
  currentHw : Option Text
  currentName : Option Text

/-- Before the first line. -/
def Scan.start : Scan := ⟨[], none, none, none⟩

/-- Close the block: it is a lease if it had both addresses. -/
def Scan.close (s : Scan) : Scan :=
  match s.currentIp, s.currentHw with
  | some ip, some hw =>
      { Scan.start with leases := s.leases ++ [⟨ip, hw, s.currentName⟩] }
  | _, _ => { Scan.start with leases := s.leases }

/-- Read one line. -/
def scanLine (s : Scan) (line : Text) : Scan :=
  let line := line.trim
  if line = "\x7d".toList then s.close
  else
    match Text.stripPrefix "ip_address=".toList line with
    | some val => { s with currentIp := some val }
    | none =>
        match Text.stripPrefix "hw_address=".toList line with
        | some val =>
            -- macOS puts the hardware type and a comma before the address
            let mac := (Text.stripPrefix "1,".toList val).getD val
            { s with currentHw := some mac }
        | none =>
            match Text.stripPrefix "name=".toList line with
            | some val => { s with currentName := some val }
            | none => s

/-- Parse the macOS DHCP lease file format. -/
def parseLeases (content : Text) : List DhcpLease :=
  (content.lines.foldl scanLine Scan.start).leases

/-! ## The kinds of lines -/

/-- What a line says. -/
inductive Item where
  | close
  | ip (value : Text)
  | hw (value : Text)
  | name (value : Text)
  | other
  deriving DecidableEq

/-- What a trimmed line says. -/
def item (line : Text) : Item :=
  if line = "\x7d".toList then .close
  else
    match Text.stripPrefix "ip_address=".toList line with
    | some val => .ip val
    | none =>
        match Text.stripPrefix "hw_address=".toList line with
        | some val => .hw ((Text.stripPrefix "1,".toList val).getD val)
        | none =>
            match Text.stripPrefix "name=".toList line with
            | some val => .name val
            | none => .other

/-- Take in what a line says. -/
def Scan.apply (s : Scan) : Item → Scan
  | .close => s.close
  | .ip value => { s with currentIp := some value }
  | .hw value => { s with currentHw := some value }
  | .name value => { s with currentName := some value }
  | .other => s

theorem scanLine_eq (s : Scan) (line : Text) :
    scanLine s line = s.apply (item line.trim) := by
  rw [scanLine, item]
  dsimp only
  split
  · rfl
  · split
    · rfl
    · split
      · rfl
      · split <;> rfl

/-- The scan of a file applies the items of its lines. -/
theorem parseLeases_eq (content : Text) :
    parseLeases content =
      ((content.lines.map fun line => item line.trim).foldl Scan.apply
        Scan.start).leases := by
  rw [parseLeases, List.foldl_map]
  congr 1
  exact List.foldl_ext _ _ _ fun s line _ => scanLine_eq s line

theorem item_ip (value : Text) :
    item ("ip_address=".toList ++ value) = .ip value := by
  rw [item, if_neg nofun, Text.stripPrefix_append]

/-- A hardware address, with or without the hardware type before it. -/
theorem item_hwAddress (value : Text) :
    item ("hw_address=".toList ++ value) =
      .hw ((Text.stripPrefix "1,".toList value).getD value) := by
  have hip : Text.stripPrefix "ip_address=".toList
      ("hw_address=".toList ++ value) = none := rfl
  have hclose : "hw_address=".toList ++ value ≠ "\x7d".toList := by
    intro h
    cases h
  rw [item, if_neg hclose, hip, Text.stripPrefix_append]

theorem item_hw (value : Text) :
    item ("hw_address=1,".toList ++ value) = .hw value := by
  have hline : "hw_address=1,".toList ++ value =
      "hw_address=".toList ++ ("1,".toList ++ value) := rfl
  rw [hline, item_hwAddress, Text.stripPrefix_append, Option.getD_some]

theorem item_name (value : Text) :
    item ("name=".toList ++ value) = .name value := by
  have hip : Text.stripPrefix "ip_address=".toList
      ("name=".toList ++ value) = none := by
    rw [Text.stripPrefix_eq_none_iff]
    rintro ⟨rest, hrest⟩
    cases hrest
  have hhw : Text.stripPrefix "hw_address=".toList
      ("name=".toList ++ value) = none := by
    rw [Text.stripPrefix_eq_none_iff]
    rintro ⟨rest, hrest⟩
    cases hrest
  rw [item, if_neg nofun, hip, hhw, Text.stripPrefix_append]

/-- What a line can say, and when. -/
theorem item_cases (line : Text) :
    (line = "\x7d".toList ∧ item line = .close) ∨
    (∃ value, line = "ip_address=".toList ++ value ∧
      item line = .ip value) ∨
    (∃ value, line = "hw_address=".toList ++ value ∧
      item line = .hw ((Text.stripPrefix "1,".toList value).getD value)) ∨
    (∃ value, line = "name=".toList ++ value ∧ item line = .name value) ∨
    (item line = .other ∧ line ≠ "\x7d".toList ∧
      ¬ "ip_address=".toList <+: line ∧ ¬ "hw_address=".toList <+: line ∧
        ¬ "name=".toList <+: line) := by
  by_cases hclose : line = "\x7d".toList
  · exact Or.inl ⟨hclose, by rw [item, if_pos hclose]⟩
  by_cases hip : "ip_address=".toList <+: line
  · obtain ⟨value, rfl⟩ := hip
    exact Or.inr (Or.inl ⟨value, rfl, item_ip value⟩)
  by_cases hhw : "hw_address=".toList <+: line
  · obtain ⟨value, rfl⟩ := hhw
    exact Or.inr (Or.inr (Or.inl ⟨value, rfl, item_hwAddress value⟩))
  by_cases hname : "name=".toList <+: line
  · obtain ⟨value, rfl⟩ := hname
    exact Or.inr (Or.inr (Or.inr (Or.inl ⟨value, rfl, item_name value⟩)))
  · have hother : item line = .other := by
      rw [item, if_neg hclose, Text.stripPrefix_eq_none_iff.mpr hip,
        Text.stripPrefix_eq_none_iff.mpr hhw,
        Text.stripPrefix_eq_none_iff.mpr hname]
    exact Or.inr (Or.inr (Or.inr (Or.inr
      ⟨hother, hclose, hip, hhw, hname⟩)))

/-- A line says nothing exactly when it is not `}` and starts with none of the
three keys. -/
theorem item_eq_other_iff {line : Text} :
    item line = .other ↔ line ≠ "\x7d".toList ∧
      ¬ "ip_address=".toList <+: line ∧ ¬ "hw_address=".toList <+: line ∧
        ¬ "name=".toList <+: line := by
  rcases item_cases line with ⟨hline, hitem⟩ | ⟨value, hline, hitem⟩ |
    ⟨value, hline, hitem⟩ | ⟨value, hline, hitem⟩ | ⟨hitem, hrest⟩
  · refine iff_of_false (by rw [hitem]; nofun) fun h => h.1 hline
  · refine iff_of_false (by rw [hitem]; nofun) fun h => h.2.1 ?_
    exact ⟨value, hline.symm⟩
  · refine iff_of_false (by rw [hitem]; nofun) fun h => h.2.2.1 ?_
    exact ⟨value, hline.symm⟩
  · refine iff_of_false (by rw [hitem]; nofun) fun h => h.2.2.2 ?_
    exact ⟨value, hline.symm⟩
  · exact iff_of_true hitem hrest

theorem item_eq_close_iff {line : Text} :
    item line = .close ↔ line = "\x7d".toList := by
  rcases item_cases line with ⟨hline, hitem⟩ | ⟨value, hline, hitem⟩ |
    ⟨value, hline, hitem⟩ | ⟨value, hline, hitem⟩ | ⟨hitem, hne, -⟩
  · exact iff_of_true hitem hline
  · rw [hitem, hline]
    exact iff_of_false nofun nofun
  · rw [hitem, hline]
    exact iff_of_false nofun nofun
  · rw [hitem, hline]
    exact iff_of_false nofun nofun
  · rw [hitem]
    exact iff_of_false nofun hne

end Dhcp
end Kasou
