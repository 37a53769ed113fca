import Kasou.Dhcp.Leases
import Kasou.Library.Command
import Kasou.Library.Stretch

/-!
# The parser as a scanner

The lines that trim to `}` cut the lease file into stretches.  `parseLeases`
makes at most one lease of each closed stretch, from the values given last in
it, and starts afresh behind it.  The end of the file is in no closed stretch.
-/

namespace Kasou
namespace Dhcp

open Command Stretch

/-! ## What the lines say -/

/-- The trimmed lines of the file. -/
def trimmedLines (content : Text) : List Text := content.lines.map Text.trim

/-- What the lines of the file say. -/
def items (content : Text) : List Item := (trimmedLines content).map item

theorem trimmedLines_append {a : Text} (ha : a.LineComplete) (b : Text) :
    trimmedLines (a ++ b) = trimmedLines a ++ trimmedLines b := by
  rw [trimmedLines, Text.lines_append ha, List.map_append]
  rfl

theorem items_append {a : Text} (ha : a.LineComplete) (b : Text) :
    items (a ++ b) = items a ++ items b := by
  rw [items, trimmedLines_append ha, List.map_append]
  rfl

/-- The fields of a lease. -/
inductive Field where
  | ipAddress
  | hwAddress
  | name

/-- How the lines of the field begin. -/
def Field.key : Field → String
  | .ipAddress => "ip_address="
  | .hwAddress => "hw_address="
  | .name => "name="

/-- The value that a line gives for the field. -/
def Item.value : Field → Item → Option Text
  | .ipAddress, .ip value => some value
  | .hwAddress, .hw value => some value
  | .name, .name value => some value
  | _, _ => none

/-- A line gives a value for the field whose key it begins with. -/
theorem key_prefix_iff {f : Field} {line : Text} :
    f.key.toList <+: line ↔ ((item line).value f).isSome = true := by
  constructor
  · rintro ⟨val, rfl⟩
    cases f with
    | ipAddress =>
        rw [Field.key, item_ip]
        rfl
    | hwAddress =>
        rw [Field.key, item_hwAddress]
        rfl
    | name =>
        rw [Field.key, item_name]
        rfl
  · intro h
    rcases item_cases line with ⟨-, hitem⟩ | ⟨value, rfl, hitem⟩ |
      ⟨value, rfl, hitem⟩ | ⟨value, rfl, hitem⟩ | ⟨hitem, -⟩
    · rw [hitem] at h
      cases f <;> cases h
    · rw [hitem] at h
      cases f with
      | ipAddress => exact List.prefix_append _ _
      | hwAddress => cases h
      | name => cases h
    · rw [hitem] at h
      cases f with
      | ipAddress => cases h
      | hwAddress => exact List.prefix_append _ _
      | name => cases h
    · rw [hitem] at h
      cases f with
      | ipAddress => cases h
      | hwAddress => cases h
      | name => exact List.prefix_append _ _
    · rw [hitem] at h
      cases f <;> cases h

/-! ## The leases of the stretches -/

/-- Whether the line closes a stretch. -/
def Item.closes (i : Item) : Bool := decide (i = .close)

/-- The closed stretches of the file. -/
def stretches (content : Text) : List (List Item × Item) :=
  closed Item.closes (items content)

/-- The closed stretches of the trimmed lines. -/
def lineStretches (content : Text) : List (List Text × Text) :=
  closed (fun line => decide (line = "\x7d".toList)) (trimmedLines content)

theorem stretches_eq_map (content : Text) :
    stretches content =
      (lineStretches content).map fun s => (s.1.map item, item s.2) := by
  have hcloses : Item.closes ∘ item =
      fun line => decide (line = "\x7d".toList) := by
    funext line
    exact decide_eq_decide.mpr item_eq_close_iff
  rw [lineStretches, ← hcloses]
  exact closedFrom_map item [] (trimmedLines content)

/-- The lease that these values make, when both addresses are there. -/
def leaseOfValues (v : Field → Option Text) : Option DhcpLease :=
  match v .ipAddress, v .hwAddress with
  | some ip, some hw => some ⟨ip, hw, v .name⟩
  | _, _ => none

/-- The lease of a closed stretch: the values given last in it. -/
def leaseOfStretch (stretch : List Item) : Option DhcpLease :=
  leaseOfValues fun f => lastValue (Item.value f) stretch

/-- The value carried for the field. -/
def Scan.carried : Field → Scan → Option Text
  | .ipAddress, s => s.currentIp
  | .hwAddress, s => s.currentHw
  | .name, s => s.currentName

/-- A line within a stretch adds what it says. -/
theorem Scan.apply_spec (s : Scan) {i : Item} (hi : i.closes = false) :
    (∀ f, (s.apply i).carried f = (i.value f).or (s.carried f)) ∧
      (s.apply i).leases = s.leases := by
  cases i with
  | close => cases hi
  | ip value => exact ⟨fun f => by cases f <;> rfl, rfl⟩
  | hw value => exact ⟨fun f => by cases f <;> rfl, rfl⟩
  | name value => exact ⟨fun f => by cases f <;> rfl, rfl⟩
  | other => exact ⟨fun f => by cases f <;> rfl, rfl⟩

/-- Closing adds the lease of the carried values, and carries nothing on. -/
theorem Scan.close_spec (s : Scan) :
    (∀ f, s.close.carried f = none) ∧
      s.close.leases =
        s.leases ++ (leaseOfValues fun f => s.carried f).toList := by
  obtain ⟨leases, ip, hw, name⟩ := s
  cases ip with
  | none => exact ⟨fun f => by cases f <;> rfl, (List.append_nil _).symm⟩
  | some ip =>
      cases hw with
      | none => exact ⟨fun f => by cases f <;> rfl, (List.append_nil _).symm⟩
      | some hw => exact ⟨fun f => by cases f <;> rfl, rfl⟩

/-- **The leases of a file** are those of its closed stretches. -/
theorem parseLeases_eq_stretches (content : Text) :
    parseLeases content =
      (stretches content).filterMap fun s => leaseOfStretch s.1 := by
  have hclose : ∀ s i, i.closes = true →
      (∀ f, (Scan.apply s i).carried f = none) ∧
        (s.apply i).leases =
          s.leases ++ (leaseOfValues fun f => s.carried f).toList := by
    intro s i hi
    obtain rfl := of_decide_eq_true hi
    exact s.close_spec
  have hstart : ∀ f, Scan.start.carried f = none := fun f => by
    cases f <;> rfl
  have hitems : (content.lines.map fun line => item line.trim) =
      items content := by
    rw [items, trimmedLines, List.map_map]
    rfl
  rw [parseLeases_eq, hitems]
  exact foldl_registers Scan.leases Scan.carried Item.value
    (fun v _ => leaseOfValues v) (fun s _ hi => s.apply_spec hi) hclose hstart
    (items content)

/-! ## Restarting behind a closing line -/

/-- A text of complete lines the last of which trims to `}`. -/
def EndsClosed (t : Text) : Prop :=
  ∃ a c, a.LineComplete ∧ '\n' ∉ c ∧ c.trim = "\x7d".toList ∧
    t = a ++ c ++ ['\n']

/-- No line of the text gives the field. -/
def Lacks (f : Field) (t : Text) : Prop :=
  ∀ line ∈ trimmedLines t, ¬ f.key.toList <+: line

theorem items_closing {c : Text} (hline : '\n' ∉ c)
    (hc : c.trim = "\x7d".toList) : items (c ++ ['\n']) = [.close] := by
  rw [items, trimmedLines, Text.lines_append_cons hline, List.map_cons,
    Text.trim_stripCarriageReturn, List.map_cons, item_eq_close_iff.mpr hc]
  rfl

theorem EndsClosed.lineComplete {t : Text} (ht : EndsClosed t) :
    t.LineComplete := by
  obtain ⟨a, c, -, -, -, rfl⟩ := ht
  intro d hd
  rw [List.getLast?_concat] at hd
  exact (Option.some.inj hd).symm

theorem EndsClosed.append {a t : Text} (ha : a.LineComplete)
    (ht : EndsClosed t) : EndsClosed (a ++ t) := by
  obtain ⟨d, c, hd, hline, hc, rfl⟩ := ht
  refine ⟨a ++ d, c, ha.append hd, hline, hc, ?_⟩
  rw [List.append_assoc, List.append_assoc, List.append_assoc]

/-- Behind a text that ends closed the stretches start afresh. -/
theorem stretches_append {t : Text} (ht : EndsClosed t) (b : Text) :
    stretches (t ++ b) = stretches t ++ stretches b := by
  obtain ⟨a, c, ha, hline, hc, rfl⟩ := id ht
  have hitems : items (a ++ c ++ ['\n']) = items a ++ [.close] := by
    rw [List.append_assoc, items_append ha, items_closing hline hc]
  rw [stretches, items_append ht.lineComplete, hitems, List.append_assoc,
    List.singleton_append, closed, closedFrom_append_closing rfl, stretches,
    hitems]
  rfl

/-- Behind a text that ends closed parsing starts afresh. -/
theorem parseLeases_append {t : Text} (ht : EndsClosed t) (b : Text) :
    parseLeases (t ++ b) = parseLeases t ++ parseLeases b := by
  simp only [parseLeases_eq_stretches, stretches_append ht,
    List.filterMap_append]

/-- The leases of the first lines come first among the leases of the file. -/
theorem prefix_parseLeases {a : Text} (ha : a.LineComplete) (b : Text) :
    parseLeases a <+: parseLeases (a ++ b) := by
  rw [parseLeases_eq_stretches, parseLeases_eq_stretches, stretches, stretches,
    items_append ha]
  exact (prefix_closedFrom [] _ _).filterMap _

/-- The lines of a stretch are lines of the file. -/
theorem mem_items_of_mem_stretches {content : Text}
    {s : List Item × Item} (hs : s ∈ stretches content) :
    ∀ i ∈ s.1, i ∈ items content := by
  obtain ⟨before, after, hitems, -⟩ :=
    exists_of_mem_closedFrom (List.forall_mem_nil _) hs
  intro i hi
  rw [← List.nil_append (items content), hitems]
  simp [hi]

/-- A field that the text lacks has no value in its stretches. -/
theorem lastValue_eq_none {f : Field} {t : Text} (h : Lacks f t)
    {s : List Item × Item} (hs : s ∈ stretches t) :
    lastValue (Item.value f) s.1 = none := by
  rw [lastValue_eq_none_iff]
  intro i hi
  obtain ⟨line, hline, rfl⟩ :=
    List.mem_map.mp (mem_items_of_mem_stretches hs i hi)
  have hkey := h line hline
  rwa [key_prefix_iff, Option.not_isSome_iff_eq_none] at hkey

/-- Without lines for one of the addresses there are no leases. -/
theorem parseLeases_eq_nil {t : Text}
    (h : Lacks .ipAddress t ∨ Lacks .hwAddress t) : parseLeases t = [] := by
  rw [parseLeases_eq_stretches, List.filterMap_eq_nil_iff]
  intro s hs
  rw [leaseOfStretch, leaseOfValues]
  rcases h with hip | hhw
  · rw [lastValue_eq_none hip hs]
  · rw [lastValue_eq_none hhw hs]
    cases lastValue (Item.value .ipAddress) s.1 <;> rfl

/-- **Parsing restarts behind every closing line.**  A closed block adds its
own leases and changes none before or behind it; when it lacks an address, it
adds none.  The leases of the first lines of a file are the first leases of
the file. -/
theorem parseLeases_restarts :
    (∀ a c b : Text, a.LineComplete → '\n' ∉ c →
      c.trim = "\x7d".toList →
        parseLeases (a ++ c ++ ['\n'] ++ b) =
          parseLeases (a ++ c ++ ['\n']) ++ parseLeases b) ∧
    (∀ a s b : Text, a.LineComplete → EndsClosed s →
      ∃ added, parseLeases (a ++ s ++ b) =
        parseLeases a ++ added ++ parseLeases b) ∧
    (∀ a s b : Text, a = [] ∨ EndsClosed a → EndsClosed s →
      parseLeases (a ++ s ++ b) =
        parseLeases a ++ parseLeases s ++ parseLeases b) ∧
    (∀ a s b : Text, a = [] ∨ EndsClosed a → EndsClosed s →
      Lacks .ipAddress s ∨ Lacks .hwAddress s →
        parseLeases (a ++ s ++ b) = parseLeases (a ++ b)) ∧
    ∀ a b : Text, a.LineComplete →
      parseLeases a <+: parseLeases (a ++ b) := by
  have hblock : ∀ a s b : Text, a = [] ∨ EndsClosed a → EndsClosed s →
      parseLeases (a ++ s ++ b) =
        parseLeases a ++ parseLeases s ++ parseLeases b := by
    intro a s b ha hs
    rcases ha with rfl | ha
    · exact parseLeases_append hs b
    · rw [List.append_assoc, parseLeases_append ha, parseLeases_append hs,
        List.append_assoc]
  refine ⟨?_, ?_, hblock, ?_, fun a b ha => prefix_parseLeases ha b⟩
  · intro a c b ha hline hc
    exact parseLeases_append ⟨a, c, ha, hline, hc, rfl⟩ b
  · intro a s b ha hs
    obtain ⟨added, hadded⟩ := prefix_parseLeases ha s
    exact ⟨added, by rw [parseLeases_append (hs.append ha), hadded]⟩
  · intro a s b ha hs hlacks
    rw [hblock a s b ha hs, parseLeases_eq_nil hlacks, List.append_nil]
    rcases ha with rfl | ha
    · rfl
    · exact (parseLeases_append ha b).symm

/-- A block with both addresses. -/
def wholeBlock : Text :=
  "\x7b\nip_address=10.0.0.1\nhw_address=1,aa:bb\n\x7d\n".toList

/-- A block without `hw_address`. -/
def partialBlock : Text :=
  "\x7b\nname=minimal\nip_address=10.0.0.2\n\x7d\n".toList

theorem endsClosed_wholeBlock : EndsClosed wholeBlock :=
  ⟨"\x7b\nip_address=10.0.0.1\nhw_address=1,aa:bb\n".toList,
    "\x7d".toList, by decide, by decide, by decide, by decide⟩

theorem endsClosed_partialBlock : EndsClosed partialBlock :=
  ⟨"\x7b\nname=minimal\nip_address=10.0.0.2\n".toList,
    "\x7d".toList, by decide, by decide, by decide, by decide⟩

theorem parseLeases_restarts_partialBlock :
    parseLeases (wholeBlock ++ partialBlock ++ wholeBlock) =
      parseLeases (wholeBlock ++ wholeBlock) := by
  have hlacks : Lacks .hwAddress partialBlock := by
    unfold Lacks
    decide
  exact parseLeases_restarts.2.2.2.1 wholeBlock partialBlock wholeBlock
    (Or.inr endsClosed_wholeBlock) endsClosed_partialBlock (Or.inr hlacks)

end Dhcp
end Kasou
