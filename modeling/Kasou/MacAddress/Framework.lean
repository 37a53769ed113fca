import Kasou.Config.Build
import Kasou.Dhcp.Lookup
import Kasou.MacAddress.Canonical

/-!
# The addresses that the framework accepts

`VZMACAddress` reads six pairs of hexadecimal digits.  These texts are the
canonical ones up to case, so the framework accepts every address that the
crate writes, and the crate reads every text that the framework accepts.
-/

namespace Kasou
namespace MacAddress

/-- A hexadecimal digit in lower case. -/
theorem toLower_mem_lowerHexDigits {c : Char}
    (h : (hexDigit c).isSome = true) : c.toLower ∈ lowerHexDigits := by
  have hascii : c.toNat < 128 := (IsMacChar.ascii (Or.inr (Or.inr h))).1
  have hall : ∀ n < 128, (hexDigit (Char.ofNat n)).isSome = true →
      (Char.ofNat n).toLower ∈ lowerHexDigits := by
    decide
  rw [← Char.ofNat_toNat c] at h ⊢
  exact hall c.toNat hascii h

/-- A text that the framework takes for an address is in the crate's grammar,
and it is the text of its address up to case. -/
theorem parse_of_isMacText {s : Text} (h : isMacText s = true) :
    ∃ m, parse s = .ok m ∧ s.map Char.toLower = m.display := by
  rw [isMacText, Bool.and_eq_true, beq_iff_eq, List.all_eq_true] at h
  obtain ⟨hlength, hgroups⟩ := h
  have hcanonical : IsCanonical (s.map Char.toLower) := by
    refine ⟨(s.map Char.toLower).splitOn ':', ?_, ?_,
      (List.intercalate_splitOn ':').symm⟩
    · rw [splitOn_map_toLower, List.length_map, hlength]
    · intro g hg
      rw [splitOn_map_toLower] at hg
      obtain ⟨group, hgroup, rfl⟩ := List.mem_map.mp hg
      have hpair := hgroups group hgroup
      rw [Bool.and_eq_true, beq_iff_eq, List.all_eq_true] at hpair
      refine ⟨(List.length_map _).trans hpair.1, ?_⟩
      intro c hc
      obtain ⟨d, hd, rfl⟩ := List.mem_map.mp hc
      exact toLower_mem_lowerHexDigits (hpair.2 d hd)
  obtain ⟨groups, hlen, hpairs, htext⟩ := id hcanonical
  have hlower : parse (s.map Char.toLower) =
      .ok ⟨groups.map fun g => UInt8.ofNat (hexFrom 0 g),
        by rw [List.length_map, hlen]⟩ :=
    Spells.parse ⟨groups, hlen, fun g hg => (hpairs g hg).isGroup, htext, rfl⟩
  refine ⟨_, ?_, hcanonical.eq_display hlower⟩
  rw [parse_eq_ok_iff] at hlower ⊢
  rwa [parseBytes_map_toLower] at hlower

/-- A character whose lower case is a lowercase digit is a digit. -/
theorem isSome_hexDigit_of_toLower {c : Char}
    (h : c.toLower ∈ lowerHexDigits) : (hexDigit c).isSome = true := by
  obtain ⟨n, hn, heq⟩ := exists_digitChar h
  rw [← hexDigit_toLower, heq, hexDigit_digitChar hn, Option.isSome_some]

/-- The parts of a canonical text are six pairs of digits. -/
theorem splitOn_display (m : MacAddress) :
    (m.display.splitOn ':').length = 6 ∧
      ∀ g ∈ m.display.splitOn ':', IsPair g := by
  obtain ⟨groups, hlen, hpairs, htext⟩ := isCanonical_display m
  have hne : groups ≠ [] := by
    rintro rfl
    cases hlen
  have hsplit : m.display.splitOn ':' = groups := by
    rw [htext]
    exact List.splitOn_intercalate ':'
      (fun g hg => (hpairs g hg).isGroup.isLooseGroup.colon_not_mem) hne
  rw [hsplit]
  exact ⟨hlen, hpairs⟩

/-- **The framework takes the canonical texts, up to case.** -/
theorem isMacText_iff {s : Text} :
    isMacText s = true ↔
      ∃ m, parse s = .ok m ∧ s.map Char.toLower = m.display := by
  constructor
  · exact parse_of_isMacText
  · rintro ⟨m, -, hlower⟩
    obtain ⟨hlen, hpairs⟩ := splitOn_display m
    rw [← hlower, splitOn_map_toLower] at hlen hpairs
    rw [List.length_map] at hlen
    rw [List.forall_mem_map] at hpairs
    rw [isMacText, Bool.and_eq_true, beq_iff_eq, List.all_eq_true]
    refine ⟨hlen, ?_⟩
    intro part hpart
    obtain ⟨htwo, hdigits⟩ := hpairs part hpart
    rw [List.length_map] at htwo
    rw [Bool.and_eq_true, beq_iff_eq, List.all_eq_true]
    refine ⟨htwo, ?_⟩
    intro c hc
    exact isSome_hexDigit_of_toLower
      (hdigits _ (List.mem_map_of_mem hc))

/-- The canonical text is in lower case. -/
theorem map_toLower_display (m : MacAddress) :
    m.display.map Char.toLower = m.display := by
  have hall : lowerHexDigits.all (fun c => c.toLower == c) = true := by
    decide
  have hfixed : ∀ c ∈ lowerHexDigits, c.toLower = c := fun c hc =>
    beq_iff_eq.mp (List.all_eq_true.mp hall c hc)
  refine (List.map_congr_left ?_).trans (List.map_id _)
  intro c hc
  rcases mem_splitOn_of_mem hc with rfl | ⟨part, hpart, hin⟩
  · rfl
  · exact hfixed c (((splitOn_display m).2 part hpart).2 c hin)

/-! ## Deterministic addresses -/

/-- A byte of a hash. -/
theorem toNat_toUInt8_shiftRight (x k : UInt64) (hk : k.toNat < 64) :
    (x >>> k).toUInt8.toNat = x.toNat >>> k.toNat % 256 := by
  rw [UInt64.toNat_toUInt8, UInt64.toNat_shiftRight, Nat.mod_eq_of_lt hk]

/-- The lowest 24 bits of a hash. -/
theorem toNat_and_lowBits (x : UInt64) :
    (x &&& 0xffffff).toNat = x.toNat % 16777216 := by
  rw [UInt64.toNat_and]
  exact Nat.and_two_pow_sub_one_eq_mod x.toNat 24

/-- Three bytes hold the lowest 24 bits of a hash. -/
theorem low_bytes_eq_iff {x y : UInt64} :
    (x.toUInt8 = y.toUInt8 ∧ (x >>> 8).toUInt8 = (y >>> 8).toUInt8 ∧
      (x >>> 16).toUInt8 = (y >>> 16).toUInt8) ↔
      x &&& 0xffffff = y &&& 0xffffff := by
  have hlow : ∀ z : UInt64, z.toUInt8.toNat = z.toNat % 256 :=
    UInt64.toNat_toUInt8
  have hmiddle : ∀ z : UInt64,
      (z >>> 8).toUInt8.toNat = z.toNat / 256 % 256 := fun z =>
    (toNat_toUInt8_shiftRight z 8 (by decide)).trans
      (congrArg (· % 256) (Nat.shiftRight_eq_div_pow z.toNat 8))
  have hhigh : ∀ z : UInt64,
      (z >>> 16).toUInt8.toNat = z.toNat / 65536 % 256 := fun z =>
    (toNat_toUInt8_shiftRight z 16 (by decide)).trans
      (congrArg (· % 256) (Nat.shiftRight_eq_div_pow z.toNat 16))
  rw [← UInt8.toNat_inj, ← UInt8.toNat_inj, ← UInt8.toNat_inj,
    ← UInt64.toNat_inj, hlow, hlow, hmiddle, hmiddle, hhigh, hhigh,
    toNat_and_lowBits, toNat_and_lowBits]
  omega

theorem deterministic_eq_iff {hasher : Text → Text → UInt64}
    {seed uniqueId seed' uniqueId' : Text} :
    deterministic hasher seed uniqueId =
        deterministic hasher seed' uniqueId' ↔
      hasher seed uniqueId &&& 0xffffff =
        hasher seed' uniqueId' &&& 0xffffff := by
  rw [← low_bytes_eq_iff, deterministic, deterministic, MacAddress.mk.injEq]
  simp only [List.cons.injEq, and_true, true_and]

/-- **Deterministic addresses are good ones.**  Whatever the hash function,
the framework accepts the text of every deterministic address, the crate reads
it back, and it begins with the locally administered prefix; and the addresses
of two machines are the same exactly when their hashes agree in the lowest 24
bits. -/
theorem deterministic_accepted (hasher : Text → Text → UInt64) :
    (∀ seed uniqueId,
      isMacText (deterministic hasher seed uniqueId).display = true ∧
        parse (deterministic hasher seed uniqueId).display =
          .ok (deterministic hasher seed uniqueId) ∧
        "52:55:55:".toList <+:
          (deterministic hasher seed uniqueId).display) ∧
    ∀ seed uniqueId seed' uniqueId',
      (deterministic hasher seed uniqueId).display =
          (deterministic hasher seed' uniqueId').display ↔
        hasher seed uniqueId &&& 0xffffff =
          hasher seed' uniqueId' &&& 0xffffff := by
  constructor
  · intro seed uniqueId
    exact ⟨isMacText_iff.mpr ⟨_, parse_display _, map_toLower_display _⟩,
      parse_display _, _, rfl⟩
  · intro seed uniqueId seed' uniqueId'
    rw [display_injective.eq_iff, deterministic_eq_iff]

end MacAddress
end Kasou
