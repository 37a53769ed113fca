import Kasou.MacAddress.Grammar

/-!
# The canonical text of a MAC address

An address has many accepted spellings.  `display` picks one of them: two
lowercase digits for each byte.  It is the only accepted text of that shape
that spells the address.
-/

namespace Kasou

/-! ## Pairs of lowercase digits -/

/-- The hexadecimal digits in lowercase. -/
def lowerHexDigits : Text := "0123456789abcdef".toList

namespace MacAddress

/-- Two lowercase hexadecimal digits. -/
def IsPair (g : Text) : Prop := g.length = 2 ∧ ∀ c ∈ g, c ∈ lowerHexDigits

/-- Six pairs of lowercase hexadecimal digits between colons. -/
def IsCanonical (t : Text) : Prop :=
  ∃ groups : List Text, groups.length = 6 ∧ (∀ g ∈ groups, IsPair g) ∧
    t = List.intercalate [':'] groups

theorem digitChar_mem {n : Nat} (h : n < 16) :
    Nat.digitChar n ∈ lowerHexDigits := by
  have hall : ∀ n ∈ List.range 16, Nat.digitChar n ∈ lowerHexDigits := by
    decide
  exact hall n (List.mem_range.mpr h)

theorem hexDigit_digitChar {n : Nat} (h : n < 16) :
    hexDigit (Nat.digitChar n) = some n := by
  have hall : ∀ n ∈ List.range 16, hexDigit (Nat.digitChar n) = some n := by
    decide
  exact hall n (List.mem_range.mpr h)

/-- A lowercase digit is the one that its value is written with. -/
theorem exists_digitChar {c : Char} (h : c ∈ lowerHexDigits) :
    ∃ n < 16, c = Nat.digitChar n := by
  have hdigits : lowerHexDigits = (List.range 16).map Nat.digitChar := by
    decide
  rw [hdigits] at h
  obtain ⟨n, hn, rfl⟩ := List.mem_map.mp h
  exact ⟨n, List.mem_range.mp hn, rfl⟩

theorem isPair_hexByte (b : UInt8) : IsPair (hexByte b) := by
  have hlt : b.toNat < 256 := b.toNat_lt
  refine ⟨rfl, ?_⟩
  intro c hc
  rcases List.mem_pair.mp hc with rfl | rfl
  · exact digitChar_mem (by omega)
  · exact digitChar_mem (by omega)

/-- Digits are read back with the value that they were written for. -/
theorem hexFrom_digitChar_pair {high low : Nat} (hhigh : high < 16)
    (hlow : low < 16) :
    hexFrom 0 [Nat.digitChar high, Nat.digitChar low] = high * 16 + low := by
  rw [hexFrom_cons, hexFrom_cons, hexDigit_digitChar hhigh,
    hexDigit_digitChar hlow, Option.getD_some, Option.getD_some, Nat.zero_mul,
    Nat.zero_add]
  rfl

theorem hexFrom_hexByte (b : UInt8) : hexFrom 0 (hexByte b) = b.toNat := by
  have hlt : b.toNat < 256 := b.toNat_lt
  rw [hexByte, hexFrom_digitChar_pair (by omega) (by omega)]
  omega

theorem IsPair.isGroup {g : Text} (h : IsPair g) : IsGroup g := by
  refine ⟨Or.inr h.1, ?_⟩
  intro c hc
  obtain ⟨n, hn, rfl⟩ := exists_digitChar (h.2 c hc)
  rw [hexDigit_digitChar hn, Option.isSome_some]

/-- A pair is how its own value is written. -/
theorem IsPair.hexByte_eq {g : Text} (h : IsPair g) :
    hexByte (UInt8.ofNat (hexFrom 0 g)) = g := by
  obtain ⟨c, d, rfl⟩ := List.length_eq_two.mp h.1
  obtain ⟨high, hhigh, rfl⟩ := exists_digitChar (h.2 c (by simp))
  obtain ⟨low, hlow, rfl⟩ := exists_digitChar (h.2 d (by simp))
  have hvalue : (UInt8.ofNat (high * 16 + low)).toNat = high * 16 + low := by
    rw [UInt8.toNat_ofNat']
    exact Nat.mod_eq_of_lt (by omega)
  have hdiv : (high * 16 + low) / 16 = high := by omega
  have hmod : (high * 16 + low) % 16 = low := by omega
  rw [hexFrom_digitChar_pair hhigh hlow, hexByte, hvalue, hdiv, hmod]

/-! ## The text of an address -/

/-- The text of an address is in the grammar. -/
theorem spells_display (m : MacAddress) : Spells (display m) m := by
  refine ⟨m.bytes.map hexByte, ?_, ?_, rfl, ?_⟩
  · rw [List.length_map, m.length_bytes]
  · exact List.forall_mem_map.mpr fun b _ => (isPair_hexByte b).isGroup
  · have hbyte : ∀ b, UInt8.ofNat (hexFrom 0 (hexByte b)) = b := by
      intro b
      rw [hexFrom_hexByte, UInt8.ofNat_toNat]
    rw [List.map_map]
    exact (List.map_id'' hbyte m.bytes).symm

/-- Parsing gives back the address that was written. -/
theorem parse_display (m : MacAddress) : parse (display m) = .ok m :=
  (spells_display m).parse

theorem isCanonical_display (m : MacAddress) : IsCanonical (display m) := by
  refine ⟨m.bytes.map hexByte, ?_, ?_, rfl⟩
  · rw [List.length_map, m.length_bytes]
  · exact List.forall_mem_map.mpr fun b _ => isPair_hexByte b

theorem IsCanonical.length_eq {t : Text} (h : IsCanonical t) :
    t.length = 17 := by
  obtain ⟨groups, hlen, hpairs, rfl⟩ := h
  have hne : groups ≠ [] := by
    rintro rfl
    cases hlen
  have hlength := Text.length_intercalate_succ ':' hne
    fun g hg => (hpairs g hg).1
  omega

theorem display_injective : Function.Injective display := by
  intro m m' h
  have hparse : parse (display m) = .ok m' := h ▸ parse_display m'
  rw [parse_display] at hparse
  exact Except.ok.inj hparse

/-- A canonical text that is read as an address is the text of that
address. -/
theorem IsCanonical.eq_display {t : Text} {m : MacAddress}
    (h : IsCanonical t) (hparse : parse t = .ok m) : t = display m := by
  obtain ⟨groups, hlen, hpairs, rfl⟩ := h
  have hspells : parse (List.intercalate [':'] groups) =
      .ok ⟨groups.map fun g => UInt8.ofNat (hexFrom 0 g),
        by rw [List.length_map, hlen]⟩ :=
    Spells.parse ⟨groups, hlen, fun g hg => (hpairs g hg).isGroup, rfl, rfl⟩
  obtain rfl := Except.ok.inj (hparse.symm.trans hspells)
  have hgroups : groups.map (fun g => hexByte (UInt8.ofNat (hexFrom 0 g))) =
      groups :=
    (List.map_congr_left fun g hg => (hpairs g hg).hexByte_eq).trans
      (List.map_id' groups)
  rw [display, List.map_map]
  exact congrArg (List.intercalate [':']) hgroups.symm

/-- Each address has one canonical text. -/
theorem eq_display_iff {t : Text} {m : MacAddress} :
    t = display m ↔ IsCanonical t ∧ parse t = .ok m := by
  constructor
  · rintro rfl
    exact ⟨isCanonical_display m, parse_display m⟩
  · rintro ⟨hcanonical, hparse⟩
    exact hcanonical.eq_display hparse

/-- **The text of an address round trips**, and it is a canonical form of all
spellings of the address. -/
theorem display_canonical :
    (∀ m : MacAddress, parse m.display = .ok m) ∧
      (∀ (s : Text) (m : MacAddress), parse s = .ok m →
        parse m.display = .ok m ∧ m.display.length = 17 ∧
          IsCanonical m.display) ∧
      ∀ (s s' : Text) (m m' : MacAddress), parse s = .ok m →
        parse s' = .ok m' →
          (m.display = m'.display ↔ parse s = parse s') := by
  refine ⟨parse_display, ?_, ?_⟩
  · intro s m _
    have hcanonical := isCanonical_display m
    exact ⟨parse_display m, hcanonical.length_eq, hcanonical⟩
  · intro s s' m m' hs hs'
    rw [hs, hs', display_injective.eq_iff]
    constructor
    · intro hm
      rw [hm]
    · intro hparse
      exact Except.ok.inj hparse

/-- The address that the tests of `MacAddress` read and write. -/
def testAddress : MacAddress where
  bytes := [0x5a, 0x94, 0xef, 0xab, 0xcd, 0x12]
  length_bytes := rfl

/-- Two spellings of one address have the canonical text of that address. -/
theorem testAddress_canonical :
    parse "5A:094:ef:AB:cd:12".toList = .ok testAddress ∧
      testAddress.display.length = 17 ∧
        IsCanonical "5a:94:ef:ab:cd:12".toList ∧
          parse "5A:094:ef:AB:cd:12".toList =
            parse "5a:94:ef:ab:cd:12".toList := by
  have hloose : parse "5A:094:ef:AB:cd:12".toList = .ok testAddress := by
    decide
  have hstrict : parse "5a:94:ef:ab:cd:12".toList = .ok testAddress := by
    decide
  obtain ⟨-, hlength, hcanonical⟩ := display_canonical.2.1 _ _ hloose
  exact ⟨hloose, hlength, hcanonical,
    (display_canonical.2.2 _ _ _ _ hloose hstrict).mp rfl⟩

end MacAddress

end Kasou
