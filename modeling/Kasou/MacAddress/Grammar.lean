import Kasou.Types

/-!
# The grammar of MAC addresses

`MacAddress::parse` is meant to read six groups of one or two hexadecimal
digits between colons.  The integer parser that it hands the groups to also
takes a plus sign and leading zeros, so the accepted texts are those of a
looser grammar.
-/

namespace Kasou

/-! ## Bytes in hexadecimal -/

/-- The value of hexadecimal digits, read behind the value `value`. -/
def hexFrom (value : Nat) (digits : Text) : Nat :=
  digits.foldl (fun value c => value * 16 + (hexDigit c).getD 0) value

/-- All characters are hexadecimal digits. -/
def AllHex (digits : Text) : Prop := ∀ c ∈ digits, (hexDigit c).isSome = true

theorem hexDigit_lt {c : Char} {digit : Nat} (h : hexDigit c = some digit) :
    digit < 16 := by
  have hrange : ∀ a b : Char, a ≤ c → c ≤ b →
      a.toNat ≤ c.toNat ∧ c.toNat ≤ b.toNat := fun a b ha hb => ⟨ha, hb⟩
  rw [hexDigit] at h
  split at h
  next hdigit =>
    obtain rfl := Option.some.inj h
    have hle := (hrange '0' '9' hdigit.1 hdigit.2).2
    rw [show '9'.toNat = '0'.toNat + 9 from rfl] at hle
    omega
  next =>
    split at h
    next hlower =>
      obtain rfl := Option.some.inj h
      have hle := (hrange 'a' 'f' hlower.1 hlower.2).2
      rw [show 'f'.toNat = 'a'.toNat + 5 from rfl] at hle
      omega
    next =>
      split at h
      next hupper =>
        obtain rfl := Option.some.inj h
        have hle := (hrange 'A' 'F' hupper.1 hupper.2).2
        rw [show 'F'.toNat = 'A'.toNat + 5 from rfl] at hle
        omega
      next => cases h

theorem hexFrom_cons (value : Nat) (c : Char) (digits : Text) :
    hexFrom value (c :: digits) =
      hexFrom (value * 16 + (hexDigit c).getD 0) digits := rfl

theorem le_hexFrom (value : Nat) (digits : Text) :
    value ≤ hexFrom value digits := by
  induction digits generalizing value with
  | nil => exact le_rfl
  | cons c digits ih =>
      have hle := ih (value * 16 + (hexDigit c).getD 0)
      rw [hexFrom_cons]
      omega

/-- Reading digits succeeds when the value stays within a byte. -/
theorem u8FromDigits_eq_some_iff {value byte : UInt8} {digits : Text} :
    u8FromDigits value digits = some byte ↔
      AllHex digits ∧ hexFrom value.toNat digits = byte.toNat := by
  induction digits generalizing value with
  | nil =>
      rw [u8FromDigits, Option.some_inj]
      exact ⟨fun h => ⟨nofun, congrArg _ h⟩, fun h => UInt8.toNat_inj.mp h.2⟩
  | cons c digits ih =>
      rw [u8FromDigits, hexFrom_cons, AllHex, List.forall_mem_cons]
      cases hdigit : hexDigit c with
      | none => simp
      | some digit =>
          dsimp only [Option.getD_some]
          by_cases hlt : value.toNat * 16 + digit < 256
          · have hvalue : (UInt8.ofNat (value.toNat * 16 + digit)).toNat =
                value.toNat * 16 + digit := by
              rw [UInt8.toNat_ofNat']
              exact Nat.mod_eq_of_lt hlt
            rw [if_pos hlt, ih, hvalue]
            simp [AllHex]
          · have hle := le_hexFrom (value.toNat * 16 + digit) digits
            have hbyte := byte.toNat_lt
            rw [if_neg hlt]
            constructor
            · intro h
              cases h
            · rintro ⟨-, heq⟩
              omega

/-! ## Groups -/

namespace MacAddress

/-- One or two hexadecimal digits. -/
def IsGroup (g : Text) : Prop :=
  (g.length = 1 ∨ g.length = 2) ∧ AllHex g

/-- The text without a plus sign at its start. -/
def unsigned (g : Text) : Text := (Text.stripPrefix ['+'] g).getD g

/-- Hexadecimal digits of the value of a byte, perhaps behind a plus sign. -/
def IsLooseGroup (g : Text) : Prop :=
  unsigned g ≠ [] ∧ AllHex (unsigned g) ∧ hexFrom 0 (unsigned g) < 256

/-- A plus sign, or more than two characters. -/
def HasExtra (g : Text) : Prop := ['+'] <+: g ∨ 2 < g.length

/-- The byte of a group. -/
def groupByte (g : Text) : UInt8 := UInt8.ofNat (hexFrom 0 (unsigned g))

theorem unsigned_plus (cs : Text) : unsigned ('+' :: cs) = cs := by
  have hrest : Text.stripPrefix ['+'] ('+' :: cs) = some cs :=
    Text.stripPrefix_append ['+'] cs
  rw [unsigned, hrest, Option.getD_some]

theorem unsigned_eq_self {g : Text} (h : ¬ ['+'] <+: g) : unsigned g = g := by
  rw [unsigned, Text.stripPrefix_eq_none_iff.mpr h, Option.getD_none]

theorem u8FromDigits_zero_eq_some_iff {byte : UInt8} {digits : Text} :
    u8FromDigits 0 digits = some byte ↔
      AllHex digits ∧ hexFrom 0 digits < 256 ∧
        byte = UInt8.ofNat (hexFrom 0 digits) := by
  rw [u8FromDigits_eq_some_iff, UInt8.toNat_zero]
  constructor
  · rintro ⟨hhex, hvalue⟩
    refine ⟨hhex, ?_, ?_⟩
    · rw [hvalue]
      exact byte.toNat_lt
    · rw [hvalue, UInt8.ofNat_toNat]
  · rintro ⟨hhex, hlt, rfl⟩
    refine ⟨hhex, ?_⟩
    rw [UInt8.toNat_ofNat']
    exact (Nat.mod_eq_of_lt hlt).symm

/-- The integer parser takes the groups of the looser grammar. -/
theorem u8FromStrRadix16_eq_some_iff {g : Text} {byte : UInt8} :
    u8FromStrRadix16 g = some byte ↔
      IsLooseGroup g ∧ byte = groupByte g := by
  rw [IsLooseGroup, groupByte]
  cases g with
  | nil =>
      constructor
      · intro h
        cases h
      · rintro ⟨⟨hne, -⟩, -⟩
        exact absurd rfl hne
  | cons c cs =>
      rw [u8FromStrRadix16_cons]
      by_cases hplus : c = '+'
      · subst hplus
        rw [if_pos rfl, unsigned_plus]
        by_cases hcs : cs = []
        · simp [hcs]
        · rw [if_neg hcs, u8FromDigits_zero_eq_some_iff]
          simp only [ne_eq, hcs, not_false_eq_true, true_and, and_assoc]
      · have hself : unsigned (c :: cs) = c :: cs := by
          refine unsigned_eq_self fun h => hplus ?_
          exact (List.cons_prefix_cons.mp h).1.symm
        rw [if_neg hplus, hself, u8FromDigits_zero_eq_some_iff]
        simp only [ne_eq, reduceCtorEq, not_false_eq_true, true_and,
          and_assoc]

/-! ## Addresses -/

/-- No group of hexadecimal digits has a colon. -/
theorem IsLooseGroup.colon_not_mem {g : Text} (h : IsLooseGroup g) :
    ':' ∉ g := by
  intro hcolon
  have hhex : ':' ∉ unsigned g := by
    intro hmem
    have hdigit := h.2.1 ':' hmem
    cases hdigit
  by_cases hplus : ['+'] <+: g
  · obtain ⟨cs, rfl⟩ := hplus
    rw [List.singleton_append, unsigned_plus] at hhex
    rcases List.mem_cons.mp hcolon with heq | hmem
    · cases heq
    · exact hhex hmem
  · rw [unsigned_eq_self hplus] at hhex
    exact hhex hcolon

/-- The groups are the parts between the colons. -/
theorem splitOn_eq_groups {s : Text} {groups : List Text}
    (hlen : groups.length = 6) (hloose : ∀ g ∈ groups, IsLooseGroup g)
    (hs : s = List.intercalate [':'] groups) : s.splitOn ':' = groups := by
  have hne : groups ≠ [] := by
    rintro rfl
    cases hlen
  exact (Text.eq_intercalate_iff hne fun g hg =>
    (hloose g hg).colon_not_mem).mp hs

/-- **The accepted texts**: `parse` reads six groups of the looser grammar
between colons. -/
theorem parse_eq_ok_iff_groups {s : Text} {m : MacAddress} :
    parse s = .ok m ↔ ∃ groups : List Text, groups.length = 6 ∧
      (∀ g ∈ groups, IsLooseGroup g) ∧ s = List.intercalate [':'] groups ∧
        m.bytes = groups.map groupByte := by
  have hmapM : ∀ (groups : List Text) (bytes : List UInt8),
      groups.mapM u8FromStrRadix16 = some bytes ↔
        (∀ g ∈ groups, IsLooseGroup g) ∧ bytes = groups.map groupByte :=
    fun _ _ => MapM.eq_some_iff_map fun g byte =>
      u8FromStrRadix16_eq_some_iff
  rw [parse_eq_ok_iff, parseBytes]
  constructor
  · intro h
    split at h
    next hlen =>
      obtain ⟨hloose, hbytes⟩ := (hmapM _ _).mp h
      exact ⟨_, hlen, hloose, (List.intercalate_splitOn ':').symm, hbytes⟩
    next => cases h
  · rintro ⟨groups, hlen, hloose, hs, hbytes⟩
    rw [splitOn_eq_groups hlen hloose hs, if_pos hlen]
    exact (hmapM _ _).mpr ⟨hloose, hbytes⟩

/-- `s` is six groups of one or two hexadecimal digits between colons, and the
bytes of `m` are their values. -/
def Spells (s : Text) (m : MacAddress) : Prop :=
  ∃ groups : List Text, groups.length = 6 ∧ (∀ g ∈ groups, IsGroup g) ∧
    s = List.intercalate [':'] groups ∧
      m.bytes = groups.map fun g => UInt8.ofNat (hexFrom 0 g)

theorem IsGroup.not_hasExtra {g : Text} (h : IsGroup g) : ¬ HasExtra g := by
  rintro (⟨cs, rfl⟩ | hlen)
  · have hdigit := h.2 '+' (List.mem_cons_self ..)
    cases hdigit
  · have hlength := h.1
    omega

theorem IsGroup.unsigned_eq {g : Text} (h : IsGroup g) : unsigned g = g :=
  unsigned_eq_self fun hplus => h.not_hasExtra (Or.inl hplus)

theorem getD_hexDigit_lt (c : Char) : (hexDigit c).getD 0 < 16 := by
  cases hdigit : hexDigit c with
  | none => decide
  | some digit => exact hexDigit_lt hdigit

/-- The value of a group fits in a byte. -/
theorem IsGroup.hexFrom_lt {g : Text} (h : IsGroup g) :
    hexFrom 0 g < 256 := by
  rcases h.1 with hone | htwo
  · obtain ⟨c, rfl⟩ := List.length_eq_one_iff.mp hone
    have hc := getD_hexDigit_lt c
    rw [hexFrom_cons, hexFrom, List.foldl_nil]
    omega
  · obtain ⟨c, d, rfl⟩ := List.length_eq_two.mp htwo
    have hc := getD_hexDigit_lt c
    have hd := getD_hexDigit_lt d
    rw [hexFrom_cons, hexFrom_cons, hexFrom, List.foldl_nil]
    omega

theorem IsGroup.isLooseGroup {g : Text} (h : IsGroup g) : IsLooseGroup g := by
  rw [IsLooseGroup, h.unsigned_eq]
  refine ⟨?_, h.2, h.hexFrom_lt⟩
  rintro rfl
  rcases h.1 with hlen | hlen <;> cases hlen

/-- A loose group without extras is a group. -/
theorem IsLooseGroup.isGroup {g : Text} (h : IsLooseGroup g)
    (hextra : ¬ HasExtra g) : IsGroup g := by
  rw [HasExtra, not_or] at hextra
  obtain ⟨hplus, hlen⟩ := hextra
  rw [IsLooseGroup, unsigned_eq_self hplus] at h
  have hpos : 0 < g.length := List.length_pos_of_ne_nil h.1
  exact ⟨by omega, h.2.1⟩

theorem IsGroup.groupByte_eq {g : Text} (h : IsGroup g) :
    groupByte g = UInt8.ofNat (hexFrom 0 g) := by
  rw [groupByte, h.unsigned_eq]

/-- A text that the grammar has is read as the address that it spells. -/
theorem Spells.parse {s : Text} {m : MacAddress} (h : Spells s m) :
    parse s = .ok m := by
  obtain ⟨groups, hlen, hgroups, hs, hbytes⟩ := h
  refine parse_eq_ok_iff_groups.mpr
    ⟨groups, hlen, fun g hg => (hgroups g hg).isLooseGroup, hs, ?_⟩
  rw [hbytes]
  exact List.map_congr_left fun g hg => (hgroups g hg).groupByte_eq.symm

/-- Parsing fails in one way. -/
theorem parse_eq_ok_or_error (s : Text) :
    (∃ m, parse s = .ok m) ∨ parse s = .error (.invalidMac s) := by
  rw [parse]
  split
  · exact Or.inr rfl
  · exact Or.inl ⟨_, rfl⟩

/-- **The parser accepts its grammar and nothing else** on a text exactly when
the text is not six loose groups of which one has a plus sign or more than two
characters. -/
theorem parse_grammar_iff (s : Text) :
    ((∀ m, parse s = .ok m ↔ Spells s m) ∧
        ((∀ m, ¬ Spells s m) → parse s = .error (.invalidMac s))) ↔
      ¬ ∃ groups : List Text, groups.length = 6 ∧
        (∀ g ∈ groups, IsLooseGroup g) ∧ (∃ g ∈ groups, HasExtra g) ∧
          s = List.intercalate [':'] groups := by
  constructor
  · rintro ⟨hok, -⟩ ⟨groups, hlen, hloose, ⟨g, hg, hextra⟩, hs⟩
    have hparse : MacAddress.parse s = .ok
        ⟨groups.map groupByte, by rw [List.length_map, hlen]⟩ :=
      parse_eq_ok_iff_groups.mpr ⟨groups, hlen, hloose, hs, rfl⟩
    obtain ⟨groups', hlen', hgroups, hs', -⟩ := (hok _).mp hparse
    have hsame : groups' = groups :=
      (splitOn_eq_groups hlen' (fun g hg => (hgroups g hg).isLooseGroup)
        hs').symm.trans (splitOn_eq_groups hlen hloose hs)
    rw [hsame] at hgroups
    exact (hgroups g hg).not_hasExtra hextra
  · intro hnone
    have hok : ∀ m, MacAddress.parse s = .ok m ↔ Spells s m := by
      intro m
      refine ⟨fun hparse => ?_, Spells.parse⟩
      obtain ⟨groups, hlen, hloose, hs, hbytes⟩ :=
        parse_eq_ok_iff_groups.mp hparse
      have hgroups : ∀ g ∈ groups, IsGroup g := fun g hg =>
        (hloose g hg).isGroup fun hextra =>
          hnone ⟨groups, hlen, hloose, ⟨g, hg, hextra⟩, hs⟩
      refine ⟨groups, hlen, hgroups, hs, hbytes.trans ?_⟩
      exact List.map_congr_left fun g hg => (hgroups g hg).groupByte_eq
    refine ⟨hok, fun hspells => ?_⟩
    rcases parse_eq_ok_or_error s with ⟨m, hm⟩ | herror
    · exact absurd ((hok m).mp hm) (hspells m)
    · exact herror

/-- A plus sign in place of a digit is accepted. -/
theorem parse_plus_sign :
    (∀ m, ¬ Spells "+5:94:ef:ab:cd:12".toList m) ∧
      parse "+5:94:ef:ab:cd:12".toList =
        .ok ⟨[0x05, 0x94, 0xef, 0xab, 0xcd, 0x12], rfl⟩ := by
  have hsplit : "+5:94:ef:ab:cd:12".toList.splitOn ':' =
      ["+5".toList, "94".toList, "ef".toList, "ab".toList, "cd".toList,
        "12".toList] := by decide
  refine ⟨?_, by decide⟩
  rintro m ⟨groups, hlen, hgroups, hs, -⟩
  have hparts := splitOn_eq_groups hlen
    (fun g hg => (hgroups g hg).isLooseGroup) hs
  rw [← hparts, hsplit] at hgroups
  have hdigit := (hgroups "+5".toList (List.mem_cons_self ..)).2 '+'
    (by decide)
  cases hdigit

end MacAddress

end Kasou
