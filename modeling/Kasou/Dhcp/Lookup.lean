import Kasou.Dhcp.Leases
import Kasou.Types

/-!
# Looking up a lease by MAC address

`find_lease_by_mac` compares addresses as lower-cased texts, while
`MacAddress::parse` reads them as numbers and accepts several spellings of one
address: octets with or without leading zeros, or with a plus sign.  Texts
that agree up to case are read as the same address, so the lookup finds no
wrong lease; it misses the leases that spell the address otherwise.
-/

namespace Kasou

/-! ## Lower case -/

/-- The lower-case mappings of the characters outside ASCII.  A mapping may
depend on the characters around it (final sigma).  The only ASCII characters
in a mapping are those of `İ` and of the Kelvin sign. -/
structure LowercaseTable where
  mapping : (before : Text) → Char → (after : Text) → Text
  mapping_ne_nil : ∀ before c after, mapping before c after ≠ []
  ascii_of_mapping : ∀ before c after, 128 ≤ c.toNat →
    ∀ d ∈ mapping before c after, d.toNat < 128 → d = 'i' ∨ d = 'k'

namespace LowercaseTable

/-- The lower case of what follows `before`. -/
def lowercaseFrom (table : LowercaseTable) (before : Text) : Text → Text
  | [] => []
  | c :: after =>
      (if c.toNat < 128 then [c.toLower] else table.mapping before c after) ++
        lowercaseFrom table (before ++ [c]) after

/-- `str::to_lowercase`. -/
def toLowercase (table : LowercaseTable) (s : Text) : Text :=
  table.lowercaseFrom [] s

theorem lowercaseFrom_eq_map {table : LowercaseTable} {s : Text}
    (hascii : ∀ c ∈ s, c.toNat < 128) (before : Text) :
    table.lowercaseFrom before s = s.map Char.toLower := by
  induction s generalizing before with
  | nil => rfl
  | cons c s ih =>
      rw [List.forall_mem_cons] at hascii
      rw [lowercaseFrom, if_pos hascii.1, ih hascii.2]
      rfl

/-- The lower case of an ASCII text. -/
theorem toLowercase_eq_map {table : LowercaseTable} {s : Text}
    (hascii : ∀ c ∈ s, c.toNat < 128) :
    table.toLowercase s = s.map Char.toLower :=
  lowercaseFrom_eq_map hascii []

theorem ascii_of_lowercaseFrom {table : LowercaseTable} {s before : Text}
    (h : ∀ d ∈ table.lowercaseFrom before s,
      d.toNat < 128 ∧ d ≠ 'i' ∧ d ≠ 'k') :
    ∀ c ∈ s, c.toNat < 128 := by
  induction s generalizing before with
  | nil => nofun
  | cons c s ih =>
      simp only [lowercaseFrom, List.mem_append] at h
      refine List.forall_mem_cons.mpr ⟨?_, ih fun d hd => h d (Or.inr hd)⟩
      by_contra hc
      obtain ⟨d, hd⟩ := List.exists_mem_of_ne_nil _
        (table.mapping_ne_nil before c s)
      obtain ⟨hascii, hi, hk⟩ := h d (Or.inl (by rwa [if_neg hc]))
      rcases table.ascii_of_mapping before c s (not_lt.mp hc) d hd hascii with
        rfl | rfl
      · exact hi rfl
      · exact hk rfl

/-- A text whose lower case is ASCII, and has no `i` and no `k`, is ASCII. -/
theorem ascii_of_toLowercase {table : LowercaseTable} {s : Text}
    (h : ∀ d ∈ table.toLowercase s, d.toNat < 128 ∧ d ≠ 'i' ∧ d ≠ 'k') :
    ∀ c ∈ s, c.toNat < 128 :=
  ascii_of_lowercaseFrom h

end LowercaseTable

/-! ## Addresses that differ in case -/

/-- Lower-casing changes the letters `A` to `Z` only. -/
theorem toLower_cases (c : Char) :
    c.toLower = c ∨ ∃ n, 65 ≤ n ∧ n < 91 ∧ c = Char.ofNat n := by
  by_cases hupper : c.val ≥ 'A'.val ∧ c.val ≤ 'Z'.val
  · exact Or.inr ⟨c.toNat, hupper.1, Nat.lt_succ_of_le hupper.2,
      (Char.ofNat_toNat c).symm⟩
  · exact Or.inl (dif_neg hupper)

theorem hexDigit_toLower (c : Char) : hexDigit c.toLower = hexDigit c := by
  rcases toLower_cases c with h | ⟨n, hlow, hhigh, rfl⟩
  · rw [h]
  · have hall : ∀ n < 91, 65 ≤ n →
        hexDigit (Char.ofNat n).toLower = hexDigit (Char.ofNat n) := by
      decide
    exact hall n hhigh hlow

/-- Lower-casing neither makes nor removes a character that is no letter. -/
theorem toLower_eq_iff {c sep : Char} (hsep : sep = ':' ∨ sep = '+') :
    c.toLower = sep ↔ c = sep := by
  rcases toLower_cases c with h | ⟨n, hlow, hhigh, rfl⟩
  · rw [h]
  · have hall : ∀ n < 91, 65 ≤ n → (Char.ofNat n).toLower ≠ ':' ∧
        (Char.ofNat n).toLower ≠ '+' ∧ Char.ofNat n ≠ ':' ∧
          Char.ofNat n ≠ '+' := by
      decide
    obtain ⟨hcolon, hplus, hcolon', hplus'⟩ := hall n hhigh hlow
    rcases hsep with rfl | rfl
    · exact iff_of_false hcolon hcolon'
    · exact iff_of_false hplus hplus'

theorem u8FromDigits_map_toLower (value : UInt8) (cs : Text) :
    u8FromDigits value (cs.map Char.toLower) = u8FromDigits value cs := by
  induction cs generalizing value with
  | nil => rfl
  | cons c cs ih =>
      rw [List.map_cons, u8FromDigits, u8FromDigits, hexDigit_toLower]
      split
      · rfl
      · split
        · exact ih _
        · rfl

theorem u8FromStrRadix16_map_toLower (part : Text) :
    u8FromStrRadix16 (part.map Char.toLower) = u8FromStrRadix16 part := by
  cases part with
  | nil => rfl
  | cons c cs =>
      have hplus : c.toLower = '+' ↔ c = '+' := toLower_eq_iff (Or.inr rfl)
      have hdigits := u8FromDigits_map_toLower 0 (c :: cs)
      rw [List.map_cons] at hdigits
      rw [List.map_cons, u8FromStrRadix16_cons, u8FromStrRadix16_cons, hdigits,
        u8FromDigits_map_toLower]
      simp only [hplus, List.map_eq_nil_iff]

theorem splitOn_map_toLower (s : Text) :
    (s.map Char.toLower).splitOn ':' =
      (s.splitOn ':').map fun part => part.map Char.toLower := by
  induction s with
  | nil => rfl
  | cons c s ih =>
      have hcolon : (c.toLower == ':') = (c == ':') := by
        rw [Bool.eq_iff_iff, beq_iff_eq, beq_iff_eq]
        exact toLower_eq_iff (Or.inl rfl)
      rw [List.map_cons, List.splitOn_cons_eq_if_modifyHead,
        List.splitOn_cons_eq_if_modifyHead, hcolon, ih]
      split
      · rfl
      · cases s.splitOn ':' with
        | nil => rfl
        | cons part parts => rfl

namespace MacAddress

/-- Parsing does not depend on the case of letters. -/
theorem parseBytes_map_toLower (s : Text) :
    parseBytes (s.map Char.toLower) = parseBytes s := by
  simp only [parseBytes, splitOn_map_toLower, List.length_map, List.mapM_map]
  congr 2
  funext part
  exact u8FromStrRadix16_map_toLower part

/-- The characters of a text that parses. -/
def IsMacChar (c : Char) : Prop :=
  c = ':' ∨ c = '+' ∨ (hexDigit c).isSome = true

theorem isMacChar_of_u8FromDigits {value byte : UInt8} {cs : Text}
    (h : u8FromDigits value cs = some byte) :
    ∀ c ∈ cs, (hexDigit c).isSome = true := by
  induction cs generalizing value with
  | nil => nofun
  | cons c cs ih =>
      rw [u8FromDigits] at h
      split at h
      · cases h
      next digit hdigit =>
        split at h
        · exact List.forall_mem_cons.mpr ⟨by rw [hdigit]; rfl, ih h⟩
        · cases h

theorem isMacChar_of_u8FromStrRadix16 {byte : UInt8} {part : Text}
    (h : u8FromStrRadix16 part = some byte) : ∀ c ∈ part, IsMacChar c := by
  cases part with
  | nil => nofun
  | cons c cs =>
      rw [u8FromStrRadix16_cons] at h
      split at h
      next hplus =>
        split at h
        · cases h
        · exact List.forall_mem_cons.mpr ⟨Or.inr (Or.inl hplus),
            fun d hd => Or.inr (Or.inr (isMacChar_of_u8FromDigits h d hd))⟩
      · exact fun d hd => Or.inr (Or.inr (isMacChar_of_u8FromDigits h d hd))

theorem mem_splitOn_of_mem {s : Text} {c : Char} (hc : c ∈ s) :
    c = ':' ∨ ∃ part ∈ s.splitOn ':', c ∈ part := by
  induction s with
  | nil => cases hc
  | cons d s ih =>
      rw [List.splitOn_cons_eq_if_modifyHead]
      by_cases hd : (d == ':') = true
      · rw [if_pos hd]
        rcases List.mem_cons.mp hc with rfl | hmem
        · exact Or.inl (beq_iff_eq.mp hd)
        · exact (ih hmem).imp_right fun ⟨part, hpart, hin⟩ =>
            ⟨part, List.mem_cons_of_mem _ hpart, hin⟩
      · rw [if_neg hd]
        -- the character goes to the head of the first part
        obtain ⟨first, rest, hsplit⟩ :=
          List.exists_cons_of_ne_nil (List.splitOn_ne_nil ':' s)
        rw [hsplit] at ih ⊢
        rcases List.mem_cons.mp hc with rfl | hmem
        · exact Or.inr ⟨c :: first, List.mem_cons_self .., List.mem_cons_self ..⟩
        · refine (ih hmem).imp_right fun ⟨part, hpart, hin⟩ => ?_
          rcases List.mem_cons.mp hpart with rfl | hrest
          · exact ⟨d :: part, List.mem_cons_self .., List.mem_cons_of_mem _ hin⟩
          · exact ⟨part, List.mem_cons_of_mem _ hrest, hin⟩

theorem isMacChar_of_parseBytes {s : Text} {bytes : List UInt8}
    (h : parseBytes s = some bytes) : ∀ c ∈ s, IsMacChar c := by
  rw [parseBytes] at h
  split at h
  · intro c hc
    rcases mem_splitOn_of_mem hc with rfl | ⟨part, hpart, hin⟩
    · exact Or.inl rfl
    · obtain ⟨byte, hbyte⟩ := MapM.exists_of_mem h part hpart
      exact isMacChar_of_u8FromStrRadix16 hbyte c hin
  · cases h

theorem IsMacChar.ascii {c : Char} (h : IsMacChar c) :
    c.toNat < 128 ∧ c ≠ 'i' ∧ c ≠ 'k' := by
  rcases h with rfl | rfl | hdigit
  · decide
  · decide
  · refine ⟨?_, ?_, ?_⟩
    · by_contra hc
      have hbig : ∀ d : Char, d.toNat < 128 → ¬ c ≤ d := by
        intro d hd hle
        have hle : c.toNat ≤ d.toNat := hle
        omega
      simp [hexDigit, hbig] at hdigit
    · rintro rfl
      cases hdigit
    · rintro rfl
      cases hdigit

/-- A text that agrees up to case with one that parses is read as the same
address. -/
theorem parse_of_toLowercase_eq {table : LowercaseTable} {s mac : Text}
    {m : MacAddress} (hmac : parse mac = .ok m)
    (h : table.toLowercase s = table.toLowercase mac) : parse s = .ok m := by
  rw [parse_eq_ok_iff] at hmac ⊢
  have hchars := isMacChar_of_parseBytes hmac
  have hascii : ∀ c ∈ mac, c.toNat < 128 := fun c hc => (hchars c hc).ascii.1
  have hlower : table.toLowercase mac = mac.map Char.toLower :=
    LowercaseTable.toLowercase_eq_map hascii
  have hlowerChars : ∀ d ∈ table.toLowercase mac, IsMacChar d := by
    rw [hlower]
    exact isMacChar_of_parseBytes ((parseBytes_map_toLower mac).trans hmac)
  have hsascii : ∀ c ∈ s, c.toNat < 128 := by
    have hlowerAscii : ∀ d ∈ table.toLowercase s,
        d.toNat < 128 ∧ d ≠ 'i' ∧ d ≠ 'k' := by
      rw [h]
      exact fun d hd => (hlowerChars d hd).ascii
    exact LowercaseTable.ascii_of_toLowercase hlowerAscii
  rw [LowercaseTable.toLowercase_eq_map hsascii, hlower] at h
  rw [← parseBytes_map_toLower s, h, parseBytes_map_toLower, hmac]

end MacAddress

/-! ## The lookup -/

namespace Dhcp

/-- The last lease whose address agrees with `mac` up to case. -/
def findLeaseByMac (table : LowercaseTable) (leases : List DhcpLease)
    (mac : Text) : Option DhcpLease :=
  let macLower := table.toLowercase mac
  leases.reverse.find? fun lease =>
    table.toLowercase lease.hwAddress == macLower

/-- The last lease whose address is read as `m`. -/
def lastLeaseOf (m : MacAddress) (leases : List DhcpLease) :
    Option DhcpLease :=
  leases.reverse.find? fun lease =>
    decide (MacAddress.parse lease.hwAddress = .ok m)

/-- A stronger test finds the same first element exactly when what the weaker
test finds passes it. -/
theorem find_eq_find_iff {α : Type*} {p q : α → Bool} {xs : List α}
    (himp : ∀ x, p x = true → q x = true) :
    xs.find? p = xs.find? q ↔ ∀ x ∈ xs.find? q, p x = true := by
  constructor
  · intro h x hx
    exact List.find?_some (h.trans hx)
  · intro h
    induction xs with
    | nil => rfl
    | cons x xs ih =>
        by_cases hq : q x = true
        · have hp : p x = true := by
            rw [List.find?_cons_of_pos hq] at h
            exact h x rfl
          rw [List.find?_cons_of_pos hp, List.find?_cons_of_pos hq]
        · have hp : ¬ p x = true := fun hp => hq (himp x hp)
          rw [List.find?_cons_of_neg hq] at h ⊢
          rw [List.find?_cons_of_neg hp]
          exact ih h

/-- **The lookup finds the last lease of the address**, or none when there is
none, exactly when that lease spells the address like `mac` up to case. -/
theorem findLeaseByMac_eq_iff (table : LowercaseTable)
    (leases : List DhcpLease) {mac : Text} {m : MacAddress}
    (hmac : MacAddress.parse mac = .ok m) :
    findLeaseByMac table leases mac = lastLeaseOf m leases ↔
      ∀ lease ∈ lastLeaseOf m leases,
        table.toLowercase lease.hwAddress = table.toLowercase mac := by
  rw [findLeaseByMac, lastLeaseOf, find_eq_find_iff]
  · simp only [beq_iff_eq]
  · intro lease hlease
    rw [beq_iff_eq] at hlease
    exact decide_eq_true (MacAddress.parse_of_toLowercase_eq hmac hlease)

/-- A table that keeps all characters outside ASCII. -/
def keepingTable : LowercaseTable where
  mapping _ c _ := [c]
  mapping_ne_nil := nofun
  ascii_of_mapping := by
    intro _ c _ hc d hd hascii
    rw [List.mem_singleton] at hd
    subst hd
    omega

/-- A lease of the given address. -/
def leaseOf (hwAddress : String) : DhcpLease :=
  ⟨"192.168.64.9".toList, hwAddress.toList, none⟩

theorem findLeaseByMac_other_case :
    findLeaseByMac keepingTable [leaseOf "52:55:55:0A:BB:CC"]
      "52:55:55:0a:bb:cc".toList = some (leaseOf "52:55:55:0A:BB:CC") := by
  have hmac : MacAddress.parse "52:55:55:0a:bb:cc".toList =
      .ok ⟨[0x52, 0x55, 0x55, 0x0a, 0xbb, 0xcc], rfl⟩ := by decide
  rw [(findLeaseByMac_eq_iff keepingTable
    [leaseOf "52:55:55:0A:BB:CC"] hmac).mpr (by decide)]
  decide

/-- An octet without its leading zero is not found. -/
theorem findLeaseByMac_missing_zero :
    MacAddress.parse "52:55:55:a:bb:cc".toList =
        MacAddress.parse "52:55:55:0a:bb:cc".toList ∧
      MacAddress.parse "52:55:55:0a:bb:cc".toList =
        .ok ⟨[0x52, 0x55, 0x55, 0x0a, 0xbb, 0xcc], rfl⟩ ∧
      findLeaseByMac keepingTable [leaseOf "52:55:55:a:bb:cc"]
        "52:55:55:0a:bb:cc".toList = none := by
  decide

end Dhcp
end Kasou
