import Kasou.Error
import Kasou.Library.MapM

/-!
# Core data types: VM identifiers and MAC addresses

`MacAddress.parse` follows `str::split(':')` and `u8::from_str_radix(_, 16)`,
including what that integer parser lets through: a leading plus sign and any
number of leading zeros.
-/

namespace Kasou

/-- Unique identifier of a virtual machine. -/
abbrev VmId := Text

/-- A six-byte MAC address. -/
structure MacAddress where
  bytes : List UInt8
  length_bytes : bytes.length = 6
  deriving DecidableEq

/-- The value of a hexadecimal digit of either case. -/
def hexDigit (c : Char) : Option Nat :=
  if '0' ≤ c ∧ c ≤ '9' then some (c.toNat - '0'.toNat)
  else if 'a' ≤ c ∧ c ≤ 'f' then some (c.toNat - 'a'.toNat + 10)
  else if 'A' ≤ c ∧ c ≤ 'F' then some (c.toNat - 'A'.toNat + 10)
  else none

/-- Read digits most significant first; none on another character or when the
value leaves the range of a byte. -/
def u8FromDigits : UInt8 → Text → Option UInt8
  | value, [] => some value
  | value, c :: cs =>
      match hexDigit c with
      | none => none
      | some digit =>
          if value.toNat * 16 + digit < 256 then
            u8FromDigits (UInt8.ofNat (value.toNat * 16 + digit)) cs
          else none

/-- `u8::from_str_radix(part, 16)`: an empty text or a lone sign is no number,
and a plus sign before digits is allowed. -/
def u8FromStrRadix16 : Text → Option UInt8
  | [] => none
  | ['+'] => none
  | ['-'] => none
  | '+' :: cs => u8FromDigits 0 cs
  | cs => u8FromDigits 0 cs

/-- A plus sign before digits is skipped; a minus sign is no digit. -/
theorem u8FromStrRadix16_cons (c : Char) (cs : Text) :
    u8FromStrRadix16 (c :: cs) =
      if c = '+' then if cs = [] then none else u8FromDigits 0 cs
      else u8FromDigits 0 (c :: cs) := by
  by_cases hplus : c = '+'
  · subst hplus
    cases cs with
    | nil => rfl
    | cons d cs => rfl
  · rw [if_neg hplus]
    unfold u8FromStrRadix16
    split
    next h => cases h
    next h => exact absurd (List.cons.inj h).1 hplus
    next h =>
      rw [h]
      rfl
    next h => exact absurd (List.cons.inj h).1 hplus
    next => rfl

namespace MacAddress

/-- The six parts of a colon-separated text, each read as a byte. -/
def parseBytes (s : Text) : Option (List UInt8) :=
  let parts := s.splitOn ':'
  if parts.length = 6 then parts.mapM u8FromStrRadix16 else none

theorem length_of_parseBytes {s : Text} {bytes : List UInt8}
    (h : parseBytes s = some bytes) : bytes.length = 6 := by
  rw [parseBytes] at h
  split at h
  next hlen => exact (MapM.length_eq h).trans hlen
  · simp at h

/-- Parse a colon-separated MAC address. -/
def parse (s : Text) : Except KasouError MacAddress :=
  match h : parseBytes s with
  | none => .error (.invalidMac s)
  | some bytes => .ok ⟨bytes, length_of_parseBytes h⟩

theorem parse_eq_ok_iff {s : Text} {m : MacAddress} :
    parse s = .ok m ↔ parseBytes s = some m.bytes := by
  rw [parse]
  split
  next hnone => simp [hnone]
  next bytes hbytes =>
    obtain ⟨bytes', _⟩ := m
    simp [hbytes]

/-- A byte in the format `{:02x}`. -/
def hexByte (b : UInt8) : Text :=
  [Nat.digitChar (b.toNat / 16), Nat.digitChar (b.toNat % 16)]

/-- The six bytes as pairs of digits between colons. -/
def display (m : MacAddress) : Text :=
  List.intercalate [':'] (m.bytes.map hexByte)

/-- The locally administered address for a seed and a unique identifier, given
what the standard hasher finishes with after it has hashed two texts. -/
def deterministic (hasher : Text → Text → UInt64) (seed uniqueId : Text) :
    MacAddress where
  bytes :=
    let hash := hasher seed uniqueId
    [0x52, 0x55, 0x55, hash.toUInt8, (hash >>> 8).toUInt8,
      (hash >>> 16).toUInt8]
  length_bytes := rfl

end MacAddress

end Kasou
