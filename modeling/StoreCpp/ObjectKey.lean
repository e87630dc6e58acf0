import StoreCpp.Base64
import StoreCpp.Sha256

/-!
# Keys of binary object ids

`base64_to_hex` turns the base64 text of an object id into uppercase
hexadecimal digits.
-/

namespace StoreCpp

namespace ObjectKey

/-- `str_to_hex`.  The index is an `int`; its overflow is undefined. -/
def strToHex (ssir : Bytes) : Option Str :=
  if ssir.length ≤ intMax then some (ssir.flatMap Sha256.streamHex) else none

def upperCase (l : Str) : Str := l.map Char.toUpper

def base64ToHex (c4 : Vector UInt8 4) (k : Bytes) : Option Str :=
  ((Base64.base64Decode c4 k).bind strToHex).map upperCase

/-- The key of an object id that has been encoded. -/
def key (c4 : Vector UInt8 4) (oid : Bytes) : Option Str :=
  (Base64.base64Encode oid).bind (base64ToHex c4)

def upperDigit (n : ℕ) : Char :=
  ("0123456789ABCDEF".toList[n]?).getD '0'

/-- The two uppercase hexadecimal digits of each byte. -/
def upperHex (oid : Bytes) : Str :=
  oid.flatMap fun byte =>
    [upperDigit (byte.toNat / 16), upperDigit (byte.toNat % 16)]

/-- The key has two uppercase digits for each byte of the object id and is the
key of no other. -/
structure HexesEncoded (c4 : Vector UInt8 4) (oid : Bytes) : Prop where
  hexes : key c4 oid = some (upperHex oid)
  twoDigits : (upperHex oid).length = 2 * oid.length
  distinct : ∀ c4' other, key c4' other = key c4 oid → other = oid

theorem toUpper_digitChar (n : Fin 16) :
    (Nat.digitChar n).toUpper = upperDigit n := by
  decide +revert

theorem map_toUpper_streamHex (byte : UInt8) :
    (Sha256.streamHex byte).map Char.toUpper =
      [upperDigit (byte.toNat / 16), upperDigit (byte.toNat % 16)] := by
  have hlt := byte.toNat_lt
  have hhigh := toUpper_digitChar ⟨byte.toNat / 16, by omega⟩
  have hlow := toUpper_digitChar ⟨byte.toNat % 16, by omega⟩
  rw [Sha256.streamHex_eq, List.map_cons, List.map_cons, List.map_nil]
  rw [hhigh, hlow]

theorem upperCase_flatMap (oid : Bytes) :
    upperCase (oid.flatMap Sha256.streamHex) = upperHex oid := by
  unfold upperCase upperHex
  rw [List.map_flatMap]
  congr 1
  funext byte
  exact map_toUpper_streamHex byte

/-- The encoding is gone: what is left is the formatting of the bytes. -/
theorem key_eq (c4 : Vector UInt8 4) (oid : Bytes) :
    key c4 oid = if oid.length ≤ intMax then some (upperHex oid) else none := by
  unfold key base64ToHex strToHex
  rw [Base64.base64Encode_eq, Option.bind_some, Base64.base64Decode_encode,
    Option.bind_some]
  split_ifs with hle
  · rw [Option.map_some, upperCase_flatMap]
  · rfl

theorem upperDigit_inj (m n : Fin 16) (hsame : upperDigit m = upperDigit n) :
    m = n := by
  revert m n
  decide

theorem upperDigits_inj : Function.Injective fun byte : UInt8 =>
    [upperDigit (byte.toNat / 16), upperDigit (byte.toNat % 16)] := by
  intro first second hsame
  have hfirst := first.toNat_lt
  have hsecond := second.toNat_lt
  obtain ⟨hhigh, hlow⟩ := List.cons.inj hsame
  have hhigh := congrArg Fin.val (upperDigit_inj
    ⟨first.toNat / 16, by omega⟩ ⟨second.toNat / 16, by omega⟩ hhigh)
  have hlow := congrArg Fin.val (upperDigit_inj
    ⟨first.toNat % 16, by omega⟩ ⟨second.toNat % 16, by omega⟩
    (List.cons.inj hlow).1)
  apply UInt8.toNat_inj.mp
  dsimp only at hhigh hlow
  omega

theorem upperHex_inj {first second : Bytes}
    (hsame : upperHex first = upperHex second) : first = second :=
  flatMap_inj_of_width upperDigits_inj two_ne_zero (fun _ => rfl) hsame

theorem length_upperHex (oid : Bytes) :
    (upperHex oid).length = 2 * oid.length := by
  unfold upperHex
  rw [List.length_flatMap]
  simp [mul_comm]

/-- An object id has its uppercase hexadecimal form as a key of its own exactly
when an `int` counts its bytes. -/
theorem hexesEncoded_iff (c4 : Vector UInt8 4) (oid : Bytes) :
    HexesEncoded c4 oid ↔ oid.length ≤ intMax := by
  constructor
  · intro hhexes
    by_contra hlong
    have hkey := hhexes.hexes
    rw [key_eq, if_neg hlong] at hkey
    exact absurd hkey (by simp)
  · intro hle
    have hkey : key c4 oid = some (upperHex oid) := by
      rw [key_eq, if_pos hle]
    refine ⟨hkey, length_upperHex oid, ?_⟩
    intro c4' other hsame
    rw [hkey, key_eq] at hsame
    split_ifs at hsame with hother
    exact upperHex_inj (Option.some.inj hsame)

/-- The index cannot count the bytes of an object id of two gigabytes. -/
theorem twoGigabytes_not_hexesEncoded :
    ¬ ∀ (c4 : Vector UInt8 4) (oid : Bytes), HexesEncoded c4 oid := by
  intro hclaim
  have hkey :=
    (hclaim #v[0, 0, 0, 0] (List.replicate (intMax + 1) 0)).hexes
  rw [key_eq, List.length_replicate, if_neg (Nat.not_succ_le_self intMax)]
    at hkey
  exact absurd hkey (by simp)

end ObjectKey

end StoreCpp
