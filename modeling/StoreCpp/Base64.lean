import StoreCpp.Extensions

/-!
# Base64 coding

`encode` writes four characters for each three bytes and pads the last group.
`decode` collects four digits at a time, stops at padding, at an invalid
character or at the end of its input, and writes what a group that is not
complete still holds.  `base64_decode` gives it a buffer whose size it takes
from the length of the input alone, which is enough for what `base64_encode`
returns.
-/

namespace StoreCpp

namespace Base64

/-- The bytes of a text in ASCII. -/
def ascii (text : String) : Bytes :=
  text.toList.map fun c => UInt8.ofNat c.toNat

def getAlphabet : Bytes :=
  ascii "ABCDEFGHIJKLMNOPQRSTUVWXYZabcdefghijklmnopqrstuvwxyz0123456789+/"

def getInverse : List Int8 := [
  -1, -1, -1, -1, -1, -1, -1, -1, -1, -1, -1, -1, -1, -1, -1, -1,
  -1, -1, -1, -1, -1, -1, -1, -1, -1, -1, -1, -1, -1, -1, -1, -1,
  -1, -1, -1, -1, -1, -1, -1, -1, -1, -1, -1, 62, -1, -1, -1, 63,
  52, 53, 54, 55, 56, 57, 58, 59, 60, 61, -1, -1, -1, -1, -1, -1,
  -1, 0, 1, 2, 3, 4, 5, 6, 7, 8, 9, 10, 11, 12, 13, 14,
  15, 16, 17, 18, 19, 20, 21, 22, 23, 24, 25, -1, -1, -1, -1, -1,
  -1, 26, 27, 28, 29, 30, 31, 32, 33, 34, 35, 36, 37, 38, 39, 40,
  41, 42, 43, 44, 45, 46, 47, 48, 49, 50, 51, -1, -1, -1, -1, -1,
  -1, -1, -1, -1, -1, -1, -1, -1, -1, -1, -1, -1, -1, -1, -1, -1,
  -1, -1, -1, -1, -1, -1, -1, -1, -1, -1, -1, -1, -1, -1, -1, -1,
  -1, -1, -1, -1, -1, -1, -1, -1, -1, -1, -1, -1, -1, -1, -1, -1,
  -1, -1, -1, -1, -1, -1, -1, -1, -1, -1, -1, -1, -1, -1, -1, -1,
  -1, -1, -1, -1, -1, -1, -1, -1, -1, -1, -1, -1, -1, -1, -1, -1,
  -1, -1, -1, -1, -1, -1, -1, -1, -1, -1, -1, -1, -1, -1, -1, -1,
  -1, -1, -1, -1, -1, -1, -1, -1, -1, -1, -1, -1, -1, -1, -1, -1,
  -1, -1, -1, -1, -1, -1, -1, -1, -1, -1, -1, -1, -1, -1, -1, -1]

/-- An entry of the alphabet. -/
def tab (index : UInt8) : UInt8 := (getAlphabet[index.toNat]?).getD 0

/-- An entry of the inverse table. -/
def inverse (c : UInt8) : Int8 := (getInverse[c.toNat]?).getD (-1)

def equalsSign : UInt8 := 0x3d

def encodedSize (n : ℕ) : ℕ := 4 * ((n + 2) / 3)

def decodedSize (n : ℕ) : ℕ := n / 4 * 3

/-- What `encode` writes. -/
def encode : Bytes → Bytes
  | in0 :: in1 :: in2 :: rest =>
      tab ((in0 &&& 0xfc) >>> 2) ::
        tab (((in0 &&& 0x03) <<< 4) + ((in1 &&& 0xf0) >>> 4)) ::
          tab (((in2 &&& 0xc0) >>> 6) + ((in1 &&& 0x0f) <<< 2)) ::
            tab (in2 &&& 0x3f) :: encode rest
  | [in0, in1] => [
      tab ((in0 &&& 0xfc) >>> 2),
      tab (((in0 &&& 0x03) <<< 4) + ((in1 &&& 0xf0) >>> 4)),
      tab ((in1 &&& 0x0f) <<< 2),
      equalsSign]
  | [in0] => [
      tab ((in0 &&& 0xfc) >>> 2),
      tab ((in0 &&& 0x03) <<< 4),
      equalsSign,
      equalsSign]
  | [] => []

/-- `c3` of a group. -/
def c3 (c4 : Vector UInt8 4) : Bytes := [
  (c4[0] <<< 2) + ((c4[1] &&& 0x30) >>> 4),
  ((c4[1] &&& 0xf) <<< 4) + ((c4[2] &&& 0x3c) >>> 2),
  ((c4[2] &&& 0x3) <<< 6) + c4[3]]

/-- Behind the loop: what a group of `i` digits still holds. -/
def decodeRest (c4 : Vector UInt8 4) (i : Fin 4) (out : Bytes) : Bytes :=
  if i ≠ 0 then out ++ (c3 c4).take (i - 1) else out

/-- The loop of `decode`: the bytes written so far, the group and how many of
its digits are there. -/
def decodeLoop (c4 : Vector UInt8 4) (i : Fin 4) (out : Bytes) :
    Bytes → Bytes
  | [] => decodeRest c4 i out
  | c :: src =>
      if c = equalsSign then decodeRest c4 i out
      else
        let v := inverse c
        if v = -1 then decodeRest c4 i out
        else
          let c4 := c4.set i v.toUInt8
          if i = 3 then decodeLoop c4 0 (out ++ c3 c4) src
          else decodeLoop c4 (i + 1) out src

/-- What `decode` writes, with any bytes in the group that is not
initialised. -/
def decode (c4 : Vector UInt8 4) (src : Bytes) : Bytes :=
  decodeLoop c4 0 [] src

/-- `dest.resize(n)`. -/
def resize (dest : Bytes) (n : ℕ) : Bytes :=
  dest.take n ++ List.replicate (n - dest.length) 0

/-- Writes from the start of a buffer; undefined behind its end. -/
def store (dest out : Bytes) : Option Bytes :=
  if out.length ≤ dest.length then some (out ++ dest.drop out.length)
  else none

/-- `base64_encode`. -/
def base64Encode (data : Bytes) : Option Bytes :=
  let dest := resize [] (encodedSize data.length)
  let out := encode data
  (store dest out).map fun dest => resize dest out.length

/-- `base64_decode`. -/
def base64Decode (c4 : Vector UInt8 4) (data : Bytes) : Option Bytes :=
  let dest := resize [] (decodedSize data.length)
  let out := decode c4 data
  (store dest out).map fun dest => resize dest out.length

/-- Every byte that is decoded is written inside the buffer and returned. -/
structure DecodesInside (c4 : Vector UInt8 4) (k : Bytes) : Prop where
  inside : ∀ j < (decode c4 k).length, j < decodedSize k.length
  returned : base64Decode c4 k = some (decode c4 k)

/-- A base64 digit. -/
def IsDigit (c : UInt8) : Prop := c ≠ equalsSign ∧ inverse c ≠ -1

instance (c : UInt8) : Decidable (IsDigit c) :=
  inferInstanceAs (Decidable (_ ∧ _))

/-- The number of digits before the loop stops. -/
def digits (k : Bytes) : ℕ := (k.takeWhile fun c => IsDigit c).length

/-- The digits end with a group that leaves no byte, or one that the text
completes. -/
def GroupsFit (k : Bytes) : Prop :=
  digits k % 4 ≤ 1 ∨ digits k / 4 < k.length / 4

/-! ## The buffer -/

theorem store_resize {dest out : Bytes} (hle : out.length ≤ dest.length) :
    (store dest out).map (fun dest => resize dest out.length) = some out := by
  unfold store resize
  rw [if_pos hle, Option.map_some, List.take_left, List.length_append]
  simp

theorem length_resize_nil (n : ℕ) : (resize [] n).length = n := by
  simp [resize]

theorem length_c3 (c4 : Vector UInt8 4) : (c3 c4).length = 3 := rfl

theorem digits_nil : digits [] = 0 := rfl

theorem digits_cons_of_digit {c : UInt8} (hc : IsDigit c) (src : Bytes) :
    digits (c :: src) = digits src + 1 := by
  simp [digits, hc]

theorem digits_cons_of_not {c : UInt8} (hc : ¬ IsDigit c) (src : Bytes) :
    digits (c :: src) = 0 := by
  simp [digits, hc]

theorem digits_le_length (k : Bytes) : digits k ≤ k.length :=
  (List.takeWhile_sublist _).length_le

theorem length_decodeRest (c4 : Vector UInt8 4) (i : Fin 4) (out : Bytes) :
    (decodeRest c4 i out).length = out.length + (i - 1) := by
  unfold decodeRest
  split_ifs with hi
  · rw [List.length_append, List.length_take, length_c3]
    omega
  · rw [not_not.mp hi]
    rfl

theorem decodeLoop_cons_of_not (c4 : Vector UInt8 4) (i : Fin 4) (out : Bytes)
    {c : UInt8} (hc : ¬ IsDigit c) (src : Bytes) :
    decodeLoop c4 i out (c :: src) = decodeRest c4 i out := by
  rw [decodeLoop]
  dsimp only
  split_ifs with hequals hinvalid
  · rfl
  · rfl
  · exact absurd ⟨hequals, hinvalid⟩ hc
  · exact absurd ⟨hequals, hinvalid⟩ hc

theorem decodeLoop_cons_of_digit (c4 : Vector UInt8 4) (i : Fin 4)
    (out : Bytes) {c : UInt8} (hc : IsDigit c) (src : Bytes) :
    decodeLoop c4 i out (c :: src) =
      if i = 3 then
        decodeLoop (c4.set i (inverse c).toUInt8) 0
          (out ++ c3 (c4.set i (inverse c).toUInt8)) src
      else decodeLoop (c4.set i (inverse c).toUInt8) (i + 1) out src := by
  rw [decodeLoop]
  dsimp only
  rw [if_neg hc.1, if_neg hc.2]

/-- Three bytes for each group of four digits, and one less than its digits
for the last. -/
theorem length_decodeLoop (c4 : Vector UInt8 4) (i : Fin 4) (out src : Bytes) :
    (decodeLoop c4 i out src).length =
      out.length + 3 * ((i + digits src) / 4) + ((i + digits src) % 4 - 1) := by
  induction src generalizing c4 i out with
  | nil =>
      rw [decodeLoop, length_decodeRest, digits_nil]
      omega
  | cons c src ih =>
      by_cases hc : IsDigit c
      · rw [decodeLoop_cons_of_digit c4 i out hc, digits_cons_of_digit hc]
        split_ifs with hi
        · rw [ih, List.length_append, length_c3, hi]
          simp only [Fin.val_zero]
          have hthree : ((3 : Fin 4) : ℕ) = 3 := rfl
          omega
        · have hnext : ((i + 1 : Fin 4) : ℕ) = i + 1 := by
            revert i
            decide
          rw [ih, hnext]
          omega
      · rw [decodeLoop_cons_of_not c4 i out hc, length_decodeRest,
          digits_cons_of_not hc]
        omega

theorem length_decode (c4 : Vector UInt8 4) (k : Bytes) :
    (decode c4 k).length =
      3 * (digits k / 4) + (digits k % 4 - 1) := by
  unfold decode
  rw [length_decodeLoop]
  simp

/-- The decoding pass stays in its buffer and its bytes are returned exactly
when the text completes the last group of digits. -/
theorem decodesInside_iff (c4 : Vector UInt8 4) (k : Bytes) :
    DecodesInside c4 k ↔ GroupsFit k := by
  have hlength := length_decode c4 k
  have hdigits := digits_le_length k
  have hfits : (decode c4 k).length ≤ decodedSize k.length ↔ GroupsFit k := by
    unfold GroupsFit decodedSize
    omega
  rw [← hfits]
  constructor
  · intro hdecodes
    by_contra hlt
    exact absurd (hdecodes.inside _ (not_le.mp hlt)) (lt_irrefl _)
  · intro hle
    refine ⟨fun j hj => lt_of_lt_of_le hj hle, ?_⟩
    apply store_resize
    rw [length_resize_nil]
    exact hle

/-- Two digits without padding, as in `QQ`, decode to a byte for which the
buffer has no room. -/
theorem unpadded_not_decodesInside :
    ¬ ∀ (c4 : Vector UInt8 4) (k : Bytes), DecodesInside c4 k := by
  intro hclaim
  have hinside := (hclaim #v[0, 0, 0, 0] (ascii "QQ")).inside 0
    (by decide +kernel)
  exact absurd hinside (by decide +kernel)

/-! ## What has been encoded -/

theorem toNat_and_shiftRight (x mask shift : UInt8) (w s : ℕ)
    (hs : shift.toNat % 8 = s) (hmask : mask.toNat >>> s = 2 ^ w - 1) :
    ((x &&& mask) >>> shift).toNat = x.toNat / 2 ^ s % 2 ^ w := by
  rw [UInt8.toNat_shiftRight, hs, UInt8.toNat_and,
    Nat.shiftRight_and_distrib, hmask, Nat.and_two_pow_sub_one_eq_mod,
    Nat.shiftRight_eq_div_pow]

theorem toNat_and_shiftLeft (x mask shift : UInt8) (w s : ℕ)
    (hs : shift.toNat % 8 = s) (hmask : mask.toNat = 2 ^ w - 1)
    (hws : w + s ≤ 8) :
    ((x &&& mask) <<< shift).toNat = x.toNat % 2 ^ w * 2 ^ s := by
  rw [UInt8.toNat_shiftLeft, hs, UInt8.toNat_and, hmask,
    Nat.and_two_pow_sub_one_eq_mod, Nat.shiftLeft_eq]
  apply Nat.mod_eq_of_lt
  calc
    x.toNat % 2 ^ w * 2 ^ s < 2 ^ w * 2 ^ s :=
      Nat.mul_lt_mul_of_pos_right (Nat.mod_lt _ (Nat.two_pow_pos w))
        (Nat.two_pow_pos s)
    _ = 2 ^ (w + s) := (pow_add 2 w s).symm
    _ ≤ 2 ^ 8 := Nat.pow_le_pow_right (by omega) hws

/-! The four digits of three bytes, and the three bytes of four digits. -/

theorem toNat_digit0 (in0 : UInt8) :
    ((in0 &&& 0xfc) >>> 2).toNat = in0.toNat / 4 := by
  have hlt := in0.toNat_lt
  rw [toNat_and_shiftRight in0 0xfc 2 6 2 rfl rfl]
  omega

theorem toNat_digit1 (in0 in1 : UInt8) :
    (((in0 &&& 0x03) <<< 4) + ((in1 &&& 0xf0) >>> 4)).toNat =
      in0.toNat % 4 * 16 + in1.toNat / 16 := by
  have hlt := in1.toNat_lt
  rw [UInt8.toNat_add, toNat_and_shiftLeft in0 0x03 4 2 4 rfl rfl (by omega),
    toNat_and_shiftRight in1 0xf0 4 4 4 rfl rfl]
  omega

theorem toNat_digit2 (in1 in2 : UInt8) :
    (((in2 &&& 0xc0) >>> 6) + ((in1 &&& 0x0f) <<< 2)).toNat =
      in1.toNat % 16 * 4 + in2.toNat / 64 := by
  have hlt := in2.toNat_lt
  rw [UInt8.toNat_add, toNat_and_shiftLeft in1 0x0f 2 4 2 rfl rfl (by omega),
    toNat_and_shiftRight in2 0xc0 6 2 6 rfl rfl]
  omega

theorem toNat_digit3 (in2 : UInt8) :
    (in2 &&& 0x3f).toNat = in2.toNat % 64 := by
  rw [UInt8.toNat_and]
  exact Nat.and_two_pow_sub_one_eq_mod in2.toNat 6

theorem toNat_byte0 (d0 d1 : UInt8) :
    ((d0 <<< 2) + ((d1 &&& 0x30) >>> 4)).toNat =
      (d0.toNat * 4 + d1.toNat / 16 % 4) % 256 := by
  rw [UInt8.toNat_add, UInt8.toNat_shiftLeft, Nat.shiftLeft_eq,
    toNat_and_shiftRight d1 0x30 4 2 4 rfl rfl]
  exact Nat.mod_add_mod _ _ _

theorem toNat_byte1 (d1 d2 : UInt8) :
    (((d1 &&& 0xf) <<< 4) + ((d2 &&& 0x3c) >>> 2)).toNat =
      d1.toNat % 16 * 16 + d2.toNat / 4 % 16 := by
  rw [UInt8.toNat_add, toNat_and_shiftLeft d1 0xf 4 4 4 rfl rfl (by omega),
    toNat_and_shiftRight d2 0x3c 2 4 2 rfl rfl]
  omega

theorem toNat_byte2 (d2 d3 : UInt8) :
    (((d2 &&& 0x3) <<< 6) + d3).toNat =
      (d2.toNat % 4 * 64 + d3.toNat) % 256 := by
  rw [UInt8.toNat_add, toNat_and_shiftLeft d2 0x3 6 2 6 rfl rfl (by omega)]
  rfl

theorem byte0_eq (in0 in1 : UInt8) :
    (((in0 &&& 0xfc) >>> 2) <<< 2) +
      (((((in0 &&& 0x03) <<< 4) + ((in1 &&& 0xf0) >>> 4)) &&& 0x30) >>> 4) =
        in0 := by
  have h0 := in0.toNat_lt
  have h1 := in1.toNat_lt
  apply UInt8.toNat_inj.mp
  rw [toNat_byte0, toNat_digit0, toNat_digit1]
  omega

theorem byte1_eq (in0 in1 in2 : UInt8) :
    (((((in0 &&& 0x03) <<< 4) + ((in1 &&& 0xf0) >>> 4)) &&& 0xf) <<< 4) +
      (((((in2 &&& 0xc0) >>> 6) + ((in1 &&& 0x0f) <<< 2)) &&& 0x3c) >>> 2) =
        in1 := by
  have h1 := in1.toNat_lt
  have h2 := in2.toNat_lt
  apply UInt8.toNat_inj.mp
  rw [toNat_byte1, toNat_digit1, toNat_digit2]
  omega

theorem byte2_eq (in1 in2 : UInt8) :
    (((((in2 &&& 0xc0) >>> 6) + ((in1 &&& 0x0f) <<< 2)) &&& 0x3) <<< 6) +
      (in2 &&& 0x3f) = in2 := by
  have h2 := in2.toNat_lt
  apply UInt8.toNat_inj.mp
  rw [toNat_byte2, toNat_digit2, toNat_digit3]
  omega

/-- The last digit of a single byte is that of two bytes, the second zero. -/
theorem digit1_zero (in0 : UInt8) :
    (in0 &&& 0x03) <<< 4 =
      ((in0 &&& 0x03) <<< 4) + (((0 : UInt8) &&& 0xf0) >>> 4) := by
  simp

theorem digit2_zero (in1 : UInt8) :
    (in1 &&& 0x0f) <<< 2 =
      (((0 : UInt8) &&& 0xc0) >>> 6) + ((in1 &&& 0x0f) <<< 2) := by
  simp

theorem digit0_lt (in0 : UInt8) : ((in0 &&& 0xfc) >>> 2).toNat < 64 := by
  have hlt := in0.toNat_lt
  rw [toNat_digit0]
  omega

theorem digit1_lt (in0 in1 : UInt8) :
    (((in0 &&& 0x03) <<< 4) + ((in1 &&& 0xf0) >>> 4)).toNat < 64 := by
  have hlt := in1.toNat_lt
  rw [toNat_digit1]
  omega

theorem digit2_lt (in1 in2 : UInt8) :
    (((in2 &&& 0xc0) >>> 6) + ((in1 &&& 0x0f) <<< 2)).toNat < 64 := by
  have hlt := in2.toNat_lt
  rw [toNat_digit2]
  omega

theorem digit3_lt (in2 : UInt8) : (in2 &&& 0x3f).toNat < 64 := by
  rw [toNat_digit3]
  omega

theorem tab_ofNat (v : Fin 64) :
    IsDigit (tab (UInt8.ofNat v)) ∧
      (inverse (tab (UInt8.ofNat v))).toUInt8 = UInt8.ofNat v := by
  decide +revert +kernel

theorem decodeLoop_cons_tab (c4 : Vector UInt8 4) (i : Fin 4) (out : Bytes)
    {v : UInt8} (hv : v.toNat < 64) (src : Bytes) :
    decodeLoop c4 i out (tab v :: src) =
      if i = 3 then decodeLoop (c4.set i v) 0 (out ++ c3 (c4.set i v)) src
      else decodeLoop (c4.set i v) (i + 1) out src := by
  have htab := tab_ofNat ⟨v.toNat, hv⟩
  rw [UInt8.ofNat_toNat] at htab
  rw [decodeLoop_cons_of_digit c4 i out htab.1, htab.2]

theorem set_four (c4 : Vector UInt8 4) (d0 d1 d2 d3 : UInt8) :
    (((c4.set 0 d0).set 1 d1).set 2 d2).set 3 d3 = #v[d0, d1, d2, d3] := by
  apply Vector.ext
  intro i hi
  interval_cases i <;> simp

/-- The first half of a group. -/
theorem decodeLoop_pair (c4 : Vector UInt8 4) (out src : Bytes)
    {d0 d1 : UInt8} (h0 : d0.toNat < 64) (h1 : d1.toNat < 64) :
    decodeLoop c4 0 out (tab d0 :: tab d1 :: src) =
      decodeLoop ((c4.set 0 d0).set 1 d1) 2 out src := by
  rw [decodeLoop_cons_tab c4 0 out h0, if_neg (by decide), zero_add,
    decodeLoop_cons_tab _ 1 out h1, if_neg (by decide)]
  rfl

theorem decodeLoop_group (c4 : Vector UInt8 4) (out src : Bytes)
    {d0 d1 d2 d3 : UInt8} (h0 : d0.toNat < 64) (h1 : d1.toNat < 64)
    (h2 : d2.toNat < 64) (h3 : d3.toNat < 64) :
    decodeLoop c4 0 out (tab d0 :: tab d1 :: tab d2 :: tab d3 :: src) =
      decodeLoop #v[d0, d1, d2, d3] 0
        (out ++ [(d0 <<< 2) + ((d1 &&& 0x30) >>> 4),
          ((d1 &&& 0xf) <<< 4) + ((d2 &&& 0x3c) >>> 2),
          ((d2 &&& 0x3) <<< 6) + d3]) src := by
  rw [decodeLoop_pair c4 out _ h0 h1,
    decodeLoop_cons_tab _ 2 out h2, if_neg (by decide),
    show (2 + 1 : Fin 4) = 3 from rfl,
    decodeLoop_cons_tab _ 3 out h3, if_pos rfl]
  exact congrArg (fun c4 => decodeLoop c4 0 (out ++ c3 c4) src)
    (set_four c4 d0 d1 d2 d3)

theorem decodeLoop_one (c4 : Vector UInt8 4) (out src : Bytes)
    {d0 d1 : UInt8} (h0 : d0.toNat < 64) (h1 : d1.toNat < 64) :
    decodeLoop c4 0 out (tab d0 :: tab d1 :: equalsSign :: src) =
      out ++ [(d0 <<< 2) + ((d1 &&& 0x30) >>> 4)] := by
  rw [decodeLoop_pair c4 out _ h0 h1,
    decodeLoop_cons_of_not _ 2 out (by decide)]
  simp [decodeRest, c3]

theorem decodeLoop_two (c4 : Vector UInt8 4) (out src : Bytes)
    {d0 d1 d2 : UInt8} (h0 : d0.toNat < 64) (h1 : d1.toNat < 64)
    (h2 : d2.toNat < 64) :
    decodeLoop c4 0 out (tab d0 :: tab d1 :: tab d2 :: equalsSign :: src) =
      out ++ [(d0 <<< 2) + ((d1 &&& 0x30) >>> 4),
        ((d1 &&& 0xf) <<< 4) + ((d2 &&& 0x3c) >>> 2)] := by
  rw [decodeLoop_pair c4 out _ h0 h1,
    decodeLoop_cons_tab _ 2 out h2, if_neg (by decide),
    show (2 + 1 : Fin 4) = 3 from rfl,
    decodeLoop_cons_of_not _ 3 out (by decide)]
  simp [decodeRest, c3]

theorem decodeLoop_encode (data : Bytes) (c4 : Vector UInt8 4) (out : Bytes) :
    decodeLoop c4 0 out (encode data) = out ++ data := by
  induction data using encode.induct generalizing c4 out with
  | case1 in0 in1 in2 rest ih =>
      rw [encode, decodeLoop_group c4 out _ (digit0_lt in0)
        (digit1_lt in0 in1) (digit2_lt in1 in2) (digit3_lt in2), ih,
        List.append_assoc, byte0_eq, byte1_eq, byte2_eq]
      rfl
  | case2 in0 in1 =>
      rw [encode, digit2_zero, decodeLoop_two c4 out _ (digit0_lt in0)
        (digit1_lt in0 in1) (digit2_lt in1 0), byte0_eq, byte1_eq]
  | case3 in0 =>
      rw [encode, digit1_zero, decodeLoop_one c4 out _ (digit0_lt in0)
        (digit1_lt in0 0), byte0_eq]
  | case4 =>
      rw [encode, decodeLoop, List.append_nil]
      rfl

theorem decode_encode (c4 : Vector UInt8 4) (data : Bytes) :
    decode c4 (encode data) = data :=
  decodeLoop_encode data c4 []

theorem length_encode (data : Bytes) :
    (encode data).length = encodedSize data.length := by
  unfold encodedSize
  induction data using encode.induct with
  | case1 in0 in1 in2 rest ih =>
      rw [encode]
      simp only [List.length_cons, ih]
      omega
  | case2 in0 in1 =>
      simp [encode]
  | case3 in0 =>
      simp [encode]
  | case4 => rfl

theorem base64Encode_eq (data : Bytes) :
    base64Encode data = some (encode data) := by
  apply store_resize
  rw [length_encode, length_resize_nil]

/-- What has been encoded is decoded, whatever its length and its bytes. -/
theorem base64Decode_encode (c4 : Vector UInt8 4) (data : Bytes) :
    base64Decode c4 (encode data) = some data := by
  have hdecode := decode_encode c4 data
  have hstore : (decode c4 (encode data)).length ≤
      (resize [] (decodedSize (encode data).length)).length := by
    rw [hdecode, length_resize_nil, length_encode]
    unfold decodedSize encodedSize
    omega
  have hreturned := store_resize hstore
  rw [hdecode] at hreturned
  unfold base64Decode
  rw [hdecode]
  exact hreturned

end Base64

end StoreCpp
