import Mathlib.Data.List.TakeDrop

/-!
# Texts of `NVARCHAR` type

A text of type `NVARCHAR` is a sequence of 16-bit code units and may be NULL.
As `VARBINARY` each code unit has two bytes, the low one first.
-/

namespace Nvarchar

abbrev Text := List UInt16

/-- NULL is `none`. -/
abbrev Nullable := Option Text

/-- The operator `+`. -/
def concat (front back : Nullable) : Nullable :=
  front.bind fun front => back.map fun back => front ++ back

/-- Whether `IF` takes the branch of a comparison with `=`; a comparison with
NULL is unknown. -/
def equals : Nullable → Nullable → Bool
  | some first, some second => first == second
  | _, _ => false

def differs : Nullable → Nullable → Bool
  | some first, some second => first != second
  | _, _ => false

/-- `CAST` to a text of at most n code units. -/
def cast (n : ℕ) (text : Text) : Text := text.take n

def toVarbinary (text : Text) : List UInt8 :=
  text.flatMap fun unit : UInt16 =>
    [UInt8.ofNat (unit.toNat % 256), UInt8.ofNat (unit.toNat / 256)]

def ofVarbinary : List UInt8 → Text
  | low :: high :: bytes =>
      UInt16.ofNat (low.toNat + 256 * high.toNat) :: ofVarbinary bytes
  | [low] => [low.toUInt16]
  | [] => []

theorem concat_some (front back : Text) :
    concat (some front) (some back) = some (front ++ back) := rfl

theorem ofNat_halves (unit : UInt16) :
    UInt16.ofNat ((UInt8.ofNat (unit.toNat % 256)).toNat +
      256 * (UInt8.ofNat (unit.toNat / 256)).toNat) = unit := by
  have hunit : unit.toNat < 65536 := unit.toNat_lt
  have hlow : (UInt8.ofNat (unit.toNat % 256)).toNat = unit.toNat % 256 := by
    rw [UInt8.toNat_ofNat', Nat.mod_eq_of_lt]
    omega
  have hhigh : (UInt8.ofNat (unit.toNat / 256)).toNat = unit.toNat / 256 := by
    rw [UInt8.toNat_ofNat', Nat.mod_eq_of_lt]
    omega
  rw [hlow, hhigh, Nat.mod_add_div, UInt16.ofNat_toNat]

theorem ofVarbinary_toVarbinary (text : Text) :
    ofVarbinary (toVarbinary text) = text := by
  induction text with
  | nil => rfl
  | cons unit text ih =>
      unfold toVarbinary at ih ⊢
      rw [List.flatMap_cons, List.cons_append, List.cons_append,
        List.nil_append, ofVarbinary, ofNat_halves, ih]

theorem cast_eq_self_iff (n : ℕ) (text : Text) :
    cast n text = text ↔ text.length ≤ n := by
  unfold cast
  exact List.take_eq_self_iff text

end Nvarchar
