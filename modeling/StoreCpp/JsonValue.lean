import StoreCpp.Extensions

/-!
# JSON values and typed lookups

The values of the JSON library: integers keep 64 bits, a float is kept as the
bits of its IEEE double, and the members of an object are in key order.
`value(key, default)` converts the member to the type of the default and
throws (`none`) when the value is no object or the types do not convert.
-/

namespace StoreCpp

inductive Json where
  | null
  | boolean (value : Bool)
  | integer (value : Int64)
  | unsigned (value : UInt64)
  | float (bits : UInt64)
  | string (text : Str)
  | array (values : List Json)
  | object (members : List (Str × Json))

namespace Json

/-- The integer part of a finite double. -/
def truncateDouble (bits : UInt64) : Option ℤ :=
  let exponent := bits.toNat / 2 ^ 52 % 2 ^ 11
  let fraction := bits.toNat % 2 ^ 52
  let significand := if exponent = 0 then fraction else 2 ^ 52 + fraction
  let magnitude : ℕ :=
    if 1075 ≤ exponent then significand * 2 ^ (exponent - 1075)
    else significand / 2 ^ (1075 - max exponent 1)
  if exponent = 2 ^ 11 - 1 then none
  else if bits.toNat / 2 ^ 63 = 0 then some (magnitude : ℤ)
  else some (-(magnitude : ℤ))

def getInt64 : Json → Option Int64
  | integer value => some value
  | unsigned value => some value.toInt64
  | float bits => (truncateDouble bits).bind fun n =>
      if Int64.minValue.toInt ≤ n ∧ n ≤ Int64.maxValue.toInt then
        some (Int64.ofInt n)
      else none
  | _ => none

def getInt : Json → Option Int32
  | boolean value => some (if value then 1 else 0)
  | integer value => some value.toInt32
  | unsigned value => some value.toInt64.toInt32
  | float bits => (truncateDouble bits).bind fun n =>
      if Int32.minValue.toInt ≤ n ∧ n ≤ Int32.maxValue.toInt then
        some (Int32.ofInt n)
      else none
  | _ => none

def getString : Json → Option Str
  | string text => some text
  | _ => none

def lookup (key : Str) : List (Str × Json) → Option Json
  | [] => none
  | (other, value) :: rest => if key = other then some value else lookup key rest

def valueWith {α : Type*} (get : Json → Option α) (key : Str) (default : α) :
    Json → Option α
  | object members =>
      match lookup key members with
      | some value => get value
      | none => some default
  | _ => none

def valueInt (json : Json) (key : Str) (default : Int32) : Option Int32 :=
  json.valueWith getInt key default

def valueString (json : Json) (key : Str) (default : Str) : Option Str :=
  json.valueWith getString key default

def valueJson (json : Json) (key : Str) (default : Json) : Option Json :=
  json.valueWith some key default

/-- `emplace` into the ordered members; an existing key keeps its value. -/
def emplace (key : Str) (value : Json) : List (Str × Json) → List (Str × Json)
  | [] => [(key, value)]
  | (other, old) :: rest =>
      if key < other then (key, value) :: (other, old) :: rest
      else if key = other then (other, old) :: rest
      else (other, old) :: emplace key value rest

/-- The members after an assignment through `operator[]`. -/
def assign (key : Str) (value : Json) : List (Str × Json) → List (Str × Json)
  | [] => [(key, value)]
  | (other, old) :: rest =>
      if key < other then (key, value) :: (other, old) :: rest
      else if key = other then (key, value) :: rest
      else (other, old) :: assign key value rest

theorem lookup_assign (key other : Str) (value : Json)
    (members : List (Str × Json)) :
    lookup other (assign key value members) =
      if other = key then some value else lookup other members := by
  induction members with
  | nil => rfl
  | cons member rest ih =>
      obtain ⟨name, old⟩ := member
      rw [assign]
      by_cases hlt : key < name
      · rw [if_pos hlt]
        rfl
      · rw [if_neg hlt]
        by_cases hname : key = name
        · subst hname
          rw [if_pos rfl]
          by_cases hother : other = key <;> simp [lookup, hother]
        · rw [if_neg hname]
          by_cases hother : other = name
          · have hne : other ≠ key := fun heq => hname (heq ▸ hother)
            rw [if_neg hne, lookup, if_pos hother, lookup, if_pos hother]
          · rw [lookup, if_neg hother, ih, lookup, if_neg hother]

def ofMembers (members : List (Str × Json)) : Json :=
  object (members.foldl (fun built member => emplace member.1 member.2 built) [])

end Json

end StoreCpp
