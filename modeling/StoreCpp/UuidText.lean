import StoreCpp.EventPolling
import StoreCpp.EventStoreSave

/-!
# Uuids as texts

The server prints a `uuid` in lower case with four hyphens, and the client's
uuid library prints the ones it makes in the same form.  The server's cast
reads such a text back.
-/

namespace StoreCpp

def uuidDigit (u : Uuid) (k : ℕ) : Char :=
  hexDigits.getD (u.toNat / 16 ^ k % 16) '0'

/-- The last bytes of a printed uuid, without a hyphen before the first. -/
def uuidTail (u : Uuid) : ℕ → Str
  | 0 => []
  | count + 1 => uuidDigit u (2 * count + 1) :: uuidDigit u (2 * count) ::
      ((if count ∈ [12, 10, 8, 6] then ['-'] else []) ++ uuidTail u count)

theorem uuidOut_eq (u : Uuid) : uuidOut u = uuidTail u 16 := rfl

theorem hexValue_hexDigits {n : ℕ} (hn : n < 16) :
    hexValue (hexDigits.getD n '0') = some n := by
  have hall : ∀ i < 16, hexValue (hexDigits.getD i '0') = some i := by
    decide +kernel
  exact hall n hn

theorem hexDigits_ne {n : ℕ} (hn : n < 16) :
    hexDigits.getD n '0' ≠ '-' ∧ hexDigits.getD n '0' ≠ '{' := by
  have hall : ∀ i < 16, hexDigits.getD i '0' ≠ '-' ∧
      hexDigits.getD i '0' ≠ '{' := by
    decide +kernel
  exact hall n hn

theorem hexValue_uuidDigit (u : Uuid) (k : ℕ) :
    hexValue (uuidDigit u k) = some (u.toNat / 16 ^ k % 16) :=
  hexValue_hexDigits (Nat.mod_lt _ (by omega))

theorem uuidDigit_ne (u : Uuid) (k : ℕ) :
    uuidDigit u k ≠ '-' ∧ uuidDigit u k ≠ '{' :=
  hexDigits_ne (Nat.mod_lt _ (by omega))

theorem head?_uuidTail (u : Uuid) (count : ℕ) :
    (uuidTail u count).head? ≠ some '-' := by
  cases count with
  | zero => simp [uuidTail]
  | succ count => simpa [uuidTail] using (uuidDigit_ne u (2 * count + 1)).1

/-- The hyphen that may follow a byte is skipped. -/
theorem skipHyphen_uuidTail (u : Uuid) {count : ℕ} (hcount : count < 16) :
    let rest := (if count ∈ [12, 10, 8, 6] then ['-'] else []) ++
      uuidTail u count
    (if count % 2 = 0 ∧ 0 < count ∧ rest.head? = some '-'
      then rest.tail else rest) = uuidTail u count := by
  intro rest
  by_cases hhyphen : count ∈ [12, 10, 8, 6]
  · have hrest : rest = '-' :: uuidTail u count := by
      simp only [rest, if_pos hhyphen]
      rfl
    have heven : count % 2 = 0 ∧ 0 < count := by
      simp only [List.mem_cons, List.not_mem_nil, or_false] at hhyphen
      omega
    rw [hrest, if_pos ⟨heven.1, heven.2, rfl⟩]
    rfl
  · have hrest : rest = uuidTail u count := by
      simp only [rest, if_neg hhyphen]
      rfl
    rw [hrest, if_neg]
    rintro ⟨_, _, hhead⟩
    exact head?_uuidTail u count hhead

theorem byte_of_digits (value k : ℕ) :
    value / 16 ^ (2 * (k + 1)) * 256 + value / 16 ^ (2 * k + 1) % 16 * 16 +
      value / 16 ^ (2 * k) % 16 = value / 16 ^ (2 * k) := by
  have hhigh : value / 16 ^ (2 * k + 1) = value / 16 ^ (2 * k) / 16 := by
    rw [pow_succ, Nat.div_div_eq_div_mul]
  have hbyte : value / 16 ^ (2 * (k + 1)) = value / 16 ^ (2 * k) / 16 / 16 := by
    rw [Nat.div_div_eq_div_mul, Nat.div_div_eq_div_mul, mul_add, pow_add]
    norm_num
  rw [hhigh, hbyte]
  omega

theorem uuidBytes_uuidTail (u : Uuid) {count : ℕ} (hcount : count ≤ 16) :
    uuidBytes count (uuidTail u count) (u.toNat / 16 ^ (2 * count)) =
      some (u.toNat, []) := by
  induction count with
  | zero => simp [uuidTail, uuidBytes]
  | succ count ih =>
      rw [uuidTail, uuidBytes, hexValue_uuidDigit, hexValue_uuidDigit]
      simp only [Option.bind_eq_bind, Option.bind_some]
      rw [byte_of_digits, skipHyphen_uuidTail u hcount]
      exact ih (by omega)

/-- The server reads a printed uuid back. -/
theorem uuidIn_uuidOut (u : Uuid) : uuidIn (uuidOut u) = some u := by
  have hhead : (uuidOut u).head? ≠ some '{' := by
    rw [uuidOut_eq]
    simpa [uuidTail] using (uuidDigit_ne u 31).2
  have hbytes := uuidBytes_uuidTail u (le_refl 16)
  rw [Nat.div_eq_of_lt (by simpa using u.isLt)] at hbytes
  unfold uuidIn
  simp only [if_neg hhead]
  rw [uuidOut_eq, hbytes]
  simp

end StoreCpp
