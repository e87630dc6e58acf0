import Mathlib.Algebra.GroupWithZero.Nat
import Mathlib.Algebra.NeZero
import Mathlib.Data.List.Basic
import Mathlib.Data.Nat.Find
import Mathlib.Tactic.TypeStar

/-!
# Sending data piece by piece

A loop cuts its data into pieces of one size, the last of which may be
shorter, encodes each piece and sends it, and stops at the first piece that
is not sent.  Where the encoding of a text is the encodings of its parts, what
has been sent is the encoding of the data up to that piece.
-/

namespace PieceLoop

variable {α β : Type*}

def pieceLength (size remainder : ℕ) : ℕ :=
  if remainder < size then remainder else size

theorem pieceLength_pos (size : ℕ) [NeZero size] {remainder : ℕ}
    (hpos : 0 < remainder) : 0 < pieceLength size remainder := by
  unfold pieceLength
  split_ifs
  · exact hpos
  · exact Nat.pos_of_ne_zero (NeZero.ne size)

theorem pieceLength_of_le {size remainder : ℕ} (hle : size ≤ remainder) :
    pieceLength size remainder = size := by
  unfold pieceLength
  rw [if_neg (not_lt.mpr hle)]

/-- What has been sent, and whether the loop ran to the end of the data. -/
def run (size : ℕ) [NeZero size] (encode : List α → List β)
    (sends : ℕ → Bool) (data : List α) (piece lenRead : ℕ)
    (sent : List β) : List β × Bool :=
  if lenRead < data.length then
    let length := pieceLength size (data.length - lenRead)
    let next := (data.drop lenRead).take length
    if sends piece then
      run size encode sends data (piece + 1) (lenRead + length)
        (sent ++ encode next)
    else (sent, false)
  else (sent, true)
termination_by data.length - lenRead
decreasing_by
  have hpos : 0 < pieceLength size (data.length - lenRead) :=
    pieceLength_pos size (by omega)
  omega

/-- The first piece of the rest that is not sent. -/
structure FailsFirst (size : ℕ) (sends : ℕ → Bool) (rest piece k : ℕ) :
    Prop where
  within : size * k < rest
  before : ∀ j < k, sends (piece + j) = true
  fails : sends (piece + k) = false

/-- Behind a piece that is sent the loop fails one piece earlier. -/
theorem FailsFirst.next {size : ℕ} {sends : ℕ → Bool} {rest piece k : ℕ}
    (hfirst : FailsFirst size sends rest piece (k + 1)) :
    FailsFirst size sends (rest - size) (piece + 1) k where
  within := by
    have hwithin := hfirst.within
    rw [Nat.mul_succ] at hwithin
    omega
  before := by
    intro j hj
    have hbefore := hfirst.before (j + 1) (by omega)
    rwa [Nat.add_comm j 1, ← Nat.add_assoc] at hbefore
  fails := by
    have hfails := hfirst.fails
    rwa [Nat.add_comm k 1, ← Nat.add_assoc] at hfails

theorem all_or_failsFirst (size : ℕ) (sends : ℕ → Bool) (rest piece : ℕ) :
    (∀ k, size * k < rest → sends (piece + k) = true) ∨
      ∃ k, FailsFirst size sends rest piece k := by
  classical
  by_cases hall : ∀ k, size * k < rest → sends (piece + k) = true
  · exact Or.inl hall
  · push Not at hall
    right
    have hfirst := Nat.find_spec hall
    refine ⟨Nat.find hall, hfirst.1, ?_, by simpa using hfirst.2⟩
    intro j hj
    have hbefore := Nat.find_min hall hj
    push Not at hbefore
    have hle : size * j ≤ size * Nat.find hall :=
      Nat.mul_le_mul_left size (Nat.le_of_lt hj)
    exact hbefore (lt_of_le_of_lt hle hfirst.1)

variable {size : ℕ} [NeZero size] {encode : List α → List β}
  {sends : ℕ → Bool}

theorem encode_nil
    (hencode : ∀ front back, encode (front ++ back) =
      encode front ++ encode back) : encode [] = [] := by
  have hlength := congrArg List.length (hencode [] [])
  rw [List.append_nil, List.length_append] at hlength
  exact List.eq_nil_of_length_eq_zero (by omega)

theorem run_of_all
    (hencode : ∀ front back, encode (front ++ back) =
      encode front ++ encode back)
    {data : List α} {piece lenRead : ℕ} {sent : List β}
    (hall : ∀ k, size * k < data.length - lenRead →
      sends (piece + k) = true) :
    run size encode sends data piece lenRead sent =
      (sent ++ encode (data.drop lenRead), true) := by
  induction piece, lenRead, sent using run.induct size encode sends data with
  | case1 piece lenRead sent hlt length next hsends ih =>
      have hcut : encode (data.drop lenRead) =
          encode next ++ encode (data.drop (lenRead + length)) := by
        rw [← hencode, ← List.drop_drop, List.take_append_drop]
      have hrest : ∀ k, size * k < data.length - (lenRead + length) →
          sends (piece + 1 + k) = true := by
        intro k hk
        have hsucc : size * (k + 1) < data.length - lenRead := by
          have hle : size ≤ data.length - lenRead := by
            unfold length pieceLength at hk
            split_ifs at hk <;> omega
          have hlength : length = size := pieceLength_of_le hle
          rw [hlength] at hk
          rw [Nat.mul_succ]
          omega
        have hlater := hall (k + 1) hsucc
        rwa [Nat.add_comm k 1, ← Nat.add_assoc] at hlater
      rw [run, if_pos hlt]
      dsimp only
      rw [if_pos hsends, ih hrest, hcut, List.append_assoc]
  | case2 piece lenRead sent hlt hsends =>
      exact absurd (hall 0 (by omega)) hsends
  | case3 piece lenRead sent hge =>
      rw [run, if_neg hge, List.drop_eq_nil_of_le (by omega),
        encode_nil hencode, List.append_nil]

theorem run_of_failsFirst
    (hencode : ∀ front back, encode (front ++ back) =
      encode front ++ encode back)
    {data : List α} {piece lenRead : ℕ} {sent : List β} :
    ∀ {k : ℕ}, FailsFirst size sends (data.length - lenRead) piece k →
      run size encode sends data piece lenRead sent =
        (sent ++ encode ((data.drop lenRead).take (size * k)), false) := by
  induction piece, lenRead, sent using run.induct size encode sends data with
  | case1 piece lenRead sent hlt length next hsends =>
      rename_i ih
      intro k hfirst
      cases k with
      | zero =>
          have hfails := hfirst.fails
          rw [Nat.add_zero, hsends] at hfails
          cases hfails
      | succ k =>
          have hwithin := hfirst.within
          rw [Nat.mul_succ] at hwithin
          have hlength : length = size := pieceLength_of_le (by omega)
          have hrest : FailsFirst size sends
              (data.length - (lenRead + length)) (piece + 1) k := by
            rw [← Nat.sub_sub, hlength]
            exact hfirst.next
          have hcut : (data.drop lenRead).take (size * (k + 1)) =
              next ++ (data.drop (lenRead + length)).take (size * k) := by
            rw [Nat.mul_succ, Nat.add_comm, List.take_add, ← List.drop_drop]
            unfold next
            rw [hlength]
          rw [run, if_pos hlt]
          dsimp only
          rw [if_pos hsends, ih hrest, hcut, hencode, List.append_assoc]
  | case2 piece lenRead sent hlt hsends =>
      intro k hfirst
      cases k with
      | zero =>
          rw [run, if_pos hlt]
          dsimp only
          rw [if_neg hsends, Nat.mul_zero, List.take_zero,
            encode_nil hencode, List.append_nil]
      | succ k =>
          exact absurd (hfirst.before 0 (Nat.succ_pos k)) hsends
  | case3 piece lenRead sent hge =>
      intro k hfirst
      have hwithin := hfirst.within
      omega

/-- The loop runs to the end exactly when every piece is sent. -/
theorem run_completes_iff
    (hencode : ∀ front back, encode (front ++ back) =
      encode front ++ encode back)
    (data : List α) (sent : List β) :
    (run size encode sends data 0 0 sent).2 = true ↔
      ∀ k, size * k < data.length → sends k = true := by
  constructor
  · intro hcompletes k hk
    cases all_or_failsFirst size sends data.length 0 with
    | inl hall =>
        have hsends := hall k hk
        rwa [Nat.zero_add] at hsends
    | inr hfails =>
        obtain ⟨first, hfirst⟩ := hfails
        rw [run_of_failsFirst hencode hfirst] at hcompletes
        cases hcompletes
  · intro hall
    have hzero : ∀ k, size * k < data.length - 0 → sends (0 + k) = true := by
      intro k hk
      rw [Nat.zero_add]
      exact hall k hk
    rw [run_of_all hencode hzero]

end PieceLoop
