import StoreCpp.Extensions
import StoreCpp.PieceLoop

/-!
# The digest of a text

`computeSha256Hash` hands its input to OpenSSL piece by piece and writes the
digest in hexadecimal digits.  The digest function is a parameter, and what
the calls report is an input.
-/

namespace StoreCpp

/-- What `EVP_sha256` computes, 32 bytes long. -/
abbrev Digest := Vector UInt8 32

namespace Sha256

def bufSize : ℕ := 32768

instance : NeZero bufSize := ⟨by decide⟩

/-- Which of the calls succeed; there is one update for each piece. -/
structure EvpCalls where
  ctxNew : Bool
  digestInit : Bool
  digestUpdate : ℕ → Bool
  digestFinal : Bool

/-- The loop over the input; an update that fails absorbs nothing and ends
it. -/
def absorbed (calls : EvpCalls) (unhashed : Bytes) : Bytes :=
  (PieceLoop.run bufSize (fun next => next) calls.digestUpdate unhashed 0 0
    []).1

/-- `std::hex`, `std::setw(2)` and `std::setfill('0')`. -/
def streamHex (byte : UInt8) : Str :=
  (Nat.toDigits 16 byte.toNat).leftpad 2 '0'

def computeSha256Hash (sha256 : Bytes → Digest) (calls : EvpCalls)
    (unhashed : Bytes) : Str :=
  if ¬ calls.ctxNew then []
  else if ¬ calls.digestInit then []
  else
    let hash := sha256 (absorbed calls unhashed)
    if calls.digestFinal then hash.toList.flatMap streamHex else []

/-- The two lowercase hexadecimal digits of each byte. -/
def lowerHex (digest : Digest) : Str :=
  digest.toList.flatMap fun byte =>
    [Nat.digitChar (byte.toNat / 16), Nat.digitChar (byte.toNat % 16)]

def EmptyOrWhole (sha256 : Bytes → Digest) (calls : EvpCalls)
    (unhashed : Bytes) : Prop :=
  let hashed := computeSha256Hash sha256 calls unhashed
  hashed = [] ∨ hashed = lowerHex (sha256 unhashed)

/-- The calls around the loop all succeed. -/
structure EvpCalls.Finishes (calls : EvpCalls) : Prop where
  ctxNew : calls.ctxNew = true
  digestInit : calls.digestInit = true
  digestFinal : calls.digestFinal = true

/-- Where the update of a piece fails and the other calls succeed, what has
been absorbed before it has the digest of the whole input. -/
def KeepsDigest (sha256 : Bytes → Digest) (calls : EvpCalls)
    (unhashed : Bytes) : Prop :=
  calls.Finishes → ∀ piece,
    PieceLoop.FailsFirst bufSize calls.digestUpdate unhashed.length 0 piece →
      sha256 (unhashed.take (bufSize * piece)) = sha256 unhashed

theorem streamHex_ofNat (n : Fin 256) :
    streamHex (UInt8.ofNat n) =
      [Nat.digitChar (n / 16), Nat.digitChar (n % 16)] := by
  decide +revert +kernel

theorem streamHex_eq (byte : UInt8) :
    streamHex byte =
      [Nat.digitChar (byte.toNat / 16), Nat.digitChar (byte.toNat % 16)] := by
  have hstream := streamHex_ofNat ⟨byte.toNat, byte.toNat_lt⟩
  rwa [UInt8.ofNat_toNat] at hstream

theorem digitChar_inj {m n : ℕ} (hm : m < 16) (hn : n < 16)
    (hsame : Nat.digitChar m = Nat.digitChar n) : m = n := by
  have hall : ∀ m n : Fin 16,
      Nat.digitChar m = Nat.digitChar n → m = n := by decide
  have hfin := hall ⟨m, hm⟩ ⟨n, hn⟩ hsame
  exact congrArg Fin.val hfin

theorem streamHex_inj {first second : UInt8}
    (hsame : streamHex first = streamHex second) : first = second := by
  rw [streamHex_eq, streamHex_eq] at hsame
  have hfirst : first.toNat < 256 := first.toNat_lt
  have hsecond : second.toNat < 256 := second.toNat_lt
  have hhigh := digitChar_inj (by omega) (by omega)
    (List.cons.inj hsame).1
  have hlow := digitChar_inj (by omega) (by omega)
    (List.cons.inj (List.cons.inj hsame).2).1
  apply UInt8.toNat_inj.mp
  omega

theorem length_streamHex (byte : UInt8) : (streamHex byte).length = 2 := by
  rw [streamHex_eq]
  rfl

theorem flatMap_streamHex_inj {first second : Bytes}
    (hsame : first.flatMap streamHex = second.flatMap streamHex) :
    first = second :=
  flatMap_inj_of_width (fun _ _ => streamHex_inj) two_ne_zero length_streamHex
    hsame

theorem lowerHex_eq (digest : Digest) :
    lowerHex digest = digest.toList.flatMap streamHex := by
  unfold lowerHex
  congr 1
  funext byte
  exact (streamHex_eq byte).symm

theorem lowerHex_inj {first second : Digest}
    (hsame : lowerHex first = lowerHex second) : first = second := by
  rw [lowerHex_eq, lowerHex_eq] at hsame
  exact Vector.toList_inj.mp (flatMap_streamHex_inj hsame)

theorem length_lowerHex (digest : Digest) :
    (lowerHex digest).length = 64 := by
  unfold lowerHex
  rw [List.length_flatMap]
  simp

theorem absorbed_of_all {calls : EvpCalls} {unhashed : Bytes}
    (hall : ∀ piece, bufSize * piece < unhashed.length →
      calls.digestUpdate (0 + piece) = true) :
    absorbed calls unhashed = unhashed := by
  unfold absorbed
  rw [PieceLoop.run_of_all (fun _ _ => rfl) hall]
  rfl

theorem absorbed_of_failsFirst {calls : EvpCalls} {unhashed : Bytes}
    {piece : ℕ}
    (hfirst : PieceLoop.FailsFirst bufSize calls.digestUpdate
      unhashed.length 0 piece) :
    absorbed calls unhashed = unhashed.take (bufSize * piece) := by
  unfold absorbed
  rw [PieceLoop.run_of_failsFirst (fun _ _ => rfl) hfirst]
  rfl

theorem computeSha256Hash_of_finishes (sha256 : Bytes → Digest)
    {calls : EvpCalls} (hfinishes : calls.Finishes) (unhashed : Bytes) :
    computeSha256Hash sha256 calls unhashed =
      lowerHex (sha256 (absorbed calls unhashed)) := by
  rw [lowerHex_eq]
  simp [computeSha256Hash, hfinishes.ctxNew, hfinishes.digestInit,
    hfinishes.digestFinal]

theorem computeSha256Hash_of_not_finishes (sha256 : Bytes → Digest)
    {calls : EvpCalls} (hfinishes : ¬ calls.Finishes) (unhashed : Bytes) :
    computeSha256Hash sha256 calls unhashed = [] := by
  unfold computeSha256Hash
  by_cases hctx : calls.ctxNew = true
  · by_cases hinit : calls.digestInit = true
    · have hfinal : ¬ calls.digestFinal = true :=
        fun h => hfinishes ⟨hctx, hinit, h⟩
      simp [hctx, hinit, hfinal]
    · simp [hctx, hinit]
  · simp [hctx]

/-- The text is empty or the digest of the whole input exactly when no update
fails with the calls around it succeeding, digests that agree aside. -/
theorem emptyOrWhole_iff (sha256 : Bytes → Digest) (calls : EvpCalls)
    (unhashed : Bytes) :
    EmptyOrWhole sha256 calls unhashed ↔
      KeepsDigest sha256 calls unhashed := by
  unfold EmptyOrWhole KeepsDigest
  by_cases hfinishes : calls.Finishes
  · have hne : lowerHex (sha256 (absorbed calls unhashed)) ≠ [] := by
      intro hnil
      have hlength := length_lowerHex (sha256 (absorbed calls unhashed))
      rw [hnil] at hlength
      cases hlength
    rw [computeSha256Hash_of_finishes sha256 hfinishes]
    constructor
    · intro hwhole _ piece hfirst
      have hsame := lowerHex_inj (hwhole.resolve_left hne)
      rwa [absorbed_of_failsFirst hfirst] at hsame
    · intro hkeeps
      right
      cases PieceLoop.all_or_failsFirst bufSize calls.digestUpdate
          unhashed.length 0 with
      | inl hall => rw [absorbed_of_all hall]
      | inr hfails =>
          obtain ⟨piece, hfirst⟩ := hfails
          rw [absorbed_of_failsFirst hfirst, hkeeps hfinishes piece hfirst]
  · refine iff_of_true (Or.inl ?_) (fun h => absurd h hfinishes)
    exact computeSha256Hash_of_not_finishes sha256 hfinishes unhashed

/-- The digests of the empty text and of `a`. -/
def knownDigests : Bytes → Digest
  | [0x61] => #v[
      0xca, 0x97, 0x81, 0x12, 0xca, 0x1b, 0xbd, 0xca,
      0xfa, 0xc2, 0x31, 0xb3, 0x9a, 0x23, 0xdc, 0x4d,
      0xa7, 0x86, 0xef, 0xf8, 0x14, 0x7c, 0x4e, 0x72,
      0xb9, 0x80, 0x77, 0x85, 0xaf, 0xee, 0x48, 0xbb]
  | _ => #v[
      0xe3, 0xb0, 0xc4, 0x42, 0x98, 0xfc, 0x1c, 0x14,
      0x9a, 0xfb, 0xf4, 0xc8, 0x99, 0x6f, 0xb9, 0x24,
      0x27, 0xae, 0x41, 0xe4, 0x64, 0x9b, 0x93, 0x4c,
      0xa4, 0x95, 0x99, 0x1b, 0x78, 0x52, 0xb8, 0x55]

def failedUpdate : EvpCalls where
  ctxNew := true
  digestInit := true
  digestUpdate := fun _ => false
  digestFinal := true

/-- `a`, whose only update fails, gets the digest of the empty text. -/
theorem failedUpdate_not_emptyOrWhole :
    ¬ ∀ (sha256 : Bytes → Digest) (calls : EvpCalls) (unhashed : Bytes),
      EmptyOrWhole sha256 calls unhashed := by
  intro hclaim
  have hwhole := hclaim knownDigests failedUpdate [0x61]
  have hfirst : PieceLoop.FailsFirst bufSize failedUpdate.digestUpdate 1 0 0 :=
    ⟨by decide, fun j hj => absurd hj (Nat.not_lt_zero j), rfl⟩
  unfold EmptyOrWhole at hwhole
  rw [computeSha256Hash_of_finishes knownDigests ⟨rfl, rfl, rfl⟩,
    absorbed_of_failsFirst hfirst] at hwhole
  revert hwhole
  decide +kernel

end Sha256

end StoreCpp
