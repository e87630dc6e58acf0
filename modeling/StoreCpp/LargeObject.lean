import StoreCpp.Extensions
import StoreCpp.PieceLoop

/-!
# Upload and download of large objects

`upload` cuts the data into pieces of the buffer size, doubles the single
quotes of each piece and appends it to a new large object inside one
transaction; `download` reads the object back piece by piece.  The results of
the server calls are inputs of both.  The pieces are sent by the loop of
`PieceLoop`.
-/

namespace StoreCpp

abbrev Oid := UInt32

namespace LargeObject

def bufSize : ℕ := 32768

def singleQuote : UInt8 := 0x27

/-- `regex_replace(next, regex("'"), "''")`. -/
def replaceQuotes (data : Bytes) : Bytes :=
  data.flatMap fun byte =>
    if byte = singleQuote then [singleQuote, singleQuote] else [byte]

/-- What the server calls of one upload answer: the object identifier of
`lo_creat`, the descriptor of `lo_open`, and whether each `lo_write`
succeeds. -/
structure UploadCalls where
  loCreat : Oid
  loOpen : ℤ
  loWrite : ℕ → Bool

structure UploadCalls.AllSucceed (calls : UploadCalls) : Prop where
  loCreat : calls.loCreat ≠ 0
  loOpen : 0 ≤ calls.loOpen
  loWrite : ∀ piece, calls.loWrite piece = true

abbrev Server := Oid → Option Bytes

def lenEnd (remainder : ℕ) : ℕ :=
  if remainder < bufSize then remainder else bufSize

theorem lenEnd_pos {remainder : ℕ} (hpos : 0 < remainder) :
    0 < lenEnd remainder := by
  unfold lenEnd
  split_ifs
  · exact hpos
  · decide

/-- The loop of `upload`: the object written so far, and whether the loop ran
to the end of the data. -/
def uploadLoop (calls : UploadCalls) (data : Bytes) (piece lenRead : ℕ)
    (object : Bytes) : Bytes × Bool :=
  if lenRead < data.length then
    let length := lenEnd (data.length - lenRead)
    let next := replaceQuotes ((data.drop lenRead).take length)
    if calls.loWrite piece then
      uploadLoop calls data (piece + 1) (lenRead + length) (object ++ next)
    else (object, false)
  else (object, true)
termination_by data.length - lenRead
decreasing_by
  have hpos : 0 < lenEnd (data.length - lenRead) := lenEnd_pos (by omega)
  omega

/-- The oid that is returned and the objects after the transaction.  A call
that failed leaves the transaction aborted, and `COMMIT` rolls it back. -/
def upload (calls : UploadCalls) (server : Server) (data : Bytes) :
    Oid × Server :=
  if calls.loOpen < 0 then (calls.loCreat, server)
  else
    let written := uploadLoop calls data 0 0 []
    if written.2 then
      (calls.loCreat, Function.update server calls.loCreat (some written.1))
    else (calls.loCreat, server)

def downloadLoop (object : Bytes) (position : ℕ) (retval : Bytes) : Bytes :=
  let read := (object.drop position).take bufSize
  if 0 < read.length then
    downloadLoop object (position + read.length) (retval ++ read)
  else retval
termination_by object.length - position
decreasing_by
  have hread : read.length ≤ (object.drop position).length :=
    List.length_take_le' _ _
  rw [List.length_drop] at hread
  change object.length - (position + read.length) < object.length - position
  omega

def download (server : Server) (oid : Oid) : Bytes :=
  match server oid with
  | none => []
  | some object => downloadLoop object 0 []

theorem replaceQuotes_append (front back : Bytes) :
    replaceQuotes (front ++ back) =
      replaceQuotes front ++ replaceQuotes back := by
  simp [replaceQuotes]

theorem replaceQuotes_length (data : Bytes) :
    (replaceQuotes data).length = data.length + data.count singleQuote := by
  induction data with
  | nil => rfl
  | cons byte data ih =>
      have happend := congrArg List.length (replaceQuotes_append [byte] data)
      rw [List.singleton_append, List.length_append, ih] at happend
      rw [happend]
      by_cases hbyte : byte = singleQuote
      · simp [replaceQuotes, hbyte]
        omega
      · simp [replaceQuotes, hbyte]
        omega

theorem replaceQuotes_eq_self_iff (data : Bytes) :
    replaceQuotes data = data ↔ singleQuote ∉ data := by
  constructor
  · intro heq hmem
    have hlength := replaceQuotes_length data
    have hpos : 0 < data.count singleQuote := List.count_pos_iff.mpr hmem
    rw [heq] at hlength
    omega
  · intro hmem
    induction data with
    | nil => rfl
    | cons byte data ih =>
        have hbyte : byte ≠ singleQuote :=
          fun h => hmem (h ▸ List.mem_cons_self)
        have hrest := ih fun h => hmem (List.mem_cons_of_mem _ h)
        rw [← List.singleton_append, replaceQuotes_append, hrest]
        simp [replaceQuotes, hbyte]

instance : NeZero bufSize := ⟨by decide⟩

theorem uploadLoop_eq_run (calls : UploadCalls) (data : Bytes)
    (piece lenRead : ℕ) (object : Bytes) :
    uploadLoop calls data piece lenRead object =
      PieceLoop.run bufSize replaceQuotes calls.loWrite data piece lenRead
        object := by
  induction piece, lenRead, object using uploadLoop.induct calls data with
  | case1 piece lenRead object hlt length next hwrite ih =>
      rw [uploadLoop, PieceLoop.run, if_pos hlt, if_pos hlt]
      dsimp only
      rw [if_pos hwrite, if_pos hwrite]
      exact ih
  | case2 piece lenRead object hlt hwrite =>
      rw [uploadLoop, PieceLoop.run, if_pos hlt, if_pos hlt]
      dsimp only
      rw [if_neg hwrite, if_neg hwrite]
  | case3 piece lenRead object hge =>
      rw [uploadLoop, PieceLoop.run, if_neg hge, if_neg hge]

/-- Cutting the data into pieces does not change what is written. -/
theorem uploadLoop_eq {calls : UploadCalls} (hcalls : calls.AllSucceed)
    (data : Bytes) (piece lenRead : ℕ) (object : Bytes) :
    uploadLoop calls data piece lenRead object =
      (object ++ replaceQuotes (data.drop lenRead), true) := by
  rw [uploadLoop_eq_run]
  exact PieceLoop.run_of_all replaceQuotes_append
    fun k _ => hcalls.loWrite (piece + k)

theorem downloadLoop_eq (object : Bytes) (position : ℕ) (retval : Bytes) :
    downloadLoop object position retval =
      retval ++ object.drop position := by
  induction position, retval using downloadLoop.induct object with
  | case1 position retval read hpos ih =>
      obtain ⟨rest, hrest⟩ := List.take_prefix bufSize (object.drop position)
      have hdrop : object.drop (position + read.length) = rest := by
        rw [← List.drop_drop, ← hrest, List.drop_left]
      rw [downloadLoop, if_pos hpos, ih, hdrop, ← hrest, List.append_assoc]
  | case2 position retval read hzero =>
      have hlength : read.length = 0 := by omega
      have hempty : object.drop position = [] := by
        have htake : (object.drop position).take bufSize = [] :=
          List.eq_nil_of_length_eq_zero hlength
        simpa [bufSize] using List.take_eq_nil_iff.mp htake
      rw [downloadLoop, if_neg hzero, hempty, List.append_nil]

theorem upload_eq {calls : UploadCalls} (hcalls : calls.AllSucceed)
    (server : Server) (data : Bytes) :
    upload calls server data =
      (calls.loCreat, Function.update server calls.loCreat
        (some (replaceQuotes data))) := by
  have hopen : ¬ calls.loOpen < 0 := not_lt.mpr hcalls.loOpen
  simp [upload, hopen, uploadLoop_eq hcalls]

theorem download_of_some {server : Server} {oid : Oid} {object : Bytes}
    (hobject : server oid = some object) : download server oid = object := by
  simp [download, hobject, downloadLoop_eq]

def quietCalls : UploadCalls where
  loCreat := 33289
  loOpen := 0
  loWrite := fun _ => true

theorem quietCalls_allSucceed : quietCalls.AllSucceed :=
  ⟨by decide, by decide, fun _ => rfl⟩

/-- When every large-object call succeeds, the downloaded bytes are the
uploaded ones exactly when the data holds no single quote. -/
theorem download_upload_iff {calls : UploadCalls}
    (hcalls : calls.AllSucceed) (server : Server) (data : Bytes) :
    download (upload calls server data).2 (upload calls server data).1 =
      data ↔ singleQuote ∉ data := by
  rw [upload_eq hcalls, download_of_some (Function.update_self ..)]
  exact replaceQuotes_eq_self_iff data

theorem download_upload_hi :
    quietCalls.AllSucceed ∧
      download (upload quietCalls (fun _ => none) [0x48, 0x69]).2
        (upload quietCalls (fun _ => none) [0x48, 0x69]).1 = [0x48, 0x69] :=
  ⟨quietCalls_allSucceed,
    (download_upload_iff quietCalls_allSucceed (fun _ => none)
      [0x48, 0x69]).mpr (by decide)⟩

/-- The text `it's` comes back with its quote doubled. -/
theorem download_upload_apostrophe :
    download
        (upload quietCalls (fun _ => none) [0x69, 0x74, 0x27, 0x73]).2
        (upload quietCalls (fun _ => none) [0x69, 0x74, 0x27, 0x73]).1 ≠
      [0x69, 0x74, 0x27, 0x73] := by
  rw [upload_eq quietCalls_allSucceed,
    download_of_some (Function.update_self ..)]
  decide

/-! ## Uploads that fail -/

/-- What the calls answer on a connection that could not be opened. -/
def refusedCalls : UploadCalls where
  loCreat := 0
  loOpen := -1
  loWrite := fun _ => false

/-- `upload` over what `PQconnectdb` answers.  An object that `lo_creat` could
not make leaves the transaction aborted as well. -/
def uploadOver (connected : Bool) (calls : UploadCalls) (server : Server)
    (data : Bytes) : Oid × Server :=
  let calls := if connected then calls else refusedCalls
  let left := upload calls server data
  (left.1, if calls.loCreat = 0 then server else left.2)

/-- The oid is that of a committed object with the whole encoded data, or it
is no oid. -/
def ReturnsWhole (connected : Bool) (calls : UploadCalls) (server : Server)
    (data : Bytes) : Prop :=
  let left := uploadOver connected calls server data
  left.1 = 0 ∨ left.2 left.1 = some (replaceQuotes data)

def WritesPieces (calls : UploadCalls) (data : Bytes) : Prop :=
  ∀ piece, bufSize * piece < data.length → calls.loWrite piece = true

/-- No object is made, or it is opened and every piece is written. -/
def MakesWhole (connected : Bool) (calls : UploadCalls) (data : Bytes) :
    Prop :=
  connected = false ∨ calls.loCreat = 0 ∨
    0 ≤ calls.loOpen ∧ WritesPieces calls data

theorem upload_oid (calls : UploadCalls) (server : Server) (data : Bytes) :
    (upload calls server data).1 = calls.loCreat := by
  unfold upload
  dsimp only
  split_ifs
  · rfl
  · rfl
  · rfl

theorem upload_object_of_writes {calls : UploadCalls} (server : Server)
    {data : Bytes} (hopen : 0 ≤ calls.loOpen)
    (hwrites : WritesPieces calls data) :
    (upload calls server data).2 calls.loCreat =
      some (replaceQuotes data) := by
  have hrun : uploadLoop calls data 0 0 [] = (replaceQuotes data, true) := by
    rw [uploadLoop_eq_run, PieceLoop.run_of_all replaceQuotes_append]
    · simp
    · intro k hk
      rw [Nat.zero_add]
      exact hwrites k hk
  unfold upload
  rw [if_neg (not_lt.mpr hopen), hrun]
  simp

theorem upload_server_of_fails {calls : UploadCalls} (server : Server)
    {data : Bytes}
    (hfails : ¬ (0 ≤ calls.loOpen ∧ WritesPieces calls data)) :
    (upload calls server data).2 = server := by
  unfold upload
  by_cases hopen : calls.loOpen < 0
  · rw [if_pos hopen]
  · have hbreaks : (uploadLoop calls data 0 0 []).2 ≠ true := by
      intro hcompletes
      rw [uploadLoop_eq_run,
        PieceLoop.run_completes_iff replaceQuotes_append] at hcompletes
      exact hfails ⟨not_lt.mp hopen, hcompletes⟩
    rw [if_neg hopen]
    dsimp only
    rw [if_neg hbreaks]

/-- With an oid from `lo_creat` that no object had before, `upload` returns the
oid of a whole object, or none, exactly when no call fails after `lo_creat`. -/
theorem upload_returnsWhole_iff (connected : Bool) (calls : UploadCalls)
    (server : Server) (data : Bytes)
    (hfresh : calls.loCreat ≠ 0 → server calls.loCreat = none) :
    ReturnsWhole connected calls server data ↔
      MakesWhole connected calls data := by
  unfold ReturnsWhole MakesWhole uploadOver
  dsimp only
  rw [upload_oid]
  cases connected with
  | false => simp [refusedCalls]
  | true =>
      by_cases hcreat : calls.loCreat = 0
      · simp [hcreat]
      · by_cases hmade : 0 ≤ calls.loOpen ∧ WritesPieces calls data
        · have hobject := upload_object_of_writes server hmade.1 hmade.2
          simp [hcreat, hmade, hobject]
        · have hserver := upload_server_of_fails server hmade
          have hnone := hfresh hcreat
          simp [hcreat, hmade, hserver, hnone]

/-- The first piece of `Hi` cannot be written. -/
def brokenWrite : UploadCalls :=
  { quietCalls with loWrite := fun _ => false }

theorem upload_returnsWhole_hi :
    ReturnsWhole true quietCalls (fun _ => none) [0x48, 0x69] ∧
      MakesWhole true quietCalls [0x48, 0x69] := by
  have hmakes : MakesWhole true quietCalls [0x48, 0x69] :=
    Or.inr (Or.inr ⟨by decide, fun _ _ => rfl⟩)
  exact ⟨(upload_returnsWhole_iff true quietCalls (fun _ => none) [0x48, 0x69]
    fun _ => rfl).mpr hmakes, hmakes⟩

theorem brokenWrite_not_returnsWhole :
    ¬ ∀ (connected : Bool) (calls : UploadCalls) (server : Server)
      (data : Bytes),
      (calls.loCreat ≠ 0 → server calls.loCreat = none) →
        ReturnsWhole connected calls server data := by
  intro hclaim
  have hwrites : ¬ WritesPieces brokenWrite [0x48, 0x69] := by
    intro hall
    exact Bool.noConfusion (hall 0 (by decide))
  have hwhole := hclaim true brokenWrite (fun _ => none) [0x48, 0x69]
    fun _ => rfl
  have hserver := upload_server_of_fails (fun _ => none)
    fun h : 0 ≤ brokenWrite.loOpen ∧ _ => hwrites h.2
  unfold ReturnsWhole uploadOver at hwhole
  rw [if_pos rfl] at hwhole
  dsimp only at hwhole
  rw [upload_oid, hserver] at hwhole
  have hoid : brokenWrite.loCreat ≠ 0 := by decide
  simp [hoid] at hwhole

end LargeObject

end StoreCpp
