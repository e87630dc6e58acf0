import StoreCpp.Base64
import StoreCpp.LineBreaks

/-!
# Base64 texts with line breaks

`base64_encode_pem` and `base64_encode_mime` encode like `base64_encode` and
insert a line break behind every 64th or 76th character.  `base64_decode`
stops at the first character that is no digit, so it reads the first line
alone.
-/

namespace StoreCpp

namespace Base64

open LineBreaks

def newline : UInt8 := 0x0a

/-- `none` for a loop that does not end: a loop that ends needs no more turns
than the text has characters, and one to leave. -/
def insertLinebreaks (str : Bytes) (distance : ℕ) : Option Bytes :=
  if str.isEmpty then some []
  else breakLoop distance newline (str.length + 1) distance str

def base64EncodeWithLineBreaks (lineLength : ℕ) (s : Bytes) : Option Bytes :=
  (base64Encode s).bind fun text => insertLinebreaks text lineLength

def base64EncodePem : Bytes → Option Bytes := base64EncodeWithLineBreaks 64

def base64EncodeMime : Bytes → Option Bytes := base64EncodeWithLineBreaks 76

/-- The bytes that a prefix of an encoding determines, if it does not end in
padding. -/
def determinedBytes (characters : ℕ) : ℕ :=
  characters / 4 * 3 + (characters % 4 - 1)

/-- The bytes of the first line. -/
def firstLineBytes (lineLength : ℕ) (data : Bytes) : ℕ :=
  if (encode data).length ≤ lineLength then data.length
  else determinedBytes lineLength

theorem tab_ne_newline {v : UInt8} (hv : v.toNat < 64) : tab v ≠ newline := by
  have htab := tab_ofNat ⟨v.toNat, hv⟩
  rw [UInt8.ofNat_toNat] at htab
  intro heq
  rw [heq] at htab
  exact absurd htab.1 (by decide)

theorem newline_notMem_encode (data : Bytes) : newline ∉ encode data := by
  have hequals : newline ≠ equalsSign := by decide
  induction data using encode.induct with
  | case1 in0 in1 in2 rest ih =>
      simp [encode, ih, (tab_ne_newline (digit0_lt in0)).symm,
        (tab_ne_newline (digit1_lt in0 in1)).symm,
        (tab_ne_newline (digit2_lt in1 in2)).symm,
        (tab_ne_newline (digit3_lt in2)).symm]
  | case2 in0 in1 =>
      have hdigit2 := tab_ne_newline (digit2_lt in1 0)
      rw [← digit2_zero] at hdigit2
      simp [encode, hequals, (tab_ne_newline (digit0_lt in0)).symm,
        (tab_ne_newline (digit1_lt in0 in1)).symm, hdigit2.symm]
  | case3 in0 =>
      have hdigit1 := tab_ne_newline (digit1_lt in0 0)
      rw [← digit1_zero] at hdigit1
      simp [encode, hequals, (tab_ne_newline (digit0_lt in0)).symm,
        hdigit1.symm]
  | case4 => simp [encode]

theorem insertLinebreaks_eq (str : Bytes) {distance : ℕ}
    (hdistance : 0 < distance) :
    insertLinebreaks str distance =
      some ([newline].intercalate (lines distance str)) := by
  have hloop := breakLoop_eq hdistance newline [] str (Nat.lt_succ_self _)
  unfold insertLinebreaks
  cases str with
  | nil =>
      rw [lines_of_le (Nat.zero_le _), List.intercalate_singleton]
      rfl
  | cons c str =>
      rw [List.nil_append, List.nil_append, List.length_nil, zero_add] at hloop
      exact hloop

theorem base64EncodeWithLineBreaks_eq {lineLength : ℕ}
    (hlineLength : 0 < lineLength) (data : Bytes) :
    base64EncodeWithLineBreaks lineLength data =
      some ([newline].intercalate (lines lineLength (encode data))) := by
  rw [base64EncodeWithLineBreaks, base64Encode_eq, Option.bind_some,
    insertLinebreaks_eq _ hlineLength]

/-- The text is the encoding in full lines but for the last, and without its
line breaks it is decoded to the data.  With lines of length zero the loop
does not end. -/
theorem base64EncodeWithLineBreaks_lines (c4 : Vector UInt8 4)
    (lineLength : ℕ) (data : Bytes) :
    (0 < lineLength → ∃ text pieces,
      base64EncodeWithLineBreaks lineLength data = some text ∧
      text = [newline].intercalate pieces ∧
      (∀ piece ∈ pieces.dropLast, piece.length = lineLength) ∧
      (∀ piece ∈ pieces, piece.length ≤ lineLength ∧ newline ∉ piece) ∧
      base64Decode c4 (text.filter (· ≠ newline)) = some data) ∧
    (data ≠ [] → ∀ turns,
      breakLoop 0 newline turns 0 (encode data) = none) := by
  have hflatten := flatten_lines lineLength (encode data)
  have hnewline := newline_notMem_encode data
  constructor
  · intro hlineLength
    refine ⟨_, lines lineLength (encode data),
      base64EncodeWithLineBreaks_eq hlineLength data, rfl,
      fun piece hpiece => length_of_mem_dropLast hpiece,
      fun piece hpiece => ⟨?_, fun hmem => hnewline ?_⟩, ?_⟩
    · by_cases hempty : encode data = []
      · rw [hempty, lines_of_le (Nat.zero_le _)] at hpiece
        rw [List.mem_singleton.mp hpiece]
        exact Nat.zero_le _
      · exact (length_of_mem hlineLength hempty hpiece).2
    · rw [← hflatten]
      exact List.mem_flatten.mpr ⟨piece, hpiece, hmem⟩
    · rw [filter_intercalate (by rwa [hflatten]), hflatten,
        base64Decode_encode]
  · intro hdata turns
    refine breakLoop_zero newline turns 0 ?_
    have hpos := List.length_pos_iff.mpr hdata
    rw [length_encode]
    unfold encodedSize
    omega

/-! ## Decoding the first line -/

theorem decodeLoop_newline (c4 : Vector UInt8 4) (i : Fin 4)
    (out rest : Bytes) :
    decodeLoop c4 i out (newline :: rest) = decodeRest c4 i out :=
  decodeLoop_cons_of_not c4 i out (by decide) rest

/-- A group of which the line break leaves fewer than four digits. -/
theorem decodeLoop_partial (c4 : Vector UInt8 4) (out rest : Bytes)
    {d0 d1 d2 : UInt8} (h0 : d0.toNat < 64) (h1 : d1.toNat < 64)
    (h2 : d2.toNat < 64) {count : ℕ} (hcount : count < 4) :
    decodeLoop c4 0 out
        ([tab d0, tab d1, tab d2].take count ++ newline :: rest) =
      out ++ [(d0 <<< 2) + ((d1 &&& 0x30) >>> 4),
        ((d1 &&& 0xf) <<< 4) + ((d2 &&& 0x3c) >>> 2)].take (count - 1) := by
  interval_cases count
  · rw [List.take_zero, List.nil_append, decodeLoop_newline]
    simp [decodeRest]
  · rw [List.take_one, List.head?_cons, Option.toList_some,
      List.singleton_append, decodeLoop_cons_tab c4 0 out h0,
      if_neg (by decide), decodeLoop_newline]
    simp [decodeRest]
  · have hpair := decodeLoop_pair c4 out (newline :: rest) h0 h1
    rw [decodeLoop_newline] at hpair
    refine Eq.trans hpair ?_
    simp [decodeRest, c3]
  · have hpair := decodeLoop_pair c4 out (tab d2 :: newline :: rest) h0 h1
    rw [decodeLoop_cons_tab _ 2 out h2, if_neg (by decide),
      decodeLoop_newline] at hpair
    refine Eq.trans hpair ?_
    simp [decodeRest, c3]

theorem determinedBytes_of_lt {count : ℕ} (hcount : count < 4) :
    determinedBytes count = count - 1 := by
  unfold determinedBytes
  omega

theorem determinedBytes_add_four (count : ℕ) :
    determinedBytes (count + 4) = determinedBytes count + 3 := by
  unfold determinedBytes
  omega

/-- A line break inside a group of the encoding. -/
theorem decodeLoop_take_group (c4 : Vector UInt8 4) (out rest : Bytes)
    (in0 in1 in2 : UInt8) (tail : Bytes) {count : ℕ} (hcount : count < 4) :
    decodeLoop c4 0 out
        ((encode (in0 :: in1 :: in2 :: tail)).take count ++ newline :: rest) =
      out ++ [in0, in1].take (determinedBytes count) := by
  have hdigits : (encode (in0 :: in1 :: in2 :: tail)).take count =
      [tab ((in0 &&& 0xfc) >>> 2),
        tab (((in0 &&& 0x03) <<< 4) + ((in1 &&& 0xf0) >>> 4)),
        tab (((in2 &&& 0xc0) >>> 6) + ((in1 &&& 0x0f) <<< 2))].take count := by
    rw [encode]
    interval_cases count <;> rfl
  rw [hdigits, decodeLoop_partial c4 out rest (digit0_lt in0)
    (digit1_lt in0 in1) (digit2_lt in1 in2) hcount, byte0_eq, byte1_eq,
    determinedBytes_of_lt hcount]

/-- A prefix of an encoding before a line break. -/
theorem decodeLoop_take_encode (data : Bytes) (c4 : Vector UInt8 4)
    (out rest : Bytes) {count : ℕ} (hcount : count < (encode data).length) :
    decodeLoop c4 0 out ((encode data).take count ++ newline :: rest) =
      out ++ data.take (determinedBytes count) := by
  induction data using encode.induct generalizing c4 out count with
  | case1 in0 in1 in2 tail ih =>
      by_cases hlt : count < 4
      · rw [decodeLoop_take_group c4 out rest in0 in1 in2 tail hlt,
          determinedBytes_of_lt hlt]
        interval_cases count <;> rfl
      · obtain ⟨count, rfl⟩ := Nat.exists_eq_add_of_le' (not_lt.mp hlt)
        have htail : count < (encode tail).length := by
          simp only [encode, List.length_cons] at hcount
          omega
        rw [determinedBytes_add_four, encode]
        simp only [List.take_succ_cons, List.cons_append]
        rw [decodeLoop_group c4 out _ (digit0_lt in0) (digit1_lt in0 in1)
          (digit2_lt in1 in2) (digit3_lt in2), ih _ _ htail,
          List.append_assoc, byte0_eq, byte1_eq, byte2_eq]
        rfl
  | case2 in0 in1 =>
      have hlt : count < 4 := by simpa [encode] using hcount
      have hdigits : (encode [in0, in1]).take count =
          (encode [in0, in1, 0]).take count := by
        have hdigit2 := congrArg tab (digit2_zero in1)
        rw [encode, encode, hdigit2]
        interval_cases count <;> rfl
      rw [hdigits]
      exact decodeLoop_take_group c4 out rest in0 in1 0 [] hlt
  | case3 in0 =>
      have hlt : count < 4 := by simpa [encode] using hcount
      by_cases hpadding : count = 3
      · subst hpadding
        rw [encode, digit1_zero]
        refine (decodeLoop_one c4 out _ (digit0_lt in0)
          (digit1_lt in0 0)).trans ?_
        rw [byte0_eq]
        rfl
      · have hdigits : (encode [in0]).take count =
            (encode [in0, 0, 0]).take count := by
          have hdigit1 := congrArg tab (digit1_zero in0)
          rw [encode, encode, hdigit1]
          interval_cases count
          · rfl
          · rfl
          · rfl
          · exact absurd rfl hpadding
        rw [hdigits, decodeLoop_take_group c4 out rest in0 0 0 [] hlt,
          determinedBytes_of_lt hlt]
        interval_cases count
        · rfl
        · rfl
        · rfl
        · exact absurd rfl hpadding
  | case4 => simp [encode] at hcount

theorem determinedBytes_le {count length : ℕ} (hlt : count < length)
    (hgroups : length % 4 = 0) : determinedBytes count ≤ length / 4 * 3 := by
  unfold determinedBytes
  omega

theorem base64Decode_of_decode {c4 : Vector UInt8 4} {text bytes : Bytes}
    (hdecode : decode c4 text = bytes)
    (hle : bytes.length ≤ decodedSize text.length) :
    base64Decode c4 text = some bytes := by
  have hreturned : (store (resize [] (decodedSize text.length)) bytes).map
      (fun dest => resize dest bytes.length) = some bytes := by
    apply store_resize
    rw [length_resize_nil]
    exact hle
  unfold base64Decode
  rw [hdecode]
  exact hreturned

theorem length_le_intercalate {sep : UInt8} {pieces : List Bytes}
    (hsep : sep ∉ pieces.flatten) :
    pieces.flatten.length ≤ ([sep].intercalate pieces).length := by
  rw [← filter_intercalate hsep]
  exact List.length_filter_le _ _

/-- `base64_decode` gives back the bytes of the first line and drops the
others, whatever the length of the lines. -/
theorem base64Decode_withLineBreaks (c4 : Vector UInt8 4) (lineLength : ℕ)
    (data : Bytes) (hlineLength : 0 < lineLength) :
    (base64EncodeWithLineBreaks lineLength data).bind (base64Decode c4) =
      some (data.take (firstLineBytes lineLength data)) := by
  rw [base64EncodeWithLineBreaks_eq hlineLength, Option.bind_some,
    firstLineBytes]
  by_cases hle : (encode data).length ≤ lineLength
  · rw [if_pos hle, lines_of_le hle, List.intercalate_singleton,
      base64Decode_encode, List.take_length]
  · have hlt : lineLength < (encode data).length := not_le.mp hle
    have hrest := flatten_lines lineLength ((encode data).drop lineLength)
    have hothers := @length_le_intercalate newline
      (lines lineLength ((encode data).drop lineLength))
      (by
        rw [hrest]
        exact fun hmem => newline_notMem_encode data (List.mem_of_mem_drop hmem))
    rw [hrest, List.length_drop] at hothers
    rw [if_neg hle, lines_of_lt hlineLength hlt,
      List.intercalate_cons_of_ne_nil (lines_ne_nil _ _), List.append_assoc,
      List.singleton_append]
    apply base64Decode_of_decode
    · exact decodeLoop_take_encode data c4 [] _ hlt
    · have hgroups : (encode data).length % 4 = 0 := by
        rw [length_encode, encodedSize, Nat.mul_mod_right]
      have hdetermined := determinedBytes_le hlt hgroups
      rw [List.length_take, List.length_append, List.length_take,
        List.length_cons]
      unfold decodedSize
      omega

/-- The longest data that survives a round trip in a single line. -/
theorem base64Decode_pem_mime (c4 : Vector UInt8 4) (data : Bytes) :
    (base64EncodePem data).bind (base64Decode c4) = some (data.take 48) ∧
      (base64EncodeMime data).bind (base64Decode c4) =
        some (data.take 57) := by
  have hlength := length_encode data
  unfold encodedSize at hlength
  constructor
  · refine (base64Decode_withLineBreaks c4 64 data (by decide)).trans ?_
    unfold firstLineBytes
    split_ifs with hle
    · rw [List.take_length, List.take_of_length_le (by omega)]
    · rfl
  · refine (base64Decode_withLineBreaks c4 76 data (by decide)).trans ?_
    unfold firstLineBytes
    split_ifs with hle
    · rw [List.take_length, List.take_of_length_le (by omega)]
    · rfl

end Base64

end StoreCpp
