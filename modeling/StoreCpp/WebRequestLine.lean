import StoreCpp.SecureWsServer

/-!
# The request line of a handshake

`parseWebRequestLine` splits the whole request at its blanks, without regard
to the ends of its lines, and takes a part only when a further blank follows.
The third part therefore runs on into the header lines.
-/

namespace StoreCpp

/-- A text between the blanks of a request line. -/
structure LinePart where
  text : Str
  nonempty : text ≠ []
  noBlank : ' ' ∉ text
  noCr : '\r' ∉ text
  noLf : '\n' ∉ text

structure RequestLine where
  method : LinePart
  path : LinePart
  version : LinePart

/-- The request with the given header lines behind its request line. -/
def RequestLine.request (line : RequestLine) (rest : Str) : Str :=
  line.method.text ++ ' ' :: (line.path.text ++ ' ' ::
    (line.version.text ++ "\r\n".toList ++ rest))

/-- The user's request is the request line. -/
structure RequestLine.ParsedBy (line : RequestLine) (user : User) : Prop where
  method : user.req.method = line.method.text
  path : user.req.path = line.path.text
  httpVersion : user.req.httpVersion = line.version.text

/-- The header lines have no blank, and the version is that of the user's
request already. -/
structure RequestLine.VersionKept (line : RequestLine) (rest : Str)
    (user : User) : Prop where
  noBlank : ' ' ∉ rest
  httpVersion : user.req.httpVersion = line.version.text

theorem splitRequest_word {word : Str} (hword : ' ' ∉ word) (buf : Str)
    (v : List Str) (rest : Str) :
    splitRequest buf v (word ++ rest) = splitRequest (buf ++ word) v rest := by
  induction word generalizing buf with
  | nil => simp
  | cons c word ih =>
      have hc : c ≠ ' ' := fun h => hword (h ▸ List.mem_cons_self)
      have htail : ' ' ∉ word := fun h => hword (List.mem_cons_of_mem c h)
      rw [List.cons_append, splitRequest, if_pos hc, ih htail,
        List.append_assoc, List.singleton_append]

theorem splitRequest_end {word : Str} (hword : ' ' ∉ word) (buf : Str)
    (v : List Str) : splitRequest buf v word = v := by
  have hsplit := splitRequest_word hword buf v []
  rw [List.append_nil] at hsplit
  rw [hsplit]
  rfl

theorem splitRequest_blank (buf : Str) (v : List Str) (rest : Str) :
    splitRequest buf v (' ' :: rest) = splitRequest [] (v ++ [buf]) rest := by
  rw [splitRequest, if_neg (not_not_intro rfl)]

/-- The parts that are found already stay in front. -/
theorem splitRequest_front (buf : Str) (v : List Str) (text : Str) :
    ∃ later, splitRequest buf v text = v ++ later := by
  induction text generalizing buf v with
  | nil => exact ⟨[], (List.append_nil v).symm⟩
  | cons c text ih =>
      rw [splitRequest]
      split_ifs
      · exact ih (buf ++ [c]) v
      · obtain ⟨later, hlater⟩ := ih [] (v ++ [buf])
        exact ⟨buf :: later, by rw [hlater, List.append_assoc]; rfl⟩

theorem noBlank_version (line : RequestLine) :
    ' ' ∉ line.version.text ++ "\r\n".toList := by
  rw [List.mem_append]
  have hends : ' ' ∉ "\r\n".toList := by decide
  exact fun h => h.elim line.version.noBlank hends

theorem splitRequest_request (line : RequestLine) (rest : Str) :
    splitRequest [] [] (line.request rest) =
      splitRequest (line.version.text ++ "\r\n".toList)
        [line.method.text, line.path.text] rest := by
  unfold RequestLine.request
  rw [splitRequest_word line.method.noBlank, splitRequest_blank,
    splitRequest_word line.path.noBlank, splitRequest_blank,
    splitRequest_word (noBlank_version line)]
  rfl

theorem splitRequest_request_of_blank (line : RequestLine)
    {word rest : Str} (hword : ' ' ∉ word) :
    ∃ later, splitRequest [] [] (line.request (word ++ ' ' :: rest)) =
      line.method.text :: line.path.text ::
        (line.version.text ++ "\r\n".toList ++ word) :: later := by
  rw [splitRequest_request, splitRequest_word hword, splitRequest_blank]
  obtain ⟨later, hlater⟩ := splitRequest_front []
    ([line.method.text, line.path.text] ++
      [line.version.text ++ "\r\n".toList ++ word]) rest
  exact ⟨later, hlater⟩

theorem parseWebRequestLine_request (line : RequestLine) (rest : Str)
    (user : User) :
    parseWebRequestLine (line.request rest) user =
      let v := splitRequest [] [] (line.request rest)
      { user with
        req := {
          method := v[0]?.getD user.req.method
          path := v[1]?.getD user.req.path
          httpVersion := v[2]?.getD user.req.httpVersion } } := by
  have hlength : (line.request rest).length ≠ 0 := by
    simp [RequestLine.request]
  unfold parseWebRequestLine
  rw [if_neg hlength]

/-- The request of a user behind a request with a blank in its header
lines. -/
theorem parse_of_blank (line : RequestLine) {word later : Str}
    (hword : ' ' ∉ word) (user : User) :
    (parseWebRequestLine (line.request (word ++ ' ' :: later)) user).req = {
      method := line.method.text
      path := line.path.text
      httpVersion := line.version.text ++ "\r\n".toList ++ word } := by
  obtain ⟨parts, hparts⟩ :=
    @splitRequest_request_of_blank line word later hword
  rw [parseWebRequestLine_request, hparts]
  rfl

theorem parse_of_noBlank (line : RequestLine) {rest : Str}
    (hrest : ' ' ∉ rest) (user : User) :
    (parseWebRequestLine (line.request rest) user).req = {
      method := line.method.text
      path := line.path.text
      httpVersion := user.req.httpVersion } := by
  rw [parseWebRequestLine_request, splitRequest_request,
    splitRequest_end hrest]
  rfl

/-- Method and path are always those of the request line; the version is only
when it has been the user's before, and no blank follows it. -/
theorem parsedBy_iff (line : RequestLine) (rest : Str) (user : User) :
    line.ParsedBy (parseWebRequestLine (line.request rest) user) ↔
      line.VersionKept rest user := by
  by_cases hblank : ' ' ∈ rest
  · obtain ⟨word, later, hrest, hword⟩ := List.eq_append_cons_of_mem hblank
    refine iff_of_false ?_ (fun hkept => hkept.noBlank hblank)
    intro hparsed
    have hversion := hparsed.httpVersion
    rw [hrest, parse_of_blank line hword] at hversion
    have hlength := congrArg List.length hversion
    simp at hlength
  · have hreq := parse_of_noBlank line hblank user
    constructor
    · intro hparsed
      have hversion := hparsed.httpVersion
      rw [hreq] at hversion
      exact ⟨hblank, hversion⟩
    · intro hkept
      constructor
      · rw [hreq]
      · rw [hreq]
      · rw [hreq]
        exact hkept.httpVersion

def getRoot : RequestLine where
  method := ⟨"GET".toList, by decide, by decide, by decide, by decide⟩
  path := ⟨"/".toList, by decide, by decide, by decide, by decide⟩
  version := ⟨"HTTP/1.1".toList, by decide, by decide, by decide, by decide⟩

theorem getRoot_not_parsedBy :
    ¬ ∀ (line : RequestLine) (rest : Str) (user : User),
      line.ParsedBy (parseWebRequestLine (line.request rest) user) := by
  intro hclaim
  have hversion := (hclaim getRoot "Host: store\r\n\r\n".toList {}).httpVersion
  exact absurd hversion (by decide +kernel)

end StoreCpp
