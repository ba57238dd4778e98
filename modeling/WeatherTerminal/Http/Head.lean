import WeatherTerminal.Http.Body
import WeatherTerminal.Http.Search
/-!
# HTTP — the head of a reply

A head is a status line and fields. Read from any segments, it leaves its
lines in the header buffer (`readHead_eq`), and the status, the length of
the body and the framing in the session (`handleResponse_head`). The search
for the end of the status stays in the copy of the line exactly when a
blank stands behind the status (`statusCode_eq_error_iff`).
-/

namespace WeatherTerminal

namespace Http

open Segment

/-! ## Heads -/

/-- A field of a head: a name without a colon and a value, neither with a NUL
or a line feed in it. -/
structure Field where
  name : List UInt8
  value : List UInt8
  name_ne : name ≠ []
  name_clean : Clean name
  no_colon : 58 ∉ name
  value_clean : Clean value
  /-- The blanks before a value are not part of it. -/
  value_start : value.head?.all (!isBlank ·)

/-- The line of a field: its name, a colon, a blank and its value. -/
def Field.line (f : Field) : List UInt8 := f.name ++ 58 :: 32 :: f.value

/-- The head of a reply: its version, its code, its reason and its fields. -/
structure Head where
  /-- The `x` of `HTTP/1.x`. -/
  version : UInt8
  code : ℕ
  reason : List UInt8
  fields : List Field
  version_clean : Clean [version]
  code_lt : code < 2 ^ 31
  reason_clean : Clean reason

namespace Head

/-- The status line, such as `HTTP/1.1 200 OK`. -/
def status (h : Head) : List UInt8 :=
  utf8 "HTTP/1." ++ h.version :: 32 :: (Numeral.numeral 10 h.code ++ 32 :: h.reason)

/-- The lines of a head: its status line, and a line for each of its fields.
-/
def lines (h : Head) : List (List UInt8) := h.status :: h.fields.map Field.line

/-- The head as it is sent, each line with its CR LF, and an empty one behind
them. -/
def text (h : Head) : List UInt8 := h.lines.flatMap (· ++ crlf) ++ crlf

/-- The value of a field: of the first whose name starts with the one
looked for, in either case. -/
def get (h : Head) (name : List UInt8) : Option (List UInt8) :=
  (h.fields.find? fun f => StartsWith name f.name).map Field.value

/-- The head fits a header buffer: its lines, each with a NUL behind it, and
the end of the last line. -/
def Fits (h : Head) (size : ℕ) : Prop := (stored h.lines).length + 2 ≤ size

end Head

variable {size : ℕ} {net : List Segment} {rest : List UInt8} {head : Head} {name : List UInt8}

theorem clean_append {a b : List UInt8} (ha : Clean a) (hb : Clean b) : Clean (a ++ b) :=
  ⟨fun h => (List.mem_append.mp h).elim ha.1 hb.1, fun h => (List.mem_append.mp h).elim ha.2 hb.2⟩

/-- A clean byte before a clean text leaves it clean. -/
theorem clean_cons {c : UInt8} {b : List UInt8} (hc : Clean [c]) (hb : Clean b) : Clean (c :: b) :=
  clean_append hc hb

theorem clean_numeral (n : ℕ) : Clean (Numeral.numeral 10 n) := by
  constructor <;> intro h <;>
    exact absurd (Numeral.digitVal_of_mem_numeral (by decide) (by decide) _ h) (by decide)

/-- The line of a field is clean, for its name and its value are. -/
theorem clean_line (f : Field) : Clean f.line :=
  clean_append f.name_clean (clean_cons (by decide) (clean_cons (by decide) f.value_clean))

theorem clean_status (h : Head) : Clean h.status :=
  clean_append (by decide) (clean_cons h.version_clean (clean_cons (by decide)
    (clean_append (clean_numeral h.code) (clean_cons (by decide) h.reason_clean))))

/-- The lines of a head are lines: none of them is empty, and none has a NUL
or a line feed in it. -/
theorem lines_ok (h : Head) : ∀ l ∈ h.lines, l ≠ [] ∧ Clean l := by
  intro l hl
  rcases List.mem_cons.mp hl with rfl | hl
  · exact ⟨List.append_ne_nil_of_left_ne_nil (by decide) _, clean_status h⟩
  · obtain ⟨f, -, rfl⟩ := List.mem_map.mp hl
    exact ⟨List.append_ne_nil_of_left_ne_nil f.name_ne _, clean_line f⟩

/-! ## Reading the lines -/

/-- Another line takes its own bytes and one for the NUL. -/
theorem length_stored_cons (l : List UInt8) (ls : List (List UInt8)) :
    (stored (l :: ls)).length = l.length + 1 + (stored ls).length := by
  rw [stored, List.flatMap_cons, List.length_append, List.length_append, List.length_singleton]
  rfl

/-- One line goes into the buffer, its CR replaced by a NUL. -/
theorem readHead_line {h : Header size} {line : List UInt8} {k : ℕ} {done : List UInt8}
    (hline : line ≠ []) (hfeed : 10 ∉ line) (hb : h.buffer.bytes = done ++ List.replicate k 0)
    (hlen : h.length = done.length) (hroom : line.length + 1 < k)
    (hready : ready net = line ++ crlf ++ rest) :
    ∃ buffer : Block size, ∃ net', readHead h net =
        readHead ⟨buffer, (done ++ (line ++ [0])).length⟩ net' ∧
      buffer.bytes = (done ++ (line ++ [0])) ++ List.replicate (k - (line.length + 1)) 0 ∧
      ready net' = rest ∧ later net' = later net := by
  have hsize : size = done.length + k := by
    rw [← h.buffer.length_eq, hb, List.length_append, List.length_replicate]
  obtain ⟨net', hread, hnet'⟩ := readLine_eq (size - h.length) hfeed (by omega) hready
  have hzeros : h.buffer.bytes = done ++ List.replicate (line ++ [13]).length 0 ++
      List.replicate (k - (line.length + 1)) 0 := by
    rw [hb, List.append_assoc, ← List.replicate_add, List.length_append, List.length_singleton,
      Nat.add_sub_cancel' (by omega)]
  have hone : (h.buffer.storeAll h.length (line ++ [13])).bytes =
      (done ++ line) ++ 13 :: List.replicate (k - (line.length + 1)) 0 := by
    rw [hlen, Block.bytes_storeAll hzeros List.length_replicate.symm]
    simp
  refine ⟨(h.buffer.storeAll h.length (line ++ [13])).store (done ++ line).length 0, net', ?_, ?_,
    hnet'⟩
  · have hnot : ¬ ((line.length : ℤ) + 1 = 1 ∧ line ++ [13] = [13]) := by
      rintro ⟨h0, -⟩
      exact hline (List.length_eq_zero_iff.mp (by omega))
    have hstop : h.length + ((line.length : ℤ) + 1).toNat - 1 = (done ++ line).length := by
      rw [List.length_append]
      omega
    have hnext : h.length + ((line.length : ℤ) + 1).toNat = (done ++ (line ++ [0])).length := by
      rw [List.length_append, List.length_append, List.length_singleton]
      omega
    rw [readHead, hread]
    simp only
    rw [if_neg (by omega), if_neg hnot, hstop, hnext, if_neg]
    rw [List.length_append, List.length_append, List.length_singleton]
    omega
  · rw [Block.bytes_store hone]
    simp

/-- **A head, however it arrives, is in the buffer line by line.** -/
theorem readHead_eq {ls : List (List UInt8)} {h : Header size} {k : ℕ} {done : List UInt8}
    (hls : ∀ l ∈ ls, l ≠ [] ∧ Clean l) (hb : h.buffer.bytes = done ++ List.replicate k 0)
    (hlen : h.length = done.length) (hroom : (stored ls).length + 2 ≤ k)
    (hready : ready net = ls.flatMap (· ++ crlf) ++ crlf ++ rest) :
    ∃ buffer : Block size, ∃ net',
      readHead h net = ⟨false, 1, ⟨buffer, (done ++ stored ls).length⟩, net'⟩ ∧
      (∃ post, buffer.bytes = (done ++ stored ls) ++ 0 :: post) ∧ ready net' = rest ∧
      later net' = later net := by
  induction ls generalizing h net k done with
  | nil =>
      have hsize : size = done.length + k := by
        rw [← h.buffer.length_eq, hb, List.length_append, List.length_replicate]
      obtain ⟨k, rfl⟩ : ∃ j, k = j + 2 := ⟨k - 2, by omega⟩
      have hready' : ready net = [] ++ crlf ++ rest := hready
      obtain ⟨net', hread, hnet'⟩ := readLine_eq (size - h.length)
        List.not_mem_nil (by rw [List.length_nil]; omega) hready'
      have hone : (h.buffer.storeAll h.length ([] ++ [13])).bytes =
          done ++ 13 :: List.replicate (k + 1) 0 := by
        have hsplit : h.buffer.bytes = done ++ [0] ++ List.replicate (k + 1) 0 := by
          rw [hb, List.replicate_succ, List.append_assoc]
          rfl
        have hwidth : ([] ++ [13] : List UInt8).length = [(0 : UInt8)].length := rfl
        rw [hlen, Block.bytes_storeAll hsplit hwidth]
        simp
      refine ⟨(h.buffer.storeAll h.length ([] ++ [13])).store h.length 0, net', ?_,
        ⟨List.replicate (k + 1) 0, ?_⟩, hnet'⟩
      · rw [readHead, hread]
        simp [hlen, stored]
      · rw [hlen] at hone ⊢
        rw [Block.bytes_store hone]
        simp [stored]
  | cons line ls ih =>
      obtain ⟨hne, -, hfeed⟩ := hls line List.mem_cons_self
      rw [length_stored_cons] at hroom
      have hready' : ready net = line ++ crlf ++ (ls.flatMap (· ++ crlf) ++ crlf ++ rest) := by
        rw [hready, List.flatMap_cons]
        simp
      obtain ⟨buffer, net₁, hstep, hb₁, hready₁, hlater₁⟩ :=
        readHead_line hne hfeed hb hlen (by omega) hready'
      have hroom' : (stored ls).length + 2 ≤ k - (line.length + 1) := by omega
      obtain ⟨buffer', net₂, hrest, ⟨post, hb₂⟩, hready₂, hlater₂⟩ := ih
        (h := ⟨buffer, (done ++ (line ++ [0])).length⟩)
        (fun l hl => hls l (List.mem_cons_of_mem line hl)) hb₁ rfl hroom' hready₁
      have hstored : done ++ (line ++ [0]) ++ stored ls = done ++ stored (line :: ls) := by
        rw [stored, stored, List.flatMap_cons, List.append_assoc]
      exact ⟨buffer', net₂, by rw [hstep, hrest, hstored], ⟨post, by rw [hb₂, hstored]⟩, hready₂,
        hlater₂.trans hlater₁⟩

/-! ## Looking up its fields -/

theorem toLower_eq_colon {c : UInt8} : toLower c = 58 ↔ c = 58 := by
  have hall : ∀ k < 256, toLower (UInt8.ofNat k) = 58 ↔ UInt8.ofNat k = 58 := by decide +kernel
  have := hall c.toNat c.toNat_lt
  rwa [UInt8.ofNat_toNat] at this

/-- A name without a colon that starts the line of a field starts its
name. -/
theorem startsWith_line {f : Field} (hcolon : 58 ∉ name) :
    StartsWith name f.line ↔ StartsWith name f.name := by
  have hline : f.line.map toLower =
      f.name.map toLower ++ 58 :: (32 :: f.value).map toLower := by
    rw [Field.line, List.map_append, List.map_cons, toLower_eq_colon.mpr rfl]
  constructor
  · intro h
    rw [StartsWith, hline] at h
    rcases List.prefix_or_prefix_of_prefix h (List.prefix_append _ _) with hin | ⟨q, hq⟩
    · exact hin
    · -- the colon would be part of the name
      rw [← hq, List.prefix_append_right_inj] at h
      rcases q with - | ⟨c, q⟩
      · rw [StartsWith, ← hq, List.append_nil]
      · obtain ⟨rfl, -⟩ := List.cons_prefix_cons.mp h
        have hmem : (58 : UInt8) ∈ name.map toLower := by
          rw [← hq]
          simp
        obtain ⟨d, hd, hd'⟩ := List.mem_map.mp hmem
        exact absurd (toLower_eq_colon.mp hd' ▸ hd) hcolon
  · intro h
    rw [StartsWith, hline]
    exact h.trans (List.prefix_append _ _)

/-- What stands behind the colon and the blanks of a field's line is its
value. -/
theorem valueOf_line (f : Field) : valueOf f.line = f.value := by
  have hne : ∀ c ∈ f.name, decide (c ≠ 58) = true := fun c hc =>
    decide_eq_true fun h0 => f.no_colon (h0 ▸ hc)
  have hcut : f.line.dropWhile (· ≠ 58) = 58 :: 32 :: f.value := by
    rw [Field.line, List.dropWhile_append_of_pos hne]
    exact List.dropWhile_cons_of_neg (by simp)
  rw [valueOf, hcut, List.drop_succ_cons, List.drop_zero, List.dropWhile_cons_of_pos (by decide)]
  rcases hv : f.value with - | ⟨c, v⟩
  · rfl
  · have hc := f.value_start
    rw [hv] at hc
    exact List.dropWhile_cons_of_neg (by simpa using hc)

/-- Among the lines of the fields the first is found whose name starts with
the one that is looked up. -/
theorem fieldOf_fields (fields : List Field) (hcolon : 58 ∉ name) :
    fieldOf name (fields.map Field.line) =
      (fields.find? fun f => StartsWith name f.name).map Field.value := by
  induction fields with
  | nil => rfl
  | cons f fields ih =>
      have hmem : 58 ∈ f.line := List.mem_append_right _ List.mem_cons_self
      rw [List.map_cons, fieldOf, List.find?_cons]
      by_cases h : StartsWith name f.name
      · rw [if_pos ⟨(startsWith_line hcolon).mpr h, hmem⟩, decide_eq_true h, valueOf_line]
        rfl
      · rw [if_neg fun h0 => h ((startsWith_line hcolon).mp h0.1), decide_eq_false h, ih]

/-- A field is looked up behind the status line, where that does not start
with its name. -/
theorem fieldOf_lines (hcolon : 58 ∉ name) (hfirst : ¬ StartsWith name head.status) :
    fieldOf name head.lines = head.get name := by
  rw [Head.lines, fieldOf, if_neg fun h => hfirst h.1, fieldOf_fields _ hcolon]
  rfl

/-- A status line starts with the `H` of its protocol. -/
theorem status_cons (h : Head) : ∃ tail, h.status = 72 :: tail := ⟨_, rfl⟩

/-- A name that does not start with an `h` is not found in the status line. -/
theorem not_startsWith_status {c : UInt8} (hc : toLower c ≠ 104) :
    ¬ StartsWith (c :: name) head.status := by
  obtain ⟨tail, htail⟩ := status_cons head
  rw [StartsWith, htail, List.map_cons, List.map_cons, List.cons_prefix_cons]
  exact fun h => hc h.1

/-! ## The status -/

/-- **The search for the end of the status leaves the copy of the line**
where no blank stands behind the status. -/
theorem statusCode_eq_error_iff {line : List UInt8} :
    statusCode line = .error .overread ↔
      ((line.drop 8).dropWhile isBlank).all (!isBlank ·) = true := by
  have hany : (((line ++ [0]).drop 8).dropWhile isBlank).any isBlank =
      ((line.drop 8).dropWhile isBlank).any isBlank := by
    rcases Nat.lt_or_ge line.length 8 with hlt | hge
    · rw [List.drop_eq_nil_of_le (by rw [List.length_append, List.length_singleton]; omega),
        List.drop_eq_nil_of_le (by omega)]
    · rw [List.drop_append_of_le_length hge, List.dropWhile_append]
      split
      · rename_i hempty
        rw [List.isEmpty_iff.mp hempty]
        rfl
      · rw [List.any_append]
        exact Bool.or_false _
  simp only [statusCode, hany]
  rw [List.all_eq_not_any_not]
  simp only [Bool.not_not]
  cases ((line.drop 8).dropWhile isBlank).any isBlank <;> simp

/-- The code is read from the status line of a head. -/
theorem statusCode_status (h : Head) : statusCode h.status = .ok h.code := by
  have hafter : (h.status ++ [0]).drop 8 =
      32 :: (Numeral.numeral 10 h.code ++ 32 :: (h.reason ++ [0])) := by
    have hfront : h.status ++ [0] = (utf8 "HTTP/1." ++ [h.version]) ++
        32 :: (Numeral.numeral 10 h.code ++ 32 :: (h.reason ++ [0])) := by
      simp [Head.status]
    rw [hfront]
    exact List.drop_left' rfl
  have hdigit : ∀ c ∈ Numeral.numeral 10 h.code, isBlank c = false := by
    intro c hc
    have := Numeral.digitVal_of_mem_numeral (by decide) (by decide) c hc
    rw [isBlank, Bool.or_eq_false_iff, decide_eq_false_iff_not, decide_eq_false_iff_not]
    constructor <;> rintro rfl <;> exact absurd this (by decide)
  obtain ⟨c, cs, hnum, -⟩ := Numeral.exists_cons_numeral (n := h.code) (show 1 < 10 by decide)
    (by decide)
  have hptr : ((h.status ++ [0]).drop 8).dropWhile isBlank =
      Numeral.numeral 10 h.code ++ 32 :: (h.reason ++ [0]) := by
    have hc := hdigit c (by rw [hnum]; exact List.mem_cons_self)
    rw [hafter, List.dropWhile_cons_of_pos (by decide), hnum, List.cons_append,
      List.dropWhile_cons_of_neg (by rw [hc]; exact Bool.false_ne_true)]
  have hany : (Numeral.numeral 10 h.code ++ 32 :: (h.reason ++ [0])).any isBlank = true := by
    simp [isBlank]
  have htake : (Numeral.numeral 10 h.code ++ 32 :: (h.reason ++ [0])).takeWhile (!isBlank ·) =
      Numeral.numeral 10 h.code := by
    rw [List.takeWhile_append_of_pos fun c hc => by rw [hdigit c hc]; rfl]
    simp [isBlank]
  have hread : Numeral.strtol 10 (Numeral.numeral 10 h.code) = h.code := by
    have hstop : Numeral.Stops [] := fun c hc => by cases hc
    have := Numeral.strtol_numeral (show 1 < 10 by decide) (by decide) h.code_lt hstop
    rwa [List.append_nil] at this
  simp only [statusCode, hptr, hany, if_true, htake, hread]

/-! ## The response -/

/-- The session a head leaves, before the first chunk: its code, the length of
the body where the head gives one, and all of that still to come. -/
def Head.session (h : Head) (s : Session) (net : List Segment) : Session :=
  let contentLength := (h.get (utf8 "Content-Length")).elim s.contentLength (Numeral.strtol 10 ·)
  { s with
    net := net
    respStatus := h.code
    contentLength := contentLength
    contentRemainder := if contentLength ≠ 0 then (contentLength % 2 ^ 32).toNat else 0xFFFFFFFF }

/-- The body comes in chunks, as the field `Transfer-Encoding` of the head
says. -/
def Head.Chunked (h : Head) : Prop := h.get (utf8 "Transfer-Encoding") = some (utf8 "chunked")

instance (h : Head) : Decidable h.Chunked := inferInstanceAs (Decidable (_ = _))

variable {s : Session}

/-- The header holds the lines of that head, each ended by a NUL, and knows
their length. -/
structure HeaderOf (h : Header size) (head : Head) : Prop where
  bytes : ∃ post, h.buffer.bytes = stored head.lines ++ 0 :: post
  length : h.length = (stored head.lines).length

/-- Its fields are found. Their names do not start as the status line. -/
theorem HeaderOf.get {h : Header size} {c : UInt8} (hh : HeaderOf h head) (hc : toLower c ≠ 104)
    (hname : 0 ∉ c :: name) (hcolon : 58 ∉ c :: name) :
    (headerFieldsGet h (c :: name)).map h.buffer.cstr = head.get (c :: name) := by
  obtain ⟨⟨post, hb⟩, hlen⟩ := hh
  rw [headerFieldsGet_eq hname (List.cons_ne_nil c name)
      (fun l hl => ⟨(lines_ok head l hl).1, (lines_ok head l hl).2.1⟩) hb hlen,
    fieldOf_lines hcolon (not_startsWith_status hc)]

/-- The length of the body is the number in the field `Content-Length`, or
what it was before. -/
theorem HeaderOf.lengthField {h : Header size} (hh : HeaderOf h head) (contentLength : ℤ) :
    lengthField h contentLength =
      (head.get (utf8 "Content-Length")).elim contentLength (Numeral.strtol 10 ·) := by
  have hget : (headerFieldsGet h (utf8 "Content-Length")).map h.buffer.cstr =
      head.get (utf8 "Content-Length") :=
    hh.get (c := 67) (by decide) (by decide) (by decide)
  rw [Http.lengthField, ← hget]
  cases headerFieldsGet h (utf8 "Content-Length") <;> rfl

/-- Whether the body comes in chunks is what the head says of it. -/
theorem HeaderOf.isChunked {h : Header size} (hh : HeaderOf h head) :
    isChunked h = decide head.Chunked := by
  have hget : (headerFieldsGet h (utf8 "Transfer-Encoding")).map h.buffer.cstr =
      head.get (utf8 "Transfer-Encoding") :=
    hh.get (c := 84) (by decide) (by decide) (by decide)
  simp only [Http.isChunked, Head.Chunked, ← hget]
  cases headerFieldsGet h (utf8 "Transfer-Encoding") <;> simp

/-- The buffer starts with the status line of the head. -/
theorem HeaderOf.status {h : Header size} (hh : HeaderOf h head) :
    h.buffer.cstr 0 = head.status := by
  obtain ⟨⟨post, hb⟩, -⟩ := hh
  have hfirst : h.buffer.bytes =
      [] ++ (head.status ++ 0 :: (stored (head.fields.map Field.line) ++ 0 :: post)) := by
    rw [hb, Head.lines, stored, List.flatMap_cons, stored]
    simp
  exact Block.cstr_eq (clean_status head).1 hfirst

/-- **What a head says is in the session**, and the body is next. -/
theorem handleResponse_head (line : Block 16) (hfits : head.Fits size)
    (hready : ready s.net = head.text ++ rest) :
    ∃ net, ∃ h : Header size, HeaderOf h head ∧ ready net = rest ∧ later net = later s.net ∧
      handleResponse s size true line = .ok
        (if head.Chunked then
          ⟨head.code, (firstChunk (head.session s net) size line).1, h,
            (firstChunk (head.session s net) size line).2⟩
        else ⟨head.code, head.session s net, h, line⟩) := by
  have hwire : ready s.net = head.lines.flatMap (· ++ crlf) ++ crlf ++ rest := by
    rw [hready, Head.text]
  have hcleared : (Block.filled size 0).bytes = [] ++ List.replicate size 0 := rfl
  obtain ⟨buffer, net, hread, hb, hnet, hlater⟩ := readHead_eq
    (h := ⟨Block.filled size 0, 0⟩) (lines_ok head) hcleared rfl hfits hwire
  have hh : HeaderOf ⟨buffer, ([] ++ stored head.lines).length⟩ head := ⟨hb, rfl⟩
  have hhttp : (strstr (utf8 "HTTP/1.") head.status).isSome = true := rfl
  refine ⟨net, ⟨buffer, ([] ++ stored head.lines).length⟩, hh, hnet, hlater, ?_⟩
  rw [handleResponse]
  simp only [hread, hh.status, hhttp, statusCode_status, hh.lengthField, hh.isChunked,
    if_true, Bool.false_eq_true, if_false, Bool.true_eq_false, decide_eq_true_eq,
    if_neg (show ¬ (1 : ℤ) < 0 by decide)]
  split <;> rfl

end Http

end WeatherTerminal
