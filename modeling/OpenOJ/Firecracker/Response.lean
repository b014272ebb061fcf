import OpenOJ.Firecracker.Api

/-!
# Responses as they are written

A response is a status line, headers of which exactly one announces the length of the body, an empty
line and the body (`Response`, `Response.bytes`). What the code has to find in these bytes, it finds
by searching: the first empty line, the header with the length, the status. The sections say in turn
that each search finds what was written:

* `position_joined`: the empty line is not found before the lines are over;
* `LengthHeader.headerLength_line`, `contentLength_head`: the length found in a head is that of the
  body, however its name is written and whatever blanks are around the number;
* `readHead_append`, `readBody_append`: the bytes that complete an empty line are taken and no
  other, and so many bytes of the body are;
* `readResponse_response`: so a response is read as a whole, and nothing of what follows it.

For any other stream, `readResponse_finish` says that the buffer stays within its bound and that
what was read without an error can be finished: the two searches for the empty line agree.

`read_response` has all of this. A `badRequest` of the API is read as the example.
-/

namespace OpenOJ.Firecracker

open Outcome Search Text

/-! ### Heads -/

/-- `\r\n`. -/
def lineEnd : List UInt8 := [13, 10]

/-- A line of a head. -/
structure IsLine (line : List UInt8) : Prop where
  nonempty : line ≠ []
  noReturn : 13 ∉ line
  noFeed : 10 ∉ line

/-- A letter in lower case. -/
def lowerByte (byte : UInt8) : UInt8 := if 65 ≤ byte ∧ byte ≤ 90 then byte + 32 else byte

/-- `content-length`. -/
def lengthName : List UInt8 := [99, 111, 110, 116, 101, 110, 116, 45, 108, 101, 110, 103, 116, 104]

/-- A header of this name, in any case. -/
def IsLengthName (name : List UInt8) : Prop := name.map lowerByte = lengthName

instance (name : List UInt8) : Decidable (IsLengthName name) := inferInstanceAs (Decidable (_ = _))

/-- A line is a header that announces a length. -/
def Announces (line : List UInt8) : Prop :=
  ∃ name value, line = name ++ 58 :: value ∧ IsLengthName name

def IsBlank (byte : UInt8) : Prop := byte = 32 ∨ byte = 9

def IsDigitByte (byte : UInt8) : Prop := 48 ≤ byte ∧ byte ≤ 57

instance (byte : UInt8) : Decidable (IsBlank byte) := inferInstanceAs (Decidable (_ ∨ _))

instance (byte : UInt8) : Decidable (IsDigitByte byte) := inferInstanceAs (Decidable (_ ∧ _))

/-- The number that digits are the decimal notation of. -/
def number (digits : List UInt8) : Nat := digits.foldl (fun n byte => n * 10 + (byte.toNat - 48)) 0

/-- A `Content-Length` header, with blanks around the number. -/
structure LengthHeader where
  name : List UInt8
  before : List UInt8
  digits : List UInt8
  after : List UInt8
  named : IsLengthName name
  blankBefore : ∀ byte ∈ before, IsBlank byte
  blankAfter : ∀ byte ∈ after, IsBlank byte
  nonempty : digits ≠ []
  numeric : ∀ byte ∈ digits, IsDigitByte byte

def LengthHeader.line (header : LengthHeader) : List UInt8 :=
  header.name ++ 58 :: (header.before ++ header.digits ++ header.after)

/-- A response as it is written. -/
structure Response where
  code : List UInt8
  /-- What follows the code: nothing, or a space and a text. -/
  reason : List UInt8
  before : List (List UInt8)
  length : LengthHeader
  after : List (List UInt8)
  body : List UInt8
  threeDigits : code.length = 3 ∧ ∀ byte ∈ code, IsDigitByte byte
  spaced : reason = [] ∨ reason.head? = some 32
  noEnd : 13 ∉ reason ∧ 10 ∉ reason
  lines : ∀ line ∈ before ++ after, IsLine line ∧ ¬Announces line
  announced : number length.digits = body.length

/-- `HTTP/1.1`. -/
def httpVersion : List UInt8 := [72, 84, 84, 80, 47, 49, 46, 49]

/-- The status line. -/
def Response.statusLine (response : Response) : List UInt8 :=
  httpVersion ++ 32 :: (response.code ++ response.reason)

def Response.headers (response : Response) : List (List UInt8) :=
  response.before ++ response.length.line :: response.after

/-- All before the body: the lines, each with its end, and an empty line. -/
def Response.head (response : Response) : List UInt8 :=
  (response.statusLine :: response.headers).flatMap (· ++ lineEnd) ++ lineEnd

def Response.bytes (response : Response) : List UInt8 := response.head ++ response.body

def Response.status (response : Response) : Nat := number response.code

/-! ### Lines -/

/-- Lines, with an end between any two of them. -/
def joined : List UInt8 → List (List UInt8) → List UInt8
  | line, [] => line
  | line, next :: lines => line ++ 13 :: 10 :: joined next lines

theorem flatMap_lineEnd (line : List UInt8) (lines : List (List UInt8)) :
    (line :: lines).flatMap (· ++ lineEnd) ++ lineEnd = joined line lines ++ emptyLine := by
  induction lines generalizing line with
  | nil => simp [joined, lineEnd, emptyLine]
  | cons next lines ih =>
    rw [List.flatMap_cons, List.append_assoc, ih, joined]
    simp [lineEnd]

theorem joined_eq_cons {line : List UInt8} (h : line ≠ []) (lines : List (List UInt8)) :
    ∃ byte ∈ line, ∃ rest, joined line lines = byte :: rest := by
  obtain ⟨byte, line, rfl⟩ := List.exists_cons_of_ne_nil h
  cases lines with
  | nil => exact ⟨byte, List.mem_cons_self, line, rfl⟩
  | cons next lines => exact ⟨byte, List.mem_cons_self, _, rfl⟩

/-- The end of a line with another one after it is not passed for an empty line. -/
private theorem position_lineEnd {byte : UInt8} (h : byte ≠ 13) (rest : List UInt8) :
    position emptyLine (13 :: 10 :: byte :: rest) =
      (position emptyLine (byte :: rest)).map (2 + ·) := by
  have hreturn : ¬emptyLine <+: 13 :: 10 :: byte :: rest := by simp [emptyLine, h.symm]
  have hfeed : ¬emptyLine <+: 10 :: byte :: rest := by simp [emptyLine]
  rw [position_cons hreturn, position_cons hfeed, Option.map_map]
  refine congrArg (fun f => Option.map f _) (funext fun n => ?_)
  exact Nat.add_comm n 2

/-- **The empty line** is not found before the lines are over. -/
theorem position_joined {line : List UInt8} {lines : List (List UInt8)}
    (h : ∀ line' ∈ line :: lines, IsLine line') (more : List UInt8) :
    position emptyLine (joined line lines ++ (emptyLine ++ more)) =
      some (joined line lines).length := by
  induction lines generalizing line with
  | nil =>
    have hfound : position emptyLine (emptyLine ++ more) = some 0 :=
      position_of_prefix (List.prefix_append _ _)
    rw [joined, emptyLine, position_skip (h line List.mem_cons_self).noReturn, ← emptyLine, hfound]
    rfl
  | cons next lines ih =>
    rw [List.forall_mem_cons] at h
    have hnext := h.2 next List.mem_cons_self
    have hih := ih h.2
    -- the next line does not begin with a carriage return
    obtain ⟨byte, hbyte, rest, hrest⟩ := joined_eq_cons hnext.nonempty lines
    have hne : byte ≠ 13 := fun heq => hnext.noReturn (heq ▸ hbyte)
    rw [hrest, List.cons_append] at hih
    rw [joined, List.append_assoc, emptyLine, position_skip h.1.noReturn, ← emptyLine, hrest,
      List.cons_append, List.cons_append, List.cons_append, position_lineEnd hne, hih]
    simp only [Option.map_some, List.length_append, List.length_cons]
    exact congrArg some (by omega)

/-! ### Announced lengths -/

private theorem toLower_ofNat :
    ∀ byte : UInt8, byte < 128 →
      (Char.ofNat byte.toNat).toLower = Char.ofNat (lowerByte byte).toNat :=
  forall_byte.mpr (by decide +kernel)

private theorem lt_of_lowerByte_lt {byte : UInt8} (h : lowerByte byte < 128) : byte < 128 := by
  unfold lowerByte at h
  split_ifs at h with hupper
  · exact UInt8.lt_of_le_of_lt hupper.2 (by decide)
  · exact h

private theorem lt_of_toLower_lt {c : Char} (h : c.toLower.toNat < 128) : c.toNat < 128 := by
  unfold Char.toLower at h
  split_ifs at h with hupper
  · exact Nat.lt_of_le_of_lt hupper.2 (by decide)
  · exact h

/-- A name is that of the length in bytes exactly when it is in the text. -/
theorem isLengthName_iff {name : List UInt8} :
    IsLengthName name ↔ (fromUtf8Lossy name).map Char.toLower = "content-length".toList := by
  have hname : lengthName.map (fun byte => Char.ofNat byte.toNat) = "content-length".toList := by
    decide +kernel
  have hascii : ∀ byte ∈ lengthName, byte < 128 := by simp [lengthName]
  have hlower (h : ∀ byte ∈ name, byte < 128) : (fromUtf8Lossy name).map Char.toLower =
      (name.map lowerByte).map fun byte => Char.ofNat byte.toNat := by
    rw [fromUtf8Lossy_ascii h, List.map_map, List.map_map]
    exact List.map_congr_left fun byte hbyte => toLower_ofNat byte (h byte hbyte)
  constructor
  · intro h
    have hlt : ∀ byte ∈ name, byte < 128 := fun byte hbyte =>
      lt_of_lowerByte_lt (hascii _ (h ▸ List.mem_map_of_mem hbyte))
    rw [hlower hlt, h, hname]
  · intro h
    have hchars : ∀ c ∈ "content-length".toList, c.toNat < 128 := by
      simp only [← hname, List.forall_mem_map, lengthName]
      simp
    have hlt : ∀ byte ∈ name, byte < 128 := lt_of_fromUtf8Lossy_lt fun c hc =>
      lt_of_toLower_lt (hchars _ (h ▸ List.mem_map_of_mem hc))
    rw [hlower hlt, ← hname] at h
    exact List.map_injective_iff.mpr ofNat_byte_injective h

private theorem findIdx?_colon {cs : List Char} (h : ':' ∉ cs) :
    cs.findIdx? (· = ':') = none := by
  refine List.findIdx?_eq_none_iff.mpr fun c hc => ?_
  rw [decide_eq_false_iff_not]
  rintro rfl
  exact h hc

/-- What a line with a colon announces. -/
theorem headerLength_colon {name value : List UInt8} (h : 58 ∉ name) :
    headerLength (fromUtf8Lossy (name ++ 58 :: value)) =
      if (fromUtf8Lossy name).map Char.toLower ≠ "content-length".toList then none
      else parseUnsigned usizeMax (trim (fromUtf8Lossy value)) := by
  have hcolon : ':' ∉ fromUtf8Lossy name := @not_mem_fromUtf8Lossy _ 58 (by decide) h
  have hsplit : fromUtf8Lossy (name ++ 58 :: value) =
      fromUtf8Lossy name ++ ':' :: fromUtf8Lossy value :=
    fromUtf8Lossy_append_cons (by decide) _ _
  have hindex : (fromUtf8Lossy name ++ ':' :: fromUtf8Lossy value).findIdx? (· = ':') =
      some (fromUtf8Lossy name).length := by
    rw [List.findIdx?_append, findIdx?_colon hcolon, List.findIdx?_cons,
      if_pos (decide_eq_true rfl)]
    simp
  have hdrop : (fromUtf8Lossy name ++ ':' :: fromUtf8Lossy value).drop
      ((fromUtf8Lossy name).length + 1) = fromUtf8Lossy value := by
    rw [List.drop_append]
    simp
  rw [headerLength, hsplit, hindex, Option.bind_eq_bind, Option.bind_some, List.take_left, hdrop]

/-- A line that announces no length has none. -/
theorem headerLength_of_not_announces {line : List UInt8} (h : ¬Announces line) :
    headerLength (fromUtf8Lossy line) = none := by
  by_cases hcolon : 58 ∈ line
  · obtain ⟨name, value, rfl, hname⟩ := List.eq_append_cons_of_mem hcolon
    rw [headerLength_colon hname, if_pos]
    exact fun heq => h ⟨name, value, rfl, isLengthName_iff.mpr heq⟩
  · have hnone := findIdx?_colon (@not_mem_fromUtf8Lossy _ 58 (by decide) hcolon)
    rw [headerLength, hnone]
    rfl

private theorem isWhitespace_ofNat :
    ∀ byte : UInt8, (IsBlank byte → isWhitespace (Char.ofNat byte.toNat) = true) ∧
      (IsDigitByte byte → isWhitespace (Char.ofNat byte.toNat) = false ∧
        isDigit (Char.ofNat byte.toNat) = true ∧ byte < 128) := by
  unfold IsBlank IsDigitByte
  exact forall_byte.mpr (by decide +kernel)

theorem decimal_digits (digits : List UInt8) :
    decimal (digits.map fun byte => Char.ofNat byte.toNat) = number digits := by
  rw [decimal, number, List.foldl_map]
  simp only [toNat_ofNat_byte]

/-- Digits are read as the number they stand for. -/
theorem parseUnsigned_number {maximum : Nat} {digits : List UInt8} (hne : digits ≠ [])
    (h : ∀ byte ∈ digits, IsDigitByte byte) (hmax : number digits ≤ maximum) :
    parseUnsigned maximum (digits.map fun byte => Char.ofNat byte.toNat) =
      some (number digits) := by
  have hdigits : ∀ c ∈ digits.map (fun byte => Char.ofNat byte.toNat), isDigit c = true := by
    intro c hc
    obtain ⟨byte, hbyte, rfl⟩ := List.mem_map.mp hc
    exact ((isWhitespace_ofNat byte).2 (h byte hbyte)).2.1
  rw [parseUnsigned_digits (by simpa using hne) hdigits (by rwa [decimal_digits]), decimal_digits]

theorem LengthHeader.noColon (header : LengthHeader) : 58 ∉ header.name := by
  intro hmem
  have hlower : lowerByte 58 ∈ lengthName := header.named ▸ List.mem_map_of_mem hmem
  exact absurd hlower (by decide)

/-- **A length** is announced in any case, and with any blanks around it. -/
theorem LengthHeader.headerLength_line (header : LengthHeader)
    (h : number header.digits ≤ usizeMax) :
    headerLength (fromUtf8Lossy header.line) = some (number header.digits) := by
  have hascii : ∀ byte ∈ header.before ++ header.digits ++ header.after, byte < 128 := by
    intro byte hbyte
    simp only [List.mem_append] at hbyte
    rcases hbyte with (hbyte | hbyte) | hbyte
    · rcases header.blankBefore byte hbyte with rfl | rfl <;> decide
    · exact ((isWhitespace_ofNat byte).2 (header.numeric byte hbyte)).2.2
    · rcases header.blankAfter byte hbyte with rfl | rfl <;> decide
  have hblank {blanks : List UInt8} (hblanks : ∀ byte ∈ blanks, IsBlank byte) :
      ∀ c ∈ blanks.map (fun byte => Char.ofNat byte.toNat), isWhitespace c = true := by
    intro c hc
    obtain ⟨byte, hbyte, rfl⟩ := List.mem_map.mp hc
    exact (isWhitespace_ofNat byte).1 (hblanks byte hbyte)
  have hdigits : ∀ c ∈ header.digits.map (fun byte => Char.ofNat byte.toNat),
      isWhitespace c = false := by
    intro c hc
    obtain ⟨byte, hbyte, rfl⟩ := List.mem_map.mp hc
    exact ((isWhitespace_ofNat byte).2 (header.numeric byte hbyte)).1
  rw [LengthHeader.line, headerLength_colon header.noColon,
    if_neg (not_not.mpr (isLengthName_iff.mp header.named)), fromUtf8Lossy_ascii hascii,
    List.map_append, List.map_append, trim_append (hblank header.blankBefore) hdigits
      (hblank header.blankAfter), parseUnsigned_number header.nonempty header.numeric h]

/-! ### The lines of a head -/

/-- The lines of a text are those it was joined from. -/
theorem lines_flatMap {lines : List (List UInt8)} (h : ∀ line ∈ lines, 10 ∉ line)
    (more : List UInt8) :
    Text.lines (fromUtf8Lossy (lines.flatMap (· ++ lineEnd) ++ more)) =
      lines.map fromUtf8Lossy ++ Text.lines (fromUtf8Lossy more) := by
  induction lines with
  | nil => rfl
  | cons line lines ih =>
    rw [List.forall_mem_cons] at h
    have hfeed : '\n' ∉ fromUtf8Lossy line := @not_mem_fromUtf8Lossy _ 10 (by decide) h.1
    have hend : fromUtf8Lossy (line ++ 13 :: 10 :: (lines.flatMap (· ++ lineEnd) ++ more)) =
        fromUtf8Lossy line ++ '\r' :: '\n' ::
          fromUtf8Lossy (lines.flatMap (· ++ lineEnd) ++ more) := by
      rw [fromUtf8Lossy_append_cons (by decide), fromUtf8Lossy_cons_of_lt (by decide)]
      rfl
    rw [List.map_cons, List.cons_append, ← ih h.2, ← lines_append_crlf hfeed, ← hend]
    simp [lineEnd]

namespace Response

variable (response : Response)

theorem isLine_length : IsLine response.length.line := by
  obtain ⟨name, before, digits, after, hnamed, hbefore, hafter, -, hnumeric⟩ := response.length
  have hname (byte : UInt8) (h : lowerByte byte ∉ lengthName) : byte ∉ name :=
    fun hmem => h (hnamed ▸ List.mem_map_of_mem hmem)
  have hvalue (byte : UInt8) (h : ¬IsBlank byte) (h' : ¬IsDigitByte byte) :
      byte ∉ before ++ digits ++ after := by
    simp only [List.mem_append, not_or]
    exact ⟨⟨fun hmem => h (hbefore _ hmem), fun hmem => h' (hnumeric _ hmem)⟩,
      fun hmem => h (hafter _ hmem)⟩
  have hend (byte : UInt8) (hcolon : byte ≠ 58) (h : lowerByte byte ∉ lengthName)
      (hblank : ¬IsBlank byte) (hdigit : ¬IsDigitByte byte) :
      byte ∉ name ++ 58 :: (before ++ digits ++ after) := by
    rw [List.mem_append, List.mem_cons, not_or, not_or]
    exact ⟨hname byte h, hcolon, hvalue byte hblank hdigit⟩
  refine ⟨by simp [LengthHeader.line], hend 13 (by decide) ?_ ?_ ?_, hend 10 (by decide) ?_ ?_ ?_⟩
  all_goals decide

theorem isLine_statusLine : IsLine response.statusLine := by
  have hcode (byte : UInt8) (h : ¬IsDigitByte byte) : byte ∉ response.code := fun hmem =>
    h (response.threeDigits.2 _ hmem)
  have hend (byte : UInt8) (hversion : byte ∉ httpVersion ++ [32])
      (hdigit : ¬IsDigitByte byte) (hreason : byte ∉ response.reason) :
      byte ∉ response.statusLine := by
    rw [statusLine, ← List.singleton_append, ← List.append_assoc]
    simp only [List.mem_append, not_or] at hversion ⊢
    exact ⟨hversion, hcode byte hdigit, hreason⟩
  exact ⟨by simp [statusLine], hend 13 (by decide) (by decide) response.noEnd.1,
    hend 10 (by decide) (by decide) response.noEnd.2⟩

theorem isLine (line : List UInt8) (h : line ∈ response.statusLine :: response.headers) :
    IsLine line := by
  rw [headers, List.mem_cons, List.mem_append, List.mem_cons] at h
  rcases h with rfl | h | rfl | h
  · exact response.isLine_statusLine
  · exact (response.lines line (List.mem_append_left _ h)).1
  · exact response.isLine_length
  · exact (response.lines line (List.mem_append_right _ h)).1

theorem statusLine_not_announces : ¬Announces response.statusLine := by
  rintro ⟨name, value, hline, hname⟩
  rw [statusLine, httpVersion, List.cons_append] at hline
  rw [IsLengthName, lengthName] at hname
  cases name with
  | nil => cases hname
  | cons byte name =>
    -- the first letters differ
    obtain rfl := (List.cons.inj hline).1
    exact absurd (List.cons.inj hname).1 (by decide)

/-- **The length** found in a head is that of the body. -/
theorem contentLength_head (h : response.body.length ≤ usizeMax) :
    contentLength response.head = some response.body.length := by
  have hnone : ∀ line ∈ response.statusLine :: response.before,
      headerLength (fromUtf8Lossy line) = none := by
    intro line hline
    refine headerLength_of_not_announces ?_
    rcases List.mem_cons.mp hline with rfl | hline
    · exact response.statusLine_not_announces
    · exact (response.lines line (List.mem_append_left _ hline)).2
  have hfeed : ∀ line ∈ response.statusLine :: response.headers, 10 ∉ line := fun line hline =>
    (response.isLine line hline).noFeed
  have hlength := response.length.headerLength_line (by rwa [response.announced])
  have hbefore : ((response.statusLine :: response.before).map fromUtf8Lossy).findSome?
      headerLength = none := by
    rw [List.findSome?_eq_none_iff]
    intro line hline
    obtain ⟨line, hmem, rfl⟩ := List.mem_map.mp hline
    exact hnone line hmem
  have hsplit : (response.statusLine :: response.headers).map fromUtf8Lossy =
      (response.statusLine :: response.before).map fromUtf8Lossy ++
        fromUtf8Lossy response.length.line :: response.after.map fromUtf8Lossy := by
    simp [headers]
  rw [contentLength, head, lines_flatMap hfeed, hsplit, List.append_assoc, List.findSome?_append,
    hbefore, Option.none_or, List.cons_append, List.findSome?_cons, hlength, response.announced]

/-- The lines of the head, as far as the empty line. -/
def lead : List UInt8 := joined response.statusLine response.headers

theorem head_eq : response.head = response.lead ++ emptyLine := flatMap_lineEnd _ _

/-- The empty line is where the lines end, whatever the body looks like. -/
theorem position_head (more : List UInt8) :
    position emptyLine (response.head ++ more) = some response.lead.length := by
  rw [head_eq, List.append_assoc]
  exact position_joined response.isLine more

/-- No part of a head holds an empty line. -/
theorem position_part {part : List UInt8} (h : part <+: response.head)
    (hne : part ≠ response.head) :
    position emptyLine part = none := by
  obtain ⟨rest, hrest⟩ := h
  have hfound := response.position_head []
  rw [List.append_nil, ← hrest] at hfound
  refine position_eq_none_of_append hfound ?_
  have hlength := congrArg List.length hrest
  have hrest' : rest ≠ [] := by
    rintro rfl
    exact hne (by rw [← hrest, List.append_nil])
  have hpos := List.length_pos_iff.mpr hrest'
  have hlead : (part ++ rest).length = response.lead.length + emptyLine.length := by
    rw [hrest, head_eq, List.length_append]
  rw [List.length_append] at hlead
  omega

/-- Three digits fit into sixteen bits. -/
theorem status_le : response.status ≤ 65535 := by
  obtain ⟨hlength, hdigits⟩ := response.threeDigits
  obtain ⟨a, b, c, hcode⟩ := List.length_eq_three.mp hlength
  simp only [hcode, List.mem_cons, List.not_mem_nil, or_false, forall_eq_or_imp, forall_eq]
    at hdigits
  have ha : a.toNat ≤ 57 := hdigits.1.2
  have hb : b.toNat ≤ 57 := hdigits.2.1.2
  have hc : c.toNat ≤ 57 := hdigits.2.2.2
  simp only [status, number, hcode, List.foldl]
  omega

/-- The code is the second word of the first line. -/
theorem status_lead :
    ((Text.lines (fromUtf8Lossy response.lead)).head?.bind fun line =>
      (splitWhitespace line)[1]?.bind (parseUnsigned 65535)).getD 0 = response.status := by
  have hfeed : '\n' ∉ fromUtf8Lossy response.statusLine :=
    @not_mem_fromUtf8Lossy _ 10 (by decide) response.isLine_statusLine.noFeed
  have hne : response.code ≠ [] := by
    have hlength := response.threeDigits.1
    rintro hnil
    rw [hnil] at hlength
    cases hlength
  have hascii : ∀ byte ∈ response.code, byte < 128 := fun byte hbyte =>
    ((isWhitespace_ofNat byte).2 (response.threeDigits.2 byte hbyte)).2.2
  have hblank : ∀ c ∈ response.code.map (fun byte => Char.ofNat byte.toNat),
      isWhitespace c = false := by
    intro c hc
    obtain ⟨byte, hbyte, rfl⟩ := List.mem_map.mp hc
    exact ((isWhitespace_ofNat byte).2 (response.threeDigits.2 byte hbyte)).1
  -- the first line of the head is the status line
  have hfirst : (Text.lines (fromUtf8Lossy response.lead)).head? =
      some (fromUtf8Lossy response.statusLine) := by
    obtain ⟨next, lines, hheaders⟩ : ∃ next lines, response.headers = next :: lines :=
      List.exists_cons_of_ne_nil (by simp [headers])
    rw [lead, hheaders, joined, fromUtf8Lossy_append_cons (by decide),
      fromUtf8Lossy_cons_of_lt (by decide)]
    exact congrArg List.head? (lines_append_crlf hfeed _)
  -- its second word is the code, whether a reason follows or not
  have hcode : (splitWhitespace (fromUtf8Lossy response.statusLine))[1]? =
      some (response.code.map fun byte => Char.ofNat byte.toNat) := by
    have hascii' : ∀ byte ∈ httpVersion, byte < 128 := by simp [httpVersion]
    have hversion : ∀ c ∈ fromUtf8Lossy httpVersion, isWhitespace c = false := by
      rw [fromUtf8Lossy_ascii hascii', List.forall_mem_map]
      simp [httpVersion, isWhitespace]
    rw [statusLine, fromUtf8Lossy_append_cons (by decide), fromUtf8Lossy_append hascii,
      splitWhitespace_append_cons hversion
        (by rw [fromUtf8Lossy_ascii hascii']; simp [httpVersion]) (by decide)]
    rcases response.spaced with hreason | hreason
    · rw [hreason, fromUtf8Lossy, List.append_nil,
        splitWhitespace_of_forall hblank (by simpa using hne)]
      rfl
    · obtain ⟨reason, hreason⟩ := List.head?_eq_some_iff.mp hreason
      rw [hreason, fromUtf8Lossy_cons_of_lt (by decide),
        splitWhitespace_append_cons hblank (by simpa using hne) (by decide)]
      rfl
  rw [hfirst, Option.bind_some, hcode, Option.bind_some,
    parseUnsigned_number hne response.threeDigits.2 response.status_le]
  rfl

end Response

/-! ### Readers -/

/-- A reader after some more bytes. -/
def BoundedReader.Extends (out next : BoundedReader) (bytes : List UInt8) : Prop :=
  next.buffer = out.buffer ++ bytes ∧ next.maximum = out.maximum

theorem BoundedReader.push_of_room {out : BoundedReader} (h : out.buffer.length < out.maximum)
    (byte : UInt8) : ∃ next, out.push byte = .ok next ∧ out.Extends next [byte] := by
  refine ⟨_, dif_neg (Nat.not_le.mpr h), rfl, rfl⟩

theorem BoundedReader.push_eq_ok {out next : BoundedReader} {byte : UInt8}
    (h : out.push byte = .ok next) : out.Extends next [byte] := by
  unfold push at h
  split_ifs at h
  obtain rfl := Except.ok.inj h
  exact ⟨rfl, rfl⟩

/-- **Reading a head**: the bytes that complete an empty line are taken, and no other. -/
theorem readHead_append {bytes : List UInt8} (hne : bytes ≠ []) {out : BoundedReader}
    (hroom : (out.buffer ++ bytes).length ≤ out.maximum)
    (hshort : (out.buffer ++ bytes).length ≤ 16 * 1024)
    (hfound : (position emptyLine (out.buffer ++ bytes)).isSome)
    (hfirst : ∀ part, part <+: bytes → part ≠ bytes →
      position emptyLine (out.buffer ++ part) = none)
    (more : List UInt8) :
    ∃ next, readHead (bytes ++ more) out = (.ok (), next, more) ∧ out.Extends next bytes := by
  induction bytes generalizing out with
  | nil => exact absurd rfl hne
  | cons byte bytes ih =>
    rw [List.length_append, List.length_cons] at hroom hshort
    have hspace : out.buffer.length < out.maximum := by omega
    obtain ⟨next, hpush, hbuffer, hmaximum⟩ := BoundedReader.push_of_room hspace byte
    rw [List.cons_append, readHead, hpush]
    dsimp only
    have hlonger : out.buffer ++ byte :: bytes = next.buffer ++ bytes := by
      rw [hbuffer, List.append_assoc, List.singleton_append]
    by_cases hlast : bytes = []
    · -- the last byte completes the empty line
      subst hlast
      rw [hlonger, List.append_nil] at hfound
      rw [if_pos hfound]
      exact ⟨next, rfl, hbuffer, hmaximum⟩
    · -- no part of the head ends with the empty line, so the loop goes on
      have hnone : position emptyLine next.buffer = none := by
        rw [hbuffer]
        refine hfirst [byte] (List.prefix_append [byte] bytes) fun heq => hlast ?_
        exact (List.cons.inj heq).2.symm
      have hlength : next.buffer.length ≤ 16 * 1024 := by
        rw [hbuffer, List.length_append, List.length_singleton]
        omega
      rw [hnone, if_neg (by simp), if_neg (Nat.not_lt.mpr hlength)]
      have hnext : (next.buffer ++ bytes).length = out.buffer.length + (bytes.length + 1) := by
        rw [← hlonger, List.length_append, List.length_cons]
      obtain ⟨last, hread, hlastBuffer, hlastMaximum⟩ := ih hlast
        (by rw [hnext, hmaximum]; exact hroom) (by rw [hnext]; exact hshort) (hlonger ▸ hfound)
        fun part hpart hpartial => by
          have hsplit : next.buffer ++ part = out.buffer ++ byte :: part := by
            rw [hbuffer, List.append_assoc, List.singleton_append]
          rw [hsplit]
          refine hfirst (byte :: part) (List.cons_prefix_cons.mpr ⟨rfl, hpart⟩) fun heq => ?_
          exact hpartial (List.cons.inj heq).2
      refine ⟨last, hread, ?_, hlastMaximum.trans hmaximum⟩
      rw [hlastBuffer, hlonger]

/-- **Reading a body**: so many bytes are taken, and no other. -/
theorem readBody_append (bytes : List UInt8) {out : BoundedReader}
    (hroom : (out.buffer ++ bytes).length ≤ out.maximum) (more : List UInt8) :
    ∃ next, readBody bytes.length (bytes ++ more) out = (.ok (), next, more) ∧
      out.Extends next bytes := by
  induction bytes generalizing out with
  | nil => exact ⟨out, rfl, (List.append_nil _).symm, rfl⟩
  | cons byte bytes ih =>
    rw [List.length_append, List.length_cons] at hroom
    have hspace : out.buffer.length < out.maximum := by omega
    obtain ⟨next, hpush, hbuffer, hmaximum⟩ := BoundedReader.push_of_room hspace byte
    have hlonger : next.buffer ++ bytes = out.buffer ++ byte :: bytes := by
      rw [hbuffer, List.append_assoc, List.singleton_append]
    have hroom' : (next.buffer ++ bytes).length ≤ next.maximum := by
      rw [hlonger, hmaximum, List.length_append, List.length_cons]
      exact hroom
    obtain ⟨last, hread, hlastBuffer, hlastMaximum⟩ := ih hroom'
    refine ⟨last, ?_, by rw [hlastBuffer, hlonger], hlastMaximum.trans hmaximum⟩
    rw [List.length_cons, List.cons_append, readBody, hpush]
    exact hread

/-! ### Any stream -/

/-- What reading a head leaves: a head that is taken holds an empty line. -/
theorem readHead_found (stream : List UInt8) (out : BoundedReader) :
    (readHead stream out).2.1.maximum = out.maximum ∧
      ((readHead stream out).1 = .ok () →
        (position emptyLine (readHead stream out).2.1.buffer).isSome) := by
  induction stream generalizing out with
  | nil => exact ⟨rfl, by rintro ⟨⟩⟩
  | cons byte stream ih =>
    rw [readHead]
    rcases hpush : out.push byte with error | next
    · exact ⟨rfl, by rintro ⟨⟩⟩
    · dsimp only
      obtain ⟨-, hmaximum⟩ := BoundedReader.push_eq_ok hpush
      split_ifs with hfound hlong
      · exact ⟨hmaximum, fun _ => hfound⟩
      · exact ⟨hmaximum, by rintro ⟨⟩⟩
      · exact ⟨(ih next).1.trans hmaximum, (ih next).2⟩

/-- Reading a body adds to the buffer. -/
theorem readBody_found (remaining : Nat) (stream : List UInt8) (out : BoundedReader) :
    (readBody remaining stream out).2.1.maximum = out.maximum ∧
      out.buffer <+: (readBody remaining stream out).2.1.buffer := by
  induction remaining generalizing stream out with
  | zero => exact ⟨rfl, List.prefix_refl _⟩
  | succ remaining ih =>
    cases stream with
    | nil => exact ⟨rfl, List.prefix_refl _⟩
    | cons byte stream =>
      rw [readBody]
      rcases hpush : out.push byte with error | next
      · exact ⟨rfl, List.prefix_refl _⟩
      · obtain ⟨hbuffer, hmaximum⟩ := BoundedReader.push_eq_ok hpush
        obtain ⟨hsame, hgrown⟩ := ih stream next
        refine ⟨hsame.trans hmaximum, List.IsPrefix.trans ?_ hgrown⟩
        rw [hbuffer]
        exact List.prefix_append _ _

/-- A buffer that holds an empty line can be finished. -/
theorem BoundedReader.finish_isSome {out : BoundedReader}
    (h : (position emptyLine out.buffer).isSome) : out.finish.isSome := by
  obtain ⟨index, hindex⟩ := Option.isSome_iff_exists.mp h
  have hfits : index + 4 ≤ out.buffer.length := position_add_length_le hindex
  rw [finish, hindex]
  dsimp only [Option.getD_some]
  rw [if_pos hfits]
  rfl

/-- **Whatever is read**: the buffer stays within its bound, and what was read without an error can
be finished. -/
theorem readResponse_finish (stream : List UInt8) (maximum : Nat) :
    (readResponse stream (.new maximum)).2.1.buffer.length ≤ maximum ∧
      ((readResponse stream (.new maximum)).1 = .ok () →
        (readResponse stream (.new maximum)).2.1.finish.isSome) := by
  obtain ⟨hmaximum, hfound⟩ := readHead_found stream (.new maximum)
  have hbounded (out : BoundedReader) (h : out.maximum = maximum) : out.buffer.length ≤ maximum :=
    h ▸ out.bounded
  rcases hhead : readHead stream (.new maximum) with ⟨error | ⟨⟩, out, rest⟩
  · rw [readResponse, hhead]
    rw [hhead] at hmaximum
    exact ⟨hbounded out hmaximum, by rintro ⟨⟩⟩
  · rw [hhead] at hmaximum hfound
    have hout := hfound rfl
    rw [readResponse, hhead]
    dsimp only at hmaximum hout ⊢
    rcases contentLength out.buffer with _ | length
    · exact ⟨hbounded out hmaximum, fun _ => BoundedReader.finish_isSome hout⟩
    · dsimp only
      split_ifs with hlong
      · exact ⟨hbounded out hmaximum, by rintro ⟨⟩⟩
      · obtain ⟨hsame, more, hmore⟩ := readBody_found length rest out
        refine ⟨hbounded _ (hsame.trans hmaximum), fun _ => BoundedReader.finish_isSome ?_⟩
        obtain ⟨index, hindex⟩ := Option.isSome_iff_exists.mp hout
        rw [← hmore, position_append_of_some hindex]
        rfl

/-! ### Responses -/

/-- **A response** is read as a whole, and nothing of what follows it. -/
theorem readResponse_response (response : Response) (more : List UInt8)
    (hhead : response.head.length ≤ 16 * 1024) (htotal : response.bytes.length ≤ maxApiBody) :
    ∃ out, readResponse (response.bytes ++ more) (.new maxApiBody) = (.ok (), out, more) ∧
      out.finish = some (response.status, response.body) := by
  have hroom : response.head.length + response.body.length ≤ maxApiBody := by
    rwa [Response.bytes, List.length_append] at htotal
  have hfound := response.position_head []
  rw [List.append_nil] at hfound
  have hne : response.head ≠ [] := by
    rw [response.head_eq]
    simp [emptyLine]
  have hheadRoom : response.head.length ≤ maxApiBody := Nat.le_trans (Nat.le_add_right _ _) hroom
  obtain ⟨out, hread, hbuffer, hmaximum⟩ := @readHead_append _ hne (.new maxApiBody) hheadRoom hhead
    (Option.isSome_iff_exists.mpr ⟨_, hfound⟩)
    (fun part hpart hpartial => response.position_part hpart hpartial) (response.body ++ more)
  change out.buffer = response.head at hbuffer
  change out.maximum = maxApiBody at hmaximum
  have hmax : maxApiBody ≤ usizeMax := by decide
  have hlength := response.contentLength_head (by omega)
  have hbodyRoom : (out.buffer ++ response.body).length ≤ out.maximum := by
    rw [hbuffer, hmaximum, List.length_append]
    exact hroom
  obtain ⟨last, hreadBody, hlast, -⟩ := readBody_append response.body hbodyRoom more
  refine ⟨last, ?_, ?_⟩
  · have hannounced : ¬out.maximum - out.buffer.length < response.body.length := by
      rw [List.length_append] at hbodyRoom
      omega
    rw [readResponse, Response.bytes, List.append_assoc, hread]
    dsimp only
    rw [hbuffer, hlength]
    dsimp only
    rw [← hbuffer, if_neg hannounced, hreadBody]
  · -- the buffer is searched again, and the empty line is found where the head ended
    have hindex : position emptyLine last.buffer = some response.lead.length := by
      rw [hlast, hbuffer, response.position_head]
    have htake : last.buffer.take response.lead.length = response.lead := by
      rw [hlast, hbuffer, response.head_eq, List.append_assoc, List.take_left]
    have hdrop : last.buffer.drop (response.lead.length + 4) = response.body := by
      rw [hlast, hbuffer]
      refine List.drop_left' ?_
      rw [response.head_eq, List.length_append]
      rfl
    have hfits : response.lead.length + 4 ≤ last.buffer.length := position_add_length_le hindex
    rw [BoundedReader.finish, hindex]
    dsimp only [Option.getD_some]
    rw [if_pos hfits, htake, hdrop, response.status_lead]

/-- **Responses of the control API.** A response that is well formed is read as a whole, whatever
follows it, and finished with its code and its body; of any stream no more than the maximum is
buffered, and what is read without an error can be finished. -/
theorem read_response :
    (∀ (response : Response) (more : List UInt8), response.head.length ≤ 16 * 1024 →
      response.bytes.length ≤ maxApiBody →
        ∃ out, readResponse (response.bytes ++ more) (.new maxApiBody) = (.ok (), out, more) ∧
          out.finish = some (response.status, response.body)) ∧
    ∀ (stream : List UInt8) (maximum : Nat),
      (readResponse stream (.new maximum)).2.1.buffer.length ≤ maximum ∧
        ((readResponse stream (.new maximum)).1 = .ok () →
          (readResponse stream (.new maximum)).2.1.finish.isSome) :=
  ⟨readResponse_response, readResponse_finish⟩

/-- A refusal, of which the body looks like the end of a head. -/
def badRequest : Response where
  code := [52, 48, 48]
  reason := [32, 66, 97, 100]
  before := [[83, 101, 114, 118, 101, 114]]
  length :=
    { name := [67, 111, 110, 116, 101, 110, 116, 45, 76, 69, 78, 71, 84, 72]
      before := [32]
      digits := [48, 52]
      after := [9]
      named := by decide
      blankBefore := by simp [IsBlank]
      blankAfter := by simp [IsBlank]
      nonempty := nofun
      numeric := by simp [IsDigitByte] }
  after := []
  body := emptyLine
  threeDigits := by simp [IsDigitByte]
  spaced := .inr rfl
  noEnd := by decide
  lines := by
    intro line hline
    obtain rfl := List.mem_singleton.mp hline
    refine ⟨⟨nofun, by decide, by decide⟩, ?_⟩
    rintro ⟨name, value, hsplit, -⟩
    have hcolon : (58 : UInt8) ∈ [83, 101, 114, 118, 101, 114] := hsplit ▸ by simp
    exact absurd hcolon (by decide)
  announced := rfl

theorem read_response_badRequest :
    ∃ out, readResponse (badRequest.bytes ++ [13]) (.new maxApiBody) = (.ok (), out, [13]) ∧
      out.finish = some (badRequest.status, badRequest.body) :=
  read_response.1 badRequest [13] (by decide) (by decide)

end OpenOJ.Firecracker
