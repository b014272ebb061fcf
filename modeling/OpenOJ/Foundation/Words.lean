import OpenOJ.Foundation.Lossy

/-!
# Lines, words and numbers

What a standard library makes of a line of text: its words (`splitWhitespace`), the part between the
white space around it (`trim`), the number it is the decimal notation of (`parseUnsigned`), and the
two parts around the first of some separators (`splitOnce`).

* `lines_append_crlf`: the line before a return and a feed is a line of the text;
* `splitWhitespace_append_cons`: a word without white space, and a space after it, is the first
  word;
* `parseUnsigned_digits`: digits with a value within the bound are the notation of it;
* `splitOnce_append`, `splitOnce_eq_none`: a text is taken apart at the first separator, and not at
  all without one.

White space is the Unicode one where the library's is; so a text that is not ASCII is trimmed and
split as it would be there.
-/

namespace Text

/-! ### Lines -/

theorem lines_go_append {line cs : List Char} (h : '\n' ∉ cs) (ds : List Char) :
    lines.go line (cs ++ ds) = lines.go (line ++ cs) ds := by
  induction cs generalizing line with
  | nil => rw [List.nil_append, List.append_nil]
  | cons c cs ih =>
    rw [List.mem_cons, not_or] at h
    rw [List.cons_append, lines.go, if_neg (Ne.symm h.1), ih h.2, List.append_assoc,
      List.singleton_append]

/-- A line ends with a carriage return and a line feed. -/
theorem lines_append_crlf {cs : List Char} (h : '\n' ∉ cs) (ds : List Char) :
    lines (cs ++ '\r' :: '\n' :: ds) = cs :: lines ds := by
  have hreturn : '\n' ∉ cs ++ ['\r'] := by simp [h]
  have hstrip : stripReturn (cs ++ ['\r']) = cs := by simp [stripReturn]
  rw [lines, ← List.singleton_append, ← List.append_assoc, lines_go_append hreturn, List.nil_append,
    lines.go, if_pos rfl, hstrip, lines]

/-! ### White space -/

/-- `char::is_whitespace`. -/
def isWhitespace (c : Char) : Bool :=
  let n := c.toNat
  (9 ≤ n && n ≤ 13) || n = 32 || n = 133 || n = 160 || n = 5760 || (8192 ≤ n && n ≤ 8202) ||
    n = 8232 || n = 8233 || n = 8239 || n = 8287 || n = 12288

/-- `str::trim`. -/
def trim (cs : List Char) : List Char :=
  ((cs.dropWhile isWhitespace).reverse.dropWhile isWhitespace).reverse

/-- `str::split_whitespace`. -/
def splitWhitespace (cs : List Char) : List (List Char) :=
  (cs.splitOnP isWhitespace).filter (· ≠ [])

/-- White space around a text is taken away. -/
theorem trim_append {before cs after : List Char} (hbefore : ∀ c ∈ before, isWhitespace c = true)
    (hcs : ∀ c ∈ cs, isWhitespace c = false) (hafter : ∀ c ∈ after, isWhitespace c = true) :
    trim (before ++ cs ++ after) = cs := by
  -- what is left of either end begins where the text does
  have hfront (ds : List Char) (hne : cs ≠ []) : (cs ++ ds).dropWhile isWhitespace = cs ++ ds := by
    obtain ⟨c, cs', rfl⟩ := List.exists_cons_of_ne_nil hne
    rw [List.cons_append, List.dropWhile_cons_of_neg (by simp [hcs])]
  have hback (hne : cs ≠ []) : cs.reverse.dropWhile isWhitespace = cs.reverse := by
    obtain ⟨c, cs', hrev⟩ := List.exists_cons_of_ne_nil (List.reverse_ne_nil_iff.mpr hne)
    have hc : c ∈ cs := List.mem_reverse.mp (hrev ▸ List.mem_cons_self)
    rw [hrev, List.dropWhile_cons_of_neg (by simp [hcs c hc])]
  have hafter' : ∀ c ∈ after.reverse, isWhitespace c = true := fun c hc =>
    hafter c (List.mem_reverse.mp hc)
  rw [trim, List.append_assoc, List.dropWhile_append_of_pos hbefore]
  by_cases hne : cs = []
  · have hnil := @List.dropWhile_append_of_pos _ _ after [] hafter
    rw [List.append_nil, List.dropWhile_nil] at hnil
    rw [hne, List.nil_append, hnil]
    rfl
  · rw [hfront after hne, List.reverse_append, List.dropWhile_append_of_pos hafter', hback hne,
      List.reverse_reverse]

/-- The first words of a text, each followed by a space. -/
theorem splitWhitespace_append_cons {cs : List Char} (h : ∀ c ∈ cs, isWhitespace c = false)
    (hne : cs ≠ []) {c : Char} (hc : isWhitespace c = true) (ds : List Char) :
    splitWhitespace (cs ++ c :: ds) = cs :: splitWhitespace ds := by
  rw [splitWhitespace, List.splitOnP_append_cons_of_forall_mem h c hc, List.filter_cons_of_pos]
  · rfl
  · simpa using hne

theorem splitWhitespace_of_forall {cs : List Char} (h : ∀ c ∈ cs, isWhitespace c = false)
    (hne : cs ≠ []) : splitWhitespace cs = [cs] := by
  rw [splitWhitespace, List.splitOnP_eq_singleton h, List.filter_cons_of_pos, List.filter_nil]
  simpa using hne

/-! ### Numbers -/

/-- A decimal digit. -/
def isDigit (c : Char) : Bool := '0' ≤ c && c ≤ '9'

/-- The number that digits are the decimal notation of. -/
def decimal (cs : List Char) : Nat := cs.foldl (fun n c => n * 10 + (c.toNat - 48)) 0

/-- `str::parse`, for an unsigned integer of this maximum. -/
def parseUnsigned (maximum : Nat) (cs : List Char) : Option Nat :=
  let digits := if cs.head? = some '+' then cs.tail else cs
  if digits ≠ [] ∧ digits.all isDigit ∧ decimal digits ≤ maximum then some (decimal digits)
  else none

theorem parseUnsigned_digits {maximum : Nat} {cs : List Char} (hne : cs ≠ [])
    (h : ∀ c ∈ cs, isDigit c = true) (hmax : decimal cs ≤ maximum) :
    parseUnsigned maximum cs = some (decimal cs) := by
  have hsign : cs.head? ≠ some '+' := fun hplus => by
    obtain ⟨cs', rfl⟩ := List.head?_eq_some_iff.mp hplus
    exact absurd (h '+' List.mem_cons_self) (by decide)
  rw [parseUnsigned]
  simp only [if_neg hsign]
  exact if_pos ⟨hne, List.all_eq_true.mpr h, hmax⟩

/-! ### Separators -/

/-- `str::split_once`: what is before the first separator and after it. -/
def splitOnce (separator : Char) : List Char → Option (List Char × List Char)
  | [] => none
  | c :: cs =>
    if c = separator then some ([], cs)
    else (splitOnce separator cs).map fun (before, after) => (c :: before, after)

theorem splitOnce_append {separator : Char} {before : List Char} (h : separator ∉ before)
    (after : List Char) :
    splitOnce separator (before ++ separator :: after) = some (before, after) := by
  induction before with
  | nil => exact if_pos rfl
  | cons c before ih =>
    rw [List.mem_cons, not_or] at h
    rw [List.cons_append, splitOnce, if_neg (Ne.symm h.1), ih h.2]
    rfl

theorem splitOnce_eq_none {separator : Char} {cs : List Char} (h : separator ∉ cs) :
    splitOnce separator cs = none := by
  induction cs with
  | nil => rfl
  | cons c cs ih =>
    rw [List.mem_cons, not_or] at h
    rw [splitOnce, if_neg (Ne.symm h.1), ih h.2]
    rfl

/-- A character of the text is a byte of it when it is ASCII. -/
theorem ofNat_mem_bytes {s : String} {c : Char} (hc : c ∈ s.toList) (h : c.toNat < 128) :
    UInt8.ofNat c.toNat ∈ bytes s := by
  refine List.mem_flatMap.mpr ⟨c, hc, ?_⟩
  rw [utf8EncodeChar_of_lt h]
  exact List.mem_singleton_self _

end Text
