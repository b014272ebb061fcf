import OpenOJ.Foundation.Text

/-!
# Text out of arbitrary bytes

`fromUtf8Lossy` reads bytes as UTF-8 with a replacement character for every maximal ill-formed part,
as a standard library does: the length of an ill-formed part is decided by the first byte and by how
far what follows could still continue it (`isSecondOfThree`, `isSecondOfFour`). `lines` are the
lines of a text, without the feed that ends each of them and a return before it.

On ASCII both do what one expects:

* `fromUtf8Lossy_ascii`: every byte is its own character;
* `fromUtf8Lossy_append_cons`: an ASCII byte ends what came before it and is never part of an
  ill-formed sequence, so a text can be cut there, and `fromUtf8Lossy_append` cuts it after ASCII;
* `utf8_fromUtf8Lossy`: what was written as UTF-8 is read as what it was;
* `lines_of_no_feed`: a text without feeds is one line.

Of the other characters only one thing is needed: a character that was not ASCII was not made of
ASCII (`exists_of_mem_fromUtf8Lossy`, `lt_of_fromUtf8Lossy_lt`). With it, what is looked for in a
text (a colon, a space, a digit) can be looked for in the bytes.
-/

namespace Text

/-- U+FFFD. -/
def replacement : Char := '\uFFFD'

def isContinuation (b : UInt8) : Bool := 128 ≤ b && b ≤ 191

/-- What may follow the first byte of three. -/
def isSecondOfThree (first second : UInt8) : Bool :=
  if first = 224 then 160 ≤ second && second ≤ 191
  else if first = 237 then 128 ≤ second && second ≤ 159
  else isContinuation second

/-- What may follow the first byte of four. -/
def isSecondOfFour (first second : UInt8) : Bool :=
  if first = 240 then 144 ≤ second && second ≤ 191
  else if first = 244 then 128 ≤ second && second ≤ 143
  else isContinuation second

/-- The character of a first byte, less its tag, and the bytes that continue it. -/
def charOfBytes (first : Nat) (rest : List UInt8) : Char :=
  Char.ofNat (rest.foldl (fun n b => n * 64 + (b.toNat - 128)) first)

/-- `String::from_utf8_lossy`, as characters. -/
def fromUtf8Lossy : List UInt8 → List Char
  | [] => []
  | a :: rest =>
    if a < 128 then Char.ofNat a.toNat :: fromUtf8Lossy rest
    else if 194 ≤ a ∧ a ≤ 223 then
      match rest with
      | [] => [replacement]
      | b :: rest =>
        if isContinuation b then charOfBytes (a.toNat - 192) [b] :: fromUtf8Lossy rest
        else replacement :: fromUtf8Lossy (b :: rest)
    else if 224 ≤ a ∧ a ≤ 239 then
      match rest with
      | [] => [replacement]
      | b :: rest =>
        if isSecondOfThree a b then
          match rest with
          | [] => [replacement]
          | c :: rest =>
            if isContinuation c then charOfBytes (a.toNat - 224) [b, c] :: fromUtf8Lossy rest
            else replacement :: fromUtf8Lossy (c :: rest)
        else replacement :: fromUtf8Lossy (b :: rest)
    else if 240 ≤ a ∧ a ≤ 244 then
      match rest with
      | [] => [replacement]
      | b :: rest =>
        if isSecondOfFour a b then
          match rest with
          | [] => [replacement]
          | c :: rest =>
            if isContinuation c then
              match rest with
              | [] => [replacement]
              | d :: rest =>
                if isContinuation d then
                  charOfBytes (a.toNat - 240) [b, c, d] :: fromUtf8Lossy rest
                else replacement :: fromUtf8Lossy (d :: rest)
            else replacement :: fromUtf8Lossy (c :: rest)
        else replacement :: fromUtf8Lossy (b :: rest)
    else replacement :: fromUtf8Lossy rest

/-! ### ASCII -/

theorem toNat_ofNat_byte (b : UInt8) : (Char.ofNat b.toNat).toNat = b.toNat := by
  have hvalid : b.toNat.isValidChar := .inl (Nat.lt_trans b.toNat_lt (by decide))
  rw [Char.ofNat, dif_pos hvalid]
  rfl

theorem ofNat_byte_injective : Function.Injective fun b : UInt8 => Char.ofNat b.toNat :=
  fun a b h => UInt8.toNat_inj.mp (by
    have htoNat := congrArg Char.toNat h
    simpa only [toNat_ofNat_byte] using htoNat)

/-- Bytes below 128 are characters. -/
theorem fromUtf8Lossy_ascii {bs : List UInt8} (h : ∀ b ∈ bs, b < 128) :
    fromUtf8Lossy bs = bs.map fun b => Char.ofNat b.toNat := by
  induction bs with
  | nil => rfl
  | cons b bs ih =>
    rw [List.forall_mem_cons] at h
    rw [fromUtf8Lossy.eq_def]
    simp only [h.1, if_true, ih h.2, List.map_cons]

/-- ASCII bytes are the encoding of the characters they are read as. -/
theorem utf8_fromUtf8Lossy {bs : List UInt8} (h : ∀ b ∈ bs, b < 128) :
    utf8 (fromUtf8Lossy bs) = bs := by
  rw [fromUtf8Lossy_ascii h]
  induction bs with
  | nil => rfl
  | cons b bs ih =>
    rw [List.forall_mem_cons] at h
    have hb : b.toNat < 128 := h.1
    have hcode := toNat_ofNat_byte b
    have hlt : (Char.ofNat b.toNat).toNat < 128 := by rw [hcode]; exact hb
    rw [List.map_cons, utf8_cons, ih h.2, utf8EncodeChar_of_lt hlt, hcode, UInt8.ofNat_toNat]
    rfl

/-- An ASCII byte continues nothing. -/
theorem not_continues_of_lt {a b : UInt8} (hb : b < 128) :
    isContinuation b = false ∧ isSecondOfThree a b = false ∧ isSecondOfFour a b = false := by
  have hlow (n : UInt8) (hn : 128 ≤ n) : ¬n ≤ b := fun h =>
    absurd (UInt8.lt_of_lt_of_le hb (UInt8.le_trans hn h)) (UInt8.lt_irrefl b)
  unfold isSecondOfThree isSecondOfFour isContinuation
  refine ⟨?_, ?_, ?_⟩
  · simp [hlow 128]
  · simp [hlow 128, hlow 160]
  · simp [hlow 128, hlow 144]

/-- **An ASCII byte ends what came before it**: it is never part of an ill-formed sequence. -/
theorem fromUtf8Lossy_append_cons {b : UInt8} (hb : b < 128) (as bs : List UInt8) :
    fromUtf8Lossy (as ++ b :: bs) = fromUtf8Lossy as ++ Char.ofNat b.toNat :: fromUtf8Lossy bs := by
  have hbreak : fromUtf8Lossy (b :: bs) = Char.ofNat b.toNat :: fromUtf8Lossy bs := by
    rw [fromUtf8Lossy.eq_def]
    exact if_pos hb
  have hcontinuation : isContinuation b = false := (@not_continues_of_lt b b hb).1
  have hthree (a : UInt8) : isSecondOfThree a b = false := (not_continues_of_lt hb).2.1
  have hfour (a : UInt8) : isSecondOfFour a b = false := (not_continues_of_lt hb).2.2
  fun_induction fromUtf8Lossy as with
  | case1 => exact hbreak
  | _ =>
    simp only [List.cons_append, List.nil_append] at *
    rw [fromUtf8Lossy.eq_def]
    simp [*]

/-! ### Characters that are not ASCII -/

private theorem le_toNat_ofNat {n : Nat} (hvalid : n.isValidChar) (h : 128 ≤ n) :
    128 ≤ (Char.ofNat n).toNat := by
  rw [Char.ofNat, dif_pos hvalid]
  exact h

private theorem isContinuation_iff {b : UInt8} :
    isContinuation b = true ↔ 128 ≤ b.toNat ∧ b.toNat ≤ 191 := by
  simp [isContinuation, UInt8.le_iff_toNat_le]

/-- A sequence of two bytes stands for a character that is not ASCII. -/
private theorem le_charOfBytes_two {a b : UInt8} (ha : 194 ≤ a ∧ a ≤ 223)
    (hb : isContinuation b = true) : 128 ≤ (charOfBytes (a.toNat - 192) [b]).toNat := by
  have hlow : 194 ≤ a.toNat := ha.1
  have hhigh : a.toNat ≤ 223 := ha.2
  obtain ⟨hlow', hhigh'⟩ := isContinuation_iff.mp hb
  refine le_toNat_ofNat (.inl ?_) ?_
  · simp only [List.foldl]
    omega
  · simp only [List.foldl]
    omega

/-- So does one of three, which is no surrogate. -/
private theorem le_charOfBytes_three {a b c : UInt8} (ha : 224 ≤ a ∧ a ≤ 239)
    (hb : isSecondOfThree a b = true) (hc : isContinuation c = true) :
    128 ≤ (charOfBytes (a.toNat - 224) [b, c]).toNat := by
  have hlow : 224 ≤ a.toNat := ha.1
  have hhigh : a.toNat ≤ 239 := ha.2
  obtain ⟨hleast, hmost⟩ := isContinuation_iff.mp hc
  have hsecond : 128 ≤ b.toNat ∧ b.toNat ≤ 191 ∧ (a.toNat = 224 → 160 ≤ b.toNat) ∧
      (a.toNat = 237 → b.toNat ≤ 159) := by
    unfold isSecondOfThree isContinuation at hb
    split_ifs at hb with h224 h237
    all_goals simp [UInt8.le_iff_toNat_le, ← UInt8.toNat_inj] at hb h224
    · omega
    · simp [← UInt8.toNat_inj] at h237
      omega
    · simp [← UInt8.toNat_inj] at h237
      omega
  refine le_toNat_ofNat ?_ ?_
  · simp only [List.foldl, Nat.isValidChar]
    omega
  · simp only [List.foldl]
    omega

/-- So does one of four, which is within Unicode. -/
private theorem le_charOfBytes_four {a b c d : UInt8} (ha : 240 ≤ a ∧ a ≤ 244)
    (hb : isSecondOfFour a b = true) (hc : isContinuation c = true) (hd : isContinuation d = true) :
    128 ≤ (charOfBytes (a.toNat - 240) [b, c, d]).toNat := by
  have hlow : 240 ≤ a.toNat := ha.1
  have hhigh : a.toNat ≤ 244 := ha.2
  obtain ⟨hleast, hmost⟩ := isContinuation_iff.mp hc
  obtain ⟨hleast', hmost'⟩ := isContinuation_iff.mp hd
  have hsecond : 128 ≤ b.toNat ∧ b.toNat ≤ 191 ∧ (a.toNat = 240 → 144 ≤ b.toNat) ∧
      (a.toNat = 244 → b.toNat ≤ 143) := by
    unfold isSecondOfFour isContinuation at hb
    split_ifs at hb with h240 h244
    all_goals simp [UInt8.le_iff_toNat_le, ← UInt8.toNat_inj] at hb h240
    · omega
    · simp [← UInt8.toNat_inj] at h244
      omega
    · simp [← UInt8.toNat_inj] at h244
      omega
  refine le_toNat_ofNat (.inr ?_) ?_
  · simp only [List.foldl]
    omega
  · simp only [List.foldl]
    omega

/-- Any other byte begins a character that is not ASCII, and some of what follows is passed. -/
private theorem fromUtf8Lossy_cons_of_ge {a : UInt8} (h : ¬a < 128) (rest : List UInt8) :
    ∃ c tail, fromUtf8Lossy (a :: rest) = c :: fromUtf8Lossy tail ∧ 128 ≤ c.toNat ∧
      tail <:+ rest := by
  have hreplacement : 128 ≤ replacement.toNat := by decide
  have hnil : [replacement] = replacement :: fromUtf8Lossy [] := rfl
  rw [fromUtf8Lossy.eq_def]
  dsimp only
  rw [if_neg h]
  -- by the length the first byte announces, and how many bytes of it there are
  split_ifs with htwo hthree hfour
  · rcases rest with _ | ⟨b, rest⟩
    · exact ⟨_, _, hnil, hreplacement, List.suffix_refl _⟩
    dsimp only
    split_ifs with hb
    · exact ⟨_, _, rfl, le_charOfBytes_two htwo hb, List.suffix_cons _ _⟩
    · exact ⟨_, _, rfl, hreplacement, List.suffix_refl _⟩
  · rcases rest with _ | ⟨b, _ | ⟨c, rest⟩⟩
    · exact ⟨_, _, hnil, hreplacement, List.suffix_refl _⟩
    · dsimp only
      split_ifs with hb
      · exact ⟨_, _, hnil, hreplacement, List.nil_suffix⟩
      · exact ⟨_, _, rfl, hreplacement, List.suffix_refl _⟩
    · dsimp only
      split_ifs with hb hc
      · exact ⟨_, _, rfl, le_charOfBytes_three hthree hb hc, ⟨[b, c], rfl⟩⟩
      · exact ⟨_, _, rfl, hreplacement, List.suffix_cons _ _⟩
      · exact ⟨_, _, rfl, hreplacement, List.suffix_refl _⟩
  · rcases rest with _ | ⟨b, _ | ⟨c, _ | ⟨d, rest⟩⟩⟩
    · exact ⟨_, _, hnil, hreplacement, List.suffix_refl _⟩
    · dsimp only
      split_ifs with hb
      · exact ⟨_, _, hnil, hreplacement, List.nil_suffix⟩
      · exact ⟨_, _, rfl, hreplacement, List.suffix_refl _⟩
    · dsimp only
      split_ifs with hb hc
      · exact ⟨_, _, hnil, hreplacement, List.nil_suffix⟩
      · exact ⟨_, _, rfl, hreplacement, List.suffix_cons _ _⟩
      · exact ⟨_, _, rfl, hreplacement, List.suffix_refl _⟩
    · dsimp only
      split_ifs with hb hc hd
      · exact ⟨_, _, rfl, le_charOfBytes_four hfour hb hc hd, ⟨[b, c, d], rfl⟩⟩
      · exact ⟨_, _, rfl, hreplacement, ⟨[b, c], rfl⟩⟩
      · exact ⟨_, _, rfl, hreplacement, List.suffix_cons _ _⟩
      · exact ⟨_, _, rfl, hreplacement, List.suffix_refl _⟩
  · exact ⟨_, _, rfl, hreplacement, List.suffix_refl _⟩

theorem fromUtf8Lossy_cons_of_lt {a : UInt8} (h : a < 128) (rest : List UInt8) :
    fromUtf8Lossy (a :: rest) = Char.ofNat a.toNat :: fromUtf8Lossy rest := by
  rw [fromUtf8Lossy.eq_def]
  exact if_pos h

/-- ASCII bytes are read for themselves, whatever follows. -/
theorem fromUtf8Lossy_append {as : List UInt8} (h : ∀ a ∈ as, a < 128) (bs : List UInt8) :
    fromUtf8Lossy (as ++ bs) = as.map (fun a => Char.ofNat a.toNat) ++ fromUtf8Lossy bs := by
  induction as with
  | nil => rfl
  | cons a as ih =>
    rw [List.forall_mem_cons] at h
    rw [List.cons_append, fromUtf8Lossy_cons_of_lt h.1, ih h.2, List.map_cons, List.cons_append]

/-- The ASCII characters of a text are read from ASCII bytes. -/
theorem exists_of_mem_fromUtf8Lossy {as : List UInt8} {c : Char} (h : c ∈ fromUtf8Lossy as)
    (hc : c.toNat < 128) : ∃ a ∈ as, c = Char.ofNat a.toNat := by
  match as with
  | [] => cases h
  | a :: rest =>
    by_cases ha : a < 128
    · rw [fromUtf8Lossy_cons_of_lt ha] at h
      rcases List.mem_cons.mp h with rfl | h
      · exact ⟨a, List.mem_cons_self, rfl⟩
      · obtain ⟨b, hb, hcb⟩ := exists_of_mem_fromUtf8Lossy h hc
        exact ⟨b, List.mem_cons_of_mem _ hb, hcb⟩
    · obtain ⟨d, tail, heq, hd, htail⟩ := fromUtf8Lossy_cons_of_ge ha rest
      rw [heq] at h
      rcases List.mem_cons.mp h with rfl | h
      · exact absurd hc (Nat.not_lt.mpr hd)
      · have hlength := htail.length_le
        obtain ⟨b, hb, hcb⟩ := exists_of_mem_fromUtf8Lossy h hc
        exact ⟨b, List.mem_cons_of_mem _ (htail.subset hb), hcb⟩
termination_by as.length
decreasing_by all_goals simp only [List.length_cons]; omega

theorem not_mem_fromUtf8Lossy {as : List UInt8} {b : UInt8} (hb : b < 128) (h : b ∉ as) :
    Char.ofNat b.toNat ∉ fromUtf8Lossy as := by
  intro hmem
  have hlt : (Char.ofNat b.toNat).toNat < 128 := by
    rw [toNat_ofNat_byte]
    exact hb
  obtain ⟨a, ha, heq⟩ := exists_of_mem_fromUtf8Lossy hmem hlt
  exact h (ofNat_byte_injective heq ▸ ha)

/-- A text of ASCII characters is read from ASCII bytes. -/
theorem lt_of_fromUtf8Lossy_lt {as : List UInt8} (h : ∀ c ∈ fromUtf8Lossy as, c.toNat < 128) :
    ∀ a ∈ as, a < 128 := by
  induction as with
  | nil => simp
  | cons a rest ih =>
    by_cases ha : a < 128
    · rw [fromUtf8Lossy_cons_of_lt ha, List.forall_mem_cons] at h
      exact List.forall_mem_cons.mpr ⟨ha, ih h.2⟩
    · obtain ⟨d, tail, heq, hd, -⟩ := fromUtf8Lossy_cons_of_ge ha rest
      rw [heq] at h
      exact absurd (h d List.mem_cons_self) (Nat.not_lt.mpr hd)

/-! ### Lines -/

/-- A line without the carriage return at its end. -/
def stripReturn (line : List Char) : List Char :=
  if line.getLast? = some '\r' then line.dropLast else line

/-- `str::lines`: lines end with a line feed, and the last one need not. -/
def lines (cs : List Char) : List (List Char) := go [] cs
where
  go (line : List Char) : List Char → List (List Char)
    | [] => if line = [] then [] else [line]
    | c :: cs => if c = '\n' then stripReturn line :: go [] cs else go (line ++ [c]) cs

/-- A text without line feeds is one line, as it is. -/
theorem lines_of_no_feed {cs : List Char} (h : '\n' ∉ cs) (hne : cs ≠ []) : lines cs = [cs] := by
  have hgo : ∀ cs line : List Char, '\n' ∉ cs → line ++ cs ≠ [] →
      lines.go line cs = [line ++ cs] := by
    intro cs
    induction cs with
    | nil =>
      intro line _ hne
      rw [List.append_nil] at hne
      rw [lines.go, if_neg hne, List.append_nil]
    | cons c cs ih =>
      intro line hfeed _
      rw [List.mem_cons, not_or] at hfeed
      rw [lines.go, if_neg (Ne.symm hfeed.1), ih (line ++ [c]) hfeed.2 (by simp)]
      simp
  exact hgo cs [] h hne

end Text
