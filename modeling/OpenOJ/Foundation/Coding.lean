import OpenOJ.Foundation.Outcome

/-!
# Codings

A coding is a pair of fallible functions, one into a format and one out of it. Two laws relate them:

* `Inverts`: what was encoded decodes to itself;
* `Reencodes`: what decodes can be encoded, and what this gives decodes to the same value again.

Together they make the encoder's and the decoder's images the same set, on which equality in the
format is equality of values (`Inverts.eq_iff`). Neither law says that the encoder is total or that
the decoder accepts only one text for a value; codecs that normalise satisfy both.
-/

namespace Coding

universe u v

variable {ε ε' : Type u} {α β : Type v}

/-- Decoding undoes encoding. -/
def Inverts (encode : α → Except ε β) (decode : β → Except ε' α) : Prop :=
  ∀ a b, encode a = .ok b → decode b = .ok a

/-- Whatever decodes is encoded. -/
def Reencodes (encode : α → Except ε β) (decode : β → Except ε' α) : Prop :=
  ∀ b a, decode b = .ok a → ∃ b', encode a = .ok b'

variable {encode : α → Except ε β} {decode : β → Except ε' α}

/-- Values are told apart in the format. -/
theorem Inverts.eq_iff (h : Inverts encode decode) {a a' : α} {b b' : β} (ha : encode a = .ok b)
    (ha' : encode a' = .ok b') : b = b' ↔ a = a' := by
  constructor
  · rintro rfl
    exact Except.ok.inj ((h a b ha).symm.trans (h a' b ha'))
  · rintro rfl
    exact Except.ok.inj (ha.symm.trans ha')

/-- What decodes is encoded, and decodes to itself again. -/
theorem Reencodes.exists_decode (hr : Reencodes encode decode) (hi : Inverts encode decode)
    {a : α} {b : β} (h : decode b = .ok a) : ∃ b', encode a = .ok b' ∧ decode b' = .ok a := by
  obtain ⟨b', hb'⟩ := hr b a h
  exact ⟨b', hb', hi a b' hb'⟩

end Coding
