import OpenOJ.Guest.Message

/-!
# Truncated diagnostics

A message that is too long is cut at the last character boundary within the bound. The code looks
for the boundary by counting down from the bound, and cuts the text there; a boundary is where a
prefix of the characters ends (`isCharBoundary_iff`).

* `le_boundaryBelow`: the boundary that is found is the last one, so no prefix that is within the
  bound ends beyond it;
* `truncate_prefix`, `prefix_truncate`: what is kept is a prefix of the message, and every prefix
  within the bound is a prefix of it;
* `GuestDiagnostic.new_spec`: so the slice exists, what is kept is the longest prefix within the
  bound, it is marked as truncated exactly when something is missing, and no more than three bytes
  of the bound are given away.
-/

namespace OpenOJ.Guest

open Text

/-- The characters that take up the first bytes of a text are the prefix with so many bytes. -/
theorem charsOfLength_eq_some {cs ds : List Char} {n : Nat} :
    charsOfLength cs n = some ds ↔ ds <+: cs ∧ (utf8 ds).length = n := by
  refine ⟨fun h => ⟨?_, length_of_charsOfLength h⟩, ?_⟩
  · induction cs generalizing n ds with
    | nil =>
      cases n with
      | zero =>
        obtain rfl := Option.some_inj.mp h
        exact List.prefix_rfl
      | succ n => cases h
    | cons c cs ih =>
      cases n with
      | zero =>
        obtain rfl := Option.some_inj.mp h
        exact List.nil_prefix
      | succ n =>
        rw [charsOfLength] at h
        split_ifs at h
        obtain ⟨es, hes, rfl⟩ := Option.map_eq_some_iff.mp h
        exact (List.prefix_cons_inj c).mpr (ih hes)
  · rintro ⟨⟨rest, rfl⟩, rfl⟩
    induction ds with
    | nil => cases rest <;> rfl
    | cons c ds ih =>
      have hsize := c.utf8Size_pos
      have hlength : (utf8 (c :: ds)).length = (utf8 ds).length + c.utf8Size - 1 + 1 := by
        rw [utf8_cons, List.length_append, length_utf8EncodeChar]
        omega
      have hrest : (utf8 ds).length + c.utf8Size - 1 + 1 - c.utf8Size = (utf8 ds).length := by omega
      rw [hlength, List.cons_append, charsOfLength, if_pos (by omega), hrest, ih]
      rfl

/-- A boundary is where a prefix ends. -/
theorem isCharBoundary_iff {value : String} {index : Nat} :
    isCharBoundary value index = true ↔
      ∃ ds, ds <+: value.toList ∧ (utf8 ds).length = index := by
  rw [isCharBoundary, Option.isSome_iff_exists]
  exact exists_congr fun ds => charsOfLength_eq_some

/-- The search for a boundary does not go past one. -/
theorem le_boundaryBelow {value : String} {index n : Nat}
    (h : isCharBoundary value index = true) (hle : index ≤ n) : index ≤ boundaryBelow value n := by
  induction n with
  | zero => exact hle
  | succ n ih =>
    rw [boundaryBelow]
    split_ifs with hn
    · exact hle
    · refine ih (Nat.le_of_lt_succ (Nat.lt_of_le_of_ne hle ?_))
      rintro rfl
      exact hn h

/-- What `truncate` keeps: everything, or the prefix up to the boundary it finds. -/
theorem truncate_prefix (value : String) (maximum : Nat) :
    (truncate value maximum).toList <+: value.toList ∧
      len (truncate value maximum) =
        if len value ≤ maximum then len value else boundaryBelow value maximum := by
  unfold truncate
  split_ifs with hfits
  · exact ⟨List.prefix_rfl, rfl⟩
  · have hslice := Option.some_get (isCharBoundary_boundaryBelow value maximum)
    obtain ⟨hbegins, hlength⟩ := charsOfLength_eq_some.mp hslice.symm
    rw [len, bytes, String.toList_ofList]
    exact ⟨hbegins, hlength⟩

/-- **The longest prefix** within a bound is kept. -/
theorem prefix_truncate {value : String} {maximum : Nat} {ds : List Char}
    (hds : ds <+: value.toList) (hle : (utf8 ds).length ≤ maximum) :
    ds <+: (truncate value maximum).toList := by
  obtain ⟨hbegins, hlength⟩ := truncate_prefix value maximum
  refine prefix_of_length_utf8_le hds hbegins ?_
  have hkept : (utf8 (truncate value maximum).toList).length = _ := hlength
  rw [hkept]
  split_ifs
  · exact length_utf8_le_of_prefix hds
  · exact le_boundaryBelow (isCharBoundary_iff.mpr ⟨ds, hds, rfl⟩) hle

/-- **A diagnostic is cut at a character.** The slice it is cut with exists; what it keeps is the
longest prefix of the message within the bound, is said to be truncated exactly when it differs
from the message, and gives up three bytes at most. -/
theorem GuestDiagnostic.new_spec (code message : String) :
    isCharBoundary message (boundaryBelow message maxDiagnosticMessage) = true ∧
    (GuestDiagnostic.new code message).message.toList <+: message.toList ∧
    isCharBoundary message (len (GuestDiagnostic.new code message).message) = true ∧
    len (GuestDiagnostic.new code message).message ≤ maxDiagnosticMessage ∧
    (∀ ds, ds <+: message.toList → (utf8 ds).length ≤ maxDiagnosticMessage →
      ds <+: (GuestDiagnostic.new code message).message.toList) ∧
    ((GuestDiagnostic.new code message).truncated = true ↔
      (GuestDiagnostic.new code message).message ≠ message) ∧
    min (len message) maxDiagnosticMessage ≤
      len (GuestDiagnostic.new code message).message + 3 := by
  obtain ⟨hbegins, hlength⟩ := truncate_prefix message maxDiagnosticMessage
  have hle := len_truncate_le message maxDiagnosticMessage
  refine ⟨isCharBoundary_boundaryBelow _ _, hbegins, isCharBoundary_iff.mpr ⟨_, hbegins, rfl⟩, hle,
    fun ds hds => prefix_truncate hds, ?_, ?_⟩
  · rw [GuestDiagnostic.new, decide_eq_true_iff]
    refine ⟨fun hlong heq => ?_, fun hne => ?_⟩
    · obtain heq : truncate message maxDiagnosticMessage = message := heq
      rw [heq] at hle
      exact absurd hle (Nat.not_le.mpr hlong)
    · by_contra hshort
      exact hne (if_pos (Nat.not_lt.mp hshort))
  · -- some prefix ends within three bytes of the bound, and no longer one is given up
    obtain ⟨ds, hds, hbelow, hnear⟩ : ∃ ds, ds <+: message.toList ∧
        (utf8 ds).length ≤ min (len message) maxDiagnosticMessage ∧
          min (len message) maxDiagnosticMessage ≤ (utf8 ds).length + 3 :=
      exists_prefix_near (Nat.min_le_left _ _)
    have hkept := length_utf8_le_of_prefix
      (prefix_truncate hds (Nat.le_trans hbelow (Nat.min_le_right _ _)))
    exact Nat.le_trans hnear (Nat.add_le_add_right hkept 3)

end OpenOJ.Guest
