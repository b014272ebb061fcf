import OpenOJ.Protocol.Schema

/-!
# Validated values and the schema

Each validated string of a request satisfies the schema's definition of it. The validators of the
domain are loops over bytes, the schema has regular expressions, and the lemmas here read the first
as the second, kind by kind:

* opaque identifiers and idempotency keys: one letter or digit and a bounded rest
  (`opaquePattern_matches`, `Schema.opaqueId_value`, `Schema.idempotencyKey_value`);
* digests: a literal and 64 hexadecimal digits (`Schema.contentDigest_value`);
* lower-case tokens: capabilities and kinds of evidence (`Schema.capability_value`,
  `Schema.evidenceKind_value`);
* diagnostic codes, in upper case (`Schema.diagnosticCode_value`).

The third kind is the one with a loop that keeps state, whether the byte before was a separator.
`validateLowerToken_eq_ok` says what it accepts, `tokenPattern_matches` what the pattern means, and
`lowerToken_grammar` that they are the same, for all byte strings and without any bound on their
length but the validator's own.

A media type is the exception: the schema wants both tokens to begin with a letter or a digit, the
domain does not, so its pattern stays a hypothesis where it is needed. `OpenOJ.Protocol.Acceptance`
says when it holds, and `OpenOJ.Protocol.Tokens` has the opposite direction.
-/

namespace OpenOJ

open Outcome Text Regex

/-! ### Opaque identifiers -/

theorem opaquePattern_matches {w : List UInt8} :
    Schema.opaquePattern.Matches w ↔
      ∃ first rest, w = first :: rest ∧ isAsciiAlphanumeric first = true ∧
        ∀ b ∈ rest, (isAsciiAlphanumeric b || isSeparator b) = true := by
  rw [Schema.opaquePattern, matches_byte_seq]
  simp only [matches_star_byte]

/-- What the domain accepts as an identifier within a bound, the schema accepts too. -/
theorem Schema.string_of_validateOpaque {value field : String} {maximum : Nat}
    (h : validateOpaque value field maximum = .ok ()) :
    Schema.string 1 maximum Schema.opaquePattern (.string value) = true := by
  obtain ⟨first, rest, hbytes, hlen, hfirst, hrest⟩ := validateOpaque_eq_ok.mp h
  have hmatch : Schema.opaquePattern.accepts (bytes value) = true :=
    (accepts_iff _ _).mpr (opaquePattern_matches.mpr ⟨first, rest, hbytes, hfirst, hrest⟩)
  have hpos : 1 ≤ value.length := length_pos_of_bytes (by simp [hbytes])
  have hle := length_le_bytes value
  simp only [Schema.string, hmatch, Bool.and_true, Bool.and_eq_true, decide_eq_true_eq]
  omega

@[simp]
theorem Schema.opaqueId_value {field : String} (id : OpaqueId field) :
    Schema.opaqueId (.string id.value) = true :=
  Schema.string_of_validateOpaque id.valid

@[simp]
theorem Schema.idempotencyKey_value (key : IdempotencyKey) :
    Schema.idempotencyKey (.string key.value) = true :=
  Schema.string_of_validateOpaque key.valid

theorem OpaqueId.length_le {field : String} (id : OpaqueId field) :
    (bytes id.value).length ≤ 64 := by
  obtain ⟨_, _, _, hlen, _⟩ := validateOpaque_eq_ok.mp id.valid
  exact hlen

theorem IdempotencyKey.length_le (key : IdempotencyKey) : (bytes key.value).length ≤ 128 := by
  obtain ⟨_, _, _, hlen, _⟩ := validateOpaque_eq_ok.mp key.valid
  exact hlen

/-! ### Digests -/

/-- A digest is its tag and 64 lowercase hexadecimal digits. -/
theorem ContentDigest.bytes_value (digest : ContentDigest) :
    ∃ hex, bytes digest.value = sha256Tag ++ hex ∧ hex.length = 64 ∧
      ∀ b ∈ hex, isLowerHex b = true := by
  have h := digest.valid
  unfold validateContentDigest stripSha256 at h
  split_ifs at h with hpre
  · simp only at h
    split_ifs at h with hhex
    simp only [not_or, not_not, Bool.not_eq_true', Bool.not_eq_false] at hhex
    obtain ⟨rest, hrest⟩ := List.isPrefixOf_iff_prefix.mp hpre
    rw [← hrest, List.drop_left] at hhex
    exact ⟨rest, hrest.symm, hhex.1, List.all_eq_true.mp hhex.2⟩

@[simp]
theorem Schema.contentDigest_value (digest : ContentDigest) :
    Schema.contentDigest (.string digest.value) = true := by
  obtain ⟨hex, hbytes, hlen, hhex⟩ := digest.bytes_value
  refine (accepts_iff _ _).mpr ?_
  rw [Schema.digestPattern, matches_literal_seq]
  exact ⟨hex, hbytes, matches_exactly_byte.mpr ⟨hlen, hhex⟩⟩

theorem ContentDigest.length_eq (digest : ContentDigest) :
    (bytes digest.value).length = 71 := by
  obtain ⟨hex, hbytes, hlen, -⟩ := digest.bytes_value
  simp [hbytes, hlen, sha256Tag]

/-! ### Lowercase tokens -/

theorem isSeparator_not_lowerAlphanumeric :
    ∀ b, isSeparator b = true → Schema.isLowerAlphanumeric b = false := by
  rw [forall_byte]
  decide +kernel

private theorem scanLowerToken_eq_ok {field : String} {first : UInt8}
    (hfirst : isAsciiDigit first = false) (start : Bool) (w : List UInt8) :
    scanLowerToken field (some first) start w = .ok () ↔
      scanSegments Schema.isLowerAlphanumeric isSeparator start w = true := by
  induction w generalizing start with
  | nil => cases start <;> simp [scanLowerToken, scanSegments]
  | cons b w ih =>
    rw [scanLowerToken, scanSegments]
    split_ifs with hs h₂ h₃ h₄
    · simp [h₂]
    · simp [h₂, ih]
    · -- a digit that opens a segment is not the first byte
      have hdigit : isAsciiDigit first = true := by
        simp only [Bool.and_eq_true, beq_iff_eq, Option.some.injEq] at h₄
        exact h₄.2 ▸ h₄.1.2
      rw [hfirst] at hdigit
      cases hdigit
    · simpa [Schema.isLowerAlphanumeric, h₃] using ih false
    · simp [Schema.isLowerAlphanumeric, h₃]

/-- The scan of all bytes of a value: its first byte has to be a letter, although only a digit that
is the first byte's own value is looked for. -/
private theorem scanLowerToken_start {field : String} {first : UInt8} {rest : List UInt8} :
    scanLowerToken field (some first) true (first :: rest) = .ok () ↔
      isAsciiLowercase first = true ∧
        scanSegments Schema.isLowerAlphanumeric isSeparator false rest = true := by
  have hclasses : ∀ b : UInt8, isSeparator b = false → isAsciiLowercase b = false →
      Schema.isLowerAlphanumeric b = true → isAsciiDigit b = true := by
    rw [forall_byte]
    decide +kernel
  have hlower : ∀ b : UInt8, isAsciiLowercase b = true →
      isSeparator b = false ∧ isAsciiDigit b = false ∧ Schema.isLowerAlphanumeric b = true := by
    rw [forall_byte]
    decide +kernel
  by_cases hfirst : isAsciiLowercase first = true
  · obtain ⟨hsep, hdigit, halnum⟩ := hlower first hfirst
    rw [scanLowerToken_eq_ok hdigit]
    simp [scanSegments, hsep, halnum, hfirst]
  · refine iff_of_false ?_ fun h => hfirst h.1
    simp only [scanLowerToken, Bool.not_eq_true] at hfirst ⊢
    split_ifs with hsep halnum
    · simp
    · simp
    · rename_i hopen
      have hdigit := hclasses first (by simpa using hsep) hfirst halnum
      simp [hdigit] at hopen
    · simp

/-- **Tokens.** The left-to-right scan accepts exactly the bounded tokens whose segments
are separated one by one and whose first byte is a letter. -/
theorem validateLowerToken_eq_ok {value field : String} {maximum : Nat} :
    validateLowerToken value field maximum = .ok () ↔
      (bytes value).length ≤ maximum ∧
        ∃ first rest, bytes value = first :: rest ∧ isAsciiLowercase first = true ∧
          scanSegments Schema.isLowerAlphanumeric isSeparator false rest = true := by
  unfold validateLowerToken
  cases hbytes : bytes value with
  | nil => simp
  | cons first rest =>
    rw [if_neg (List.cons_ne_nil first rest), List.head?_cons]
    by_cases hlen : maximum < (first :: rest).length
    · rw [if_pos hlen]
      refine iff_of_false (by simp) fun h => ?_
      omega
    · rw [if_neg hlen, scanLowerToken_start, and_iff_right (Nat.not_lt.mp hlen)]
      refine ⟨fun h => ⟨first, rest, rfl, h⟩, ?_⟩
      rintro ⟨_, _, heq, h⟩
      obtain ⟨rfl, rfl⟩ := List.cons.inj heq
      exact h

/-- The pattern of a token, read off its first byte. -/
theorem tokenPattern_matches {w : List UInt8} :
    Schema.tokenPattern.Matches w ↔ ∃ first rest, w = first :: rest ∧
      isAsciiLowercase first = true ∧
        scanSegments Schema.isLowerAlphanumeric isSeparator false rest = true := by
  rw [Schema.tokenPattern, matches_byte_seq]
  simp only [matches_segments_tail isSeparator_not_lowerAlphanumeric]

/-- **The scanner is its grammar.** Of all bytes there can be, the loop accepts exactly those the
pattern matches as a whole; and the function accepts a value exactly when it is not empty, within
the bound and matched. -/
theorem lowerToken_grammar (field : String) (maximum : Nat) :
    (∀ bs : List UInt8, bs ≠ [] →
      (scanLowerToken field bs.head? true bs = .ok () ↔ Schema.tokenPattern.Matches bs)) ∧
    ∀ value : String, validateLowerToken value field maximum = .ok () ↔
      bytes value ≠ [] ∧ (bytes value).length ≤ maximum ∧
        Schema.tokenPattern.Matches (bytes value) := by
  refine ⟨fun bs hbs => ?_, fun value => ?_⟩
  · obtain ⟨first, rest, rfl⟩ := List.exists_cons_of_ne_nil hbs
    rw [List.head?_cons, scanLowerToken_start, tokenPattern_matches]
    refine ⟨fun h => ⟨first, rest, rfl, h⟩, ?_⟩
    rintro ⟨_, _, heq, h⟩
    obtain ⟨rfl, rfl⟩ := List.cons.inj heq
    exact h
  · rw [validateLowerToken_eq_ok, tokenPattern_matches]
    refine (and_iff_right_of_imp ?_).symm
    rintro ⟨-, first, rest, hbytes, -⟩
    rw [hbytes]
    exact List.cons_ne_nil first rest

/-- The scan's tokens match the schema's pattern. -/
theorem Schema.string_of_validateLowerToken {value field : String} {maximum : Nat}
    (h : validateLowerToken value field maximum = .ok ()) :
    Schema.string 1 maximum Schema.tokenPattern (.string value) = true := by
  obtain ⟨hlen, first, rest, hbytes, hfirst, hrest⟩ := validateLowerToken_eq_ok.mp h
  have hmatch : Schema.tokenPattern.accepts (bytes value) = true := by
    rw [accepts_iff, tokenPattern_matches]
    exact ⟨first, rest, hbytes, hfirst, hrest⟩
  have hpos : 1 ≤ value.length := length_pos_of_bytes (by simp [hbytes])
  have hle := length_le_bytes value
  simp only [Schema.string, hmatch, Bool.and_true, Bool.and_eq_true, decide_eq_true_eq]
  omega

@[simp]
theorem Schema.capability_value (c : Capability) :
    Schema.capability (.string c.value) = true :=
  Schema.string_of_validateLowerToken c.valid

@[simp]
theorem Schema.evidenceKind_value (k : EvidenceKind) :
    Schema.string 1 64 Schema.tokenPattern (.string k.value) = true :=
  Schema.string_of_validateLowerToken k.valid

@[simp]
theorem Schema.diagnosticCode_value (c : DiagnosticCode) :
    Schema.string 1 64 Schema.diagnosticCodePattern (.string c.value) = true := by
  have h := c.valid
  unfold validateDiagnosticCode at h
  split at h
  · cases h
  · rename_i first rest hbytes
    split_ifs at h with hlong hclass
    have hfirst : isAsciiUppercase first = true := by
      simp only [Bool.or_eq_true, Bool.not_eq_true', not_or, Bool.not_eq_false] at hclass
      exact hclass.1
    have hall : ∀ b ∈ first :: rest,
        (isAsciiUppercase b || isAsciiDigit b || b == 95) = true := by
      simp only [Bool.or_eq_true, Bool.not_eq_true', not_or, Bool.not_eq_false] at hclass
      exact List.all_eq_true.mp hclass.2
    have hmatch : Schema.diagnosticCodePattern.accepts (bytes c.value) = true := by
      rw [accepts_iff, Schema.diagnosticCodePattern, matches_byte_seq]
      exact ⟨first, rest, hbytes, hfirst, matches_star_byte.mpr fun b hb =>
        hall b (List.mem_cons_of_mem _ hb)⟩
    have hpos : 1 ≤ c.value.length := length_pos_of_bytes (by simp [hbytes])
    have hle := length_le_bytes c.value
    have hmax : (bytes c.value).length ≤ 64 := by
      rw [hbytes]
      exact Nat.not_lt.mp hlong
    simp only [Schema.string, hmatch, Bool.and_true, Bool.and_eq_true, decide_eq_true_eq]
    omega

theorem Capability.length_le (c : Capability) : (bytes c.value).length ≤ 64 :=
  (validateLowerToken_eq_ok.mp c.valid).1

end OpenOJ
