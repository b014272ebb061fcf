import OpenOJ.Protocol.Codec
import OpenOJ.Protocol.Patterns
import Mathlib.Data.List.Nodup

/-!
# The schema and validated values

The direction opposite to `OpenOJ.Protocol.Patterns`: a string that satisfies the schema's
definition of a value is the text of a validated one. The schema counts characters where the domain
counts bytes; the patterns are ASCII, so the two counts are the same, and a value has to be shown
ASCII before its length can be compared.

The first two sections take documents apart that a schema accepts: strings, enumerations, integers
and lists (`Schema.string_eq_true`, `Schema.enumeration_eq_true`, `Schema.exists_integer`,
`Schema.array_eq_true`), and the members of objects (`Schema.exists_object`,
`Schema.schema_of_get?`, `Schema.exists_member`).

The others have one theorem for each kind of value that a result carries:

* `exists_opaqueId`, `exists_contentDigest`: identifiers and digests;
* `exists_mediaType`: media types, where the schema asks for more than the domain;
* `exists_evidenceKind`, `exists_diagnosticCode`: lower-case tokens and diagnostic codes.

So a document that the schema accepts can only be refused by the domain for what its members say
together.
-/

namespace OpenOJ

open Outcome Text Regex

/-! ### Strings of a schema -/

theorem Schema.string_eq_true {minLength maxLength : Nat} {pattern : Regex} {v : Json.Value} :
    Schema.string minLength maxLength pattern v = true ↔
      ∃ s, v = .string s ∧ minLength ≤ s.length ∧ s.length ≤ maxLength ∧
        pattern.Matches (bytes s) := by
  cases v <;> simp [Schema.string, accepts_iff, and_assoc]

theorem Schema.enumeration_eq_true {names : List String} {v : Json.Value} :
    Schema.enumeration names v = true ↔ ∃ s ∈ names, v = .string s := by
  cases v <;> simp [Schema.enumeration]

/-- An integer from a range that starts at a natural number is one. -/
theorem Schema.exists_integer {minimum maximum : Int} {v : Json.Value}
    (h : Schema.integer minimum maximum v = true) (hmin : 0 ≤ minimum) :
    ∃ n : Nat, v = .number n ∧ minimum ≤ n ∧ n ≤ maximum := by
  cases v with
  | number n =>
    simp only [Schema.integer, Bool.and_eq_true, decide_eq_true_eq] at h
    exact ⟨n.toNat, by rw [Int.toNat_of_nonneg (by omega)], by omega, by omega⟩
  | _ => cases h

theorem Schema.array_eq_true {minItems maxItems : Nat} {items : Schema} {v : Json.Value} :
    Schema.array minItems maxItems items v = true ↔
      ∃ vs, v = .array vs ∧ minItems ≤ vs.length ∧ vs.length ≤ maxItems ∧
        ∀ w ∈ vs, items w = true := by
  cases v <;> simp [Schema.array, and_assoc]

/-! ### Members of a schema -/

/-- A schema for objects accepts only objects. -/
theorem Schema.exists_object {properties : List Schema.Property} {v : Json.Value}
    (h : Schema.object properties v = true) : ∃ members, v = .object members := by
  cases v with
  | object members => exact ⟨members, rfl⟩
  | _ => cases h

/-- A member satisfies the schema of its property. -/
theorem Schema.schema_of_get? {properties : List Schema.Property} {p : Schema.Property}
    {members : List (String × Json.Value)} {v : Json.Value}
    (h : Schema.object properties (.object members) = true) (hp : p ∈ properties)
    (hnames : (properties.map (·.name)).Nodup) (hv : Json.get? members p.name = some v) :
    p.schema v = true := by
  simp only [Schema.object, Bool.and_eq_true, List.all_eq_true] at h
  obtain ⟨q, hq, hmatch⟩ := List.any_eq_true.mp (h.2 _ (Json.mem_of_get? hv))
  simp only [Bool.and_eq_true, beq_iff_eq] at hmatch
  obtain rfl : q = p := List.inj_on_of_nodup_map hnames hq hp hmatch.1
  exact hmatch.2

/-- A required member is there. -/
theorem Schema.exists_member {properties : List Schema.Property}
    {members : List (String × Json.Value)}
    (h : Schema.object properties (.object members) = true) (name : String) (schema : Schema)
    (hp : Schema.property name schema ∈ properties)
    (hnames : (properties.map (·.name)).Nodup) :
    ∃ v, field members name = .ok v ∧ schema v = true := by
  have hall := h
  simp only [Schema.object, Bool.and_eq_true, List.all_eq_true] at hall
  have hsome : (Json.get? members name).isSome := by
    simpa [Schema.property, Json.get?] using hall.1 _ hp
  obtain ⟨v, hv⟩ := Option.isSome_iff_exists.mp hsome
  exact ⟨v, by rw [field, hv, orRefuse_some], Schema.schema_of_get? h hp hnames hv⟩

/-- The byte classes of the patterns are ASCII. -/
private theorem ascii_of_class :
    ∀ b : UInt8, (isAsciiAlphanumeric b || isSeparator b || isMediaTypeByte b ||
      Schema.isLowerAlphanumeric b || isAsciiUppercase b || isAsciiDigit b || b == 95 || b == 47) =
        true → b.toNat < 128 := by
  rw [forall_byte]
  decide +kernel

/-! ### Identifiers -/

private theorem validateOpaque_of_matches {s field : String} {maximum : Nat}
    (hlength : s.length ≤ maximum) (h : Schema.opaquePattern.Matches (bytes s)) :
    validateOpaque s field maximum = .ok () := by
  obtain ⟨first, rest, hbytes, hfirst, hrest⟩ := opaquePattern_matches.mp h
  have hascii : (bytes s).length = s.length := length_bytes_of_ascii fun b hb => by
    rw [hbytes, List.mem_cons] at hb
    rcases hb with rfl | hb
    · exact ascii_of_class _ (by simp [hfirst])
    · exact ascii_of_class _ (by simp [hrest b hb])
  exact validateOpaque_eq_ok.mpr ⟨first, rest, hbytes, by omega, hfirst, hrest⟩

theorem exists_opaqueId (field : String) {v : Json.Value} (h : Schema.opaqueId v = true) :
    ∃ id : OpaqueId field, v = .string id.value := by
  obtain ⟨s, rfl, -, hlength, hmatches⟩ := Schema.string_eq_true.mp h
  exact ⟨⟨s, validateOpaque_of_matches hlength hmatches⟩, rfl⟩

/-! ### Digests -/

theorem exists_contentDigest {v : Json.Value} (h : Schema.contentDigest v = true) :
    ∃ digest : ContentDigest, v = .string digest.value := by
  cases v with
  | string s =>
    obtain ⟨hex, hbytes, hhex⟩ := matches_literal_seq.mp ((accepts_iff _ _).mp h)
    obtain ⟨hlength, hclass⟩ := matches_exactly_byte.mp hhex
    refine ⟨⟨s, ?_⟩, rfl⟩
    have hstrip : stripSha256 s = some hex := by
      rw [stripSha256, hbytes, if_pos (List.isPrefixOf_iff_prefix.mpr (List.prefix_append _ _)),
        List.drop_left]
    have hall : hex.all isLowerHex = true := List.all_eq_true.mpr hclass
    simp [validateContentDigest, hstrip, hlength, hall]
  | _ => cases h

/-! ### Media types -/

theorem mediaToken_matches {w : List UInt8} :
    Schema.mediaTokenPattern.Matches w ↔ ∃ first rest, w = first :: rest ∧
      isAsciiAlphanumeric first = true ∧ rest.length ≤ 63 ∧
        ∀ b ∈ rest, isMediaTypeByte b = true := by
  rw [Schema.mediaTokenPattern, matches_byte_seq]
  simp only [matches_upTo_byte]

/-- A token of the schema is one of the domain. -/
private theorem mediaToken_spec {w : List UInt8} (h : Schema.mediaTokenPattern.Matches w) :
    w ≠ [] ∧ w.length ≤ 64 ∧ ∀ b ∈ w, isMediaTypeByte b = true := by
  obtain ⟨first, rest, rfl, hfirst, hlength, hrest⟩ := mediaToken_matches.mp h
  refine ⟨by simp, by rw [List.length_cons]; omega, fun b hb => ?_⟩
  rcases List.mem_cons.mp hb with rfl | hb
  · simp [isMediaTypeByte, hfirst]
  · exact hrest b hb

theorem splitSlash_append {u v : List UInt8} (hu : ∀ b ∈ u, isMediaTypeByte b = true) :
    splitSlash (u ++ 47 :: v) = some (u, v) := by
  induction u with
  | nil => simp [splitSlash]
  | cons b u ih =>
    have hb : b ≠ 47 := by
      rintro rfl
      have := hu 47 (by simp)
      revert this
      decide
    rw [List.cons_append, splitSlash, if_neg hb, ih fun c hc => hu c (by simp [hc])]
    rfl

theorem exists_mediaType {v : Json.Value} (h : Schema.mediaType v = true) :
    ∃ mediaType : MediaType, v = .string mediaType.value := by
  obtain ⟨s, rfl, -, hlength, u, w, hbytes, hu, hw⟩ := Schema.string_eq_true.mp h
  obtain ⟨slash, w, rfl, hslash, hsubtype⟩ := matches_byte_seq.mp hw
  obtain rfl : slash = 47 := by simpa using hslash
  obtain ⟨hune, hulength, huclass⟩ := mediaToken_spec hu
  obtain ⟨hwne, hwlength, hwclass⟩ := mediaToken_spec hsubtype
  refine ⟨⟨s, ?_⟩, rfl⟩
  have hall : u.all isMediaTypeByte = true ∧ w.all isMediaTypeByte = true :=
    ⟨List.all_eq_true.mpr huclass, List.all_eq_true.mpr hwclass⟩
  have hshort : ¬maxMediaTypeLength < (bytes s).length := by
    rw [hbytes, List.length_append, List.length_cons]
    unfold maxMediaTypeLength
    omega
  rw [validateMediaType, if_neg hshort, hbytes, splitSlash_append huclass]
  simp only
  rw [if_neg]
  simp only [hune, hwne, hall, not_or, false_or, Bool.not_true, Bool.false_eq_true,
    not_false_eq_true, and_true]
  omega

/-! ### Lowercase tokens -/

theorem exists_evidenceKind {v : Json.Value}
    (h : Schema.string 1 64 Schema.tokenPattern v = true) :
    ∃ kind : EvidenceKind, v = .string kind.value := by
  obtain ⟨s, rfl, -, hlength, hmatches⟩ := Schema.string_eq_true.mp h
  obtain ⟨first, rest, hbytes, hfirst, hscan⟩ := tokenPattern_matches.mp hmatches
  have hascii : (bytes s).length = s.length := length_bytes_of_ascii fun b hb => by
    rw [hbytes, List.mem_cons] at hb
    refine ascii_of_class b ?_
    rcases hb with rfl | hb
    · simp [Schema.isLowerAlphanumeric, hfirst]
    · have := mem_of_scanSegments hscan b hb
      rw [Bool.or_eq_true] at this
      rcases this with h | h <;> simp [h]
  have hle : (bytes s).length ≤ maxEvidenceKindLength := by
    unfold maxEvidenceKindLength
    omega
  exact ⟨⟨s, validateLowerToken_eq_ok.mpr ⟨hle, first, rest, hbytes, hfirst, hscan⟩⟩, rfl⟩

/-! ### Diagnostic codes -/

theorem exists_diagnosticCode {v : Json.Value}
    (h : Schema.string 1 64 Schema.diagnosticCodePattern v = true) :
    ∃ code : DiagnosticCode, v = .string code.value := by
  obtain ⟨s, rfl, -, hlength, hmatches⟩ := Schema.string_eq_true.mp h
  rw [Schema.diagnosticCodePattern, matches_byte_seq] at hmatches
  obtain ⟨first, rest, hbytes, hfirst, hrest⟩ := hmatches
  rw [matches_star_byte] at hrest
  have hclass : ∀ b ∈ first :: rest,
      (isAsciiUppercase b || isAsciiDigit b || b == 95) = true := by
    intro b hb
    rcases List.mem_cons.mp hb with rfl | hb
    · simp [hfirst]
    · exact hrest b hb
  have hascii : (bytes s).length = s.length := length_bytes_of_ascii fun b hb => by
    have := hclass b (hbytes ▸ hb)
    refine ascii_of_class b ?_
    revert this
    simp only [Bool.or_eq_true]
    tauto
  refine ⟨⟨s, ?_⟩, rfl⟩
  have hall : (first :: rest).all
      (fun b => isAsciiUppercase b || isAsciiDigit b || b == 95) = true :=
    List.all_eq_true.mpr hclass
  unfold validateDiagnosticCode
  rw [hbytes] at hascii ⊢
  simp only
  rw [if_neg (by unfold maxDiagnosticCodeLength; omega), if_neg (by rw [hall, hfirst]; decide)]

end OpenOJ
