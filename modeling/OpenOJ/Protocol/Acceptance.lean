import OpenOJ.Protocol.Request
import OpenOJ.Protocol.Tokens

/-!
# What the schema accepts of the domain

The values of a request are checked twice: by the parsers of the domain when the request is built,
and by the schema when it is encoded. The parsers and the patterns were written independently, the
ones over bytes and the others as regular expressions, and this module compares them value by value.

What a parser accepts, the schema accepts (`Schema.opaqueId_admits`, `Schema.idempotencyKey_admits`,
`Schema.contentDigest_admits`, `Schema.capability_admits`), with one exception: a token of a media
type may begin with any of its characters in the domain, and only with a letter or a digit in the
schema. `LeadsWell` is the condition that separates the two, on the media type alone:

* `MediaType.exists_tokens`: every media type is two tokens around one slash;
* `MediaType.schema_iff`: of those the domain accepts, the schema accepts exactly the ones that lead
  well.

Since the domain's bounds leave every request within the message limit, nothing else can fail:

* `encodable_iff`: a domain request is encoded exactly when the media type of its source leads well;
* `encode_refused`: else the encoder refuses it as a document the schema does not accept;
* `plusRequest_refused`: a request of the second kind, whose media type begins with a plus sign.
-/

namespace OpenOJ

open Outcome Text Regex

/-! ### Media types -/

/-- Both tokens of a media type begin with a letter or a digit. -/
def LeadsWell (value : String) : Bool :=
  (splitSlash (bytes value)).any fun (topLevel, subtype) =>
    topLevel.head?.any isAsciiAlphanumeric && subtype.head?.any isAsciiAlphanumeric

/-- A token of a media type as the domain has it. -/
structure IsMediaToken (token : List UInt8) : Prop where
  nonempty : token ≠ []
  bounded : token.length ≤ 64
  alphabet : ∀ b ∈ token, isMediaTypeByte b = true

/-- The slash is never part of a token. -/
private theorem append_of_splitSlash {w topLevel subtype : List UInt8}
    (h : splitSlash w = some (topLevel, subtype)) : w = topLevel ++ 47 :: subtype := by
  induction w generalizing topLevel with
  | nil => cases h
  | cons b w ih =>
    rw [splitSlash] at h
    split_ifs at h with hslash
    · obtain ⟨rfl, rfl⟩ := Prod.mk.inj (Option.some.inj h)
      rw [hslash]
      rfl
    · obtain ⟨⟨before, after⟩, hsplit, heq⟩ := Option.map_eq_some_iff.mp h
      obtain ⟨rfl, rfl⟩ := Prod.mk.inj heq
      rw [ih hsplit]
      rfl

/-- What the domain's parser has seen of a media type. -/
theorem MediaType.exists_tokens (mediaType : MediaType) :
    ∃ topLevel subtype, splitSlash (bytes mediaType.value) = some (topLevel, subtype) ∧
      IsMediaToken topLevel ∧ IsMediaToken subtype := by
  have h := mediaType.valid
  unfold validateMediaType at h
  split_ifs at h
  cases hsplit : splitSlash (bytes mediaType.value) with
  | none =>
    rw [hsplit] at h
    cases h
  | some tokens =>
    obtain ⟨topLevel, subtype⟩ := tokens
    rw [hsplit] at h
    dsimp only at h
    split_ifs at h with hbad
    simp only [not_or, Nat.not_lt, Bool.not_eq_true', Bool.not_eq_false, List.all_eq_true] at hbad
    obtain ⟨htop, hsub, htopLength, hsubLength, htopClass, hsubClass⟩ := hbad
    exact ⟨topLevel, subtype, rfl, ⟨htop, htopLength, htopClass⟩, ⟨hsub, hsubLength, hsubClass⟩⟩

/-- A token of the domain is one of the schema exactly when it begins well. -/
private theorem IsMediaToken.matches_iff {token : List UInt8} (h : IsMediaToken token) :
    Schema.mediaTokenPattern.Matches token ↔ token.head?.any isAsciiAlphanumeric = true := by
  obtain ⟨first, rest, rfl⟩ := List.exists_cons_of_ne_nil h.nonempty
  have hlength := h.bounded
  rw [List.length_cons] at hlength
  rw [mediaToken_matches, List.head?_cons, Option.any_some]
  constructor
  · rintro ⟨_, _, heq, hfirst, -⟩
    obtain ⟨rfl, -⟩ := List.cons.inj heq
    exact hfirst
  · intro hfirst
    refine ⟨first, rest, rfl, hfirst, by omega, fun b hb => ?_⟩
    exact h.alphabet b (List.mem_cons_of_mem first hb)

private theorem ascii_of_mediaTypeByte : ∀ b : UInt8, isMediaTypeByte b = true → b.toNat < 128 := by
  rw [forall_byte]
  decide +kernel

/-- **Media types**: of those the domain accepts, the schema accepts the ones that lead well. -/
theorem MediaType.schema_iff (mediaType : MediaType) :
    Schema.mediaType (.string mediaType.value) = true ↔ LeadsWell mediaType.value = true := by
  obtain ⟨topLevel, subtype, hsplit, htop, hsub⟩ := mediaType.exists_tokens
  have hbytes := append_of_splitSlash hsplit
  have hleads : LeadsWell mediaType.value = true ↔
      Schema.mediaTokenPattern.Matches topLevel ∧ Schema.mediaTokenPattern.Matches subtype := by
    rw [LeadsWell, hsplit, Option.any_some, Bool.and_eq_true, htop.matches_iff, hsub.matches_iff]
  rw [hleads]
  constructor
  · intro h
    obtain ⟨_, hvalue, -, -, u, w, huw, hu, hw⟩ := Schema.string_eq_true.mp h
    obtain rfl := Json.Value.string.inj hvalue
    obtain ⟨slash, rest, rfl, hslash, hrest⟩ := matches_byte_seq.mp hw
    obtain rfl : slash = 47 := by simpa using hslash
    -- both splits are at the first slash
    have hclass : ∀ b ∈ u, isMediaTypeByte b = true := by
      obtain ⟨first, rest, rfl, hfirst, -, hrest⟩ := mediaToken_matches.mp hu
      intro b hb
      rcases List.mem_cons.mp hb with rfl | hb
      · simp [isMediaTypeByte, hfirst]
      · exact hrest b hb
    rw [huw, splitSlash_append hclass] at hsplit
    obtain ⟨rfl, rfl⟩ := Prod.mk.inj (Option.some.inj hsplit)
    exact ⟨hu, hrest⟩
  · rintro ⟨hu, hw⟩
    have hascii : (bytes mediaType.value).length = mediaType.value.length := by
      refine length_bytes_of_ascii fun b hb => ?_
      rw [hbytes, List.mem_append, List.mem_cons] at hb
      rcases hb with hb | rfl | hb
      · exact ascii_of_mediaTypeByte b (htop.alphabet b hb)
      · decide
      · exact ascii_of_mediaTypeByte b (hsub.alphabet b hb)
    have hlength := congrArg List.length hbytes
    rw [List.length_append, List.length_cons] at hlength
    have htopPos := List.length_pos_iff.mpr htop.nonempty
    have hsubPos := List.length_pos_iff.mpr hsub.nonempty
    have hmax := mediaType.length_le
    unfold maxMediaTypeLength at hmax
    refine Schema.string_eq_true.mpr ⟨_, rfl, by omega, by omega, ?_⟩
    rw [hbytes]
    exact ⟨topLevel, 47 :: subtype, rfl, hu, matches_byte_seq.mpr ⟨47, subtype, rfl, rfl, hw⟩⟩

/-! ### Requests -/

/-- Whatever the parser accepts, the schema accepts. -/
def Schema.Admits {α : Type} (schema : Schema) (parse : String → Except DomainError α) : Prop :=
  ∀ value a, parse value = .ok a → schema (.string value) = true

theorem Schema.opaqueId_admits (field : String) : Schema.opaqueId.Admits (OpaqueId.parse field) :=
  fun _ id h => OpaqueId.value_of_parse h ▸ Schema.opaqueId_value id

theorem Schema.idempotencyKey_admits : Schema.idempotencyKey.Admits IdempotencyKey.parse :=
  fun _ key h => IdempotencyKey.value_of_parse h ▸ Schema.idempotencyKey_value key

theorem Schema.contentDigest_admits : Schema.contentDigest.Admits ContentDigest.parse :=
  fun _ digest h => ContentDigest.value_of_parse h ▸ Schema.contentDigest_value digest

theorem Schema.capability_admits : Schema.capability.Admits Capability.parse :=
  fun _ capability h => Capability.value_of_parse h ▸ Schema.capability_value capability

section Codec

variable [Wire]

/-- A request with another media type is refused by the schema. -/
theorem encode_refused {request : EvaluationRequest}
    (h : LeadsWell request.submission.source.mediaType.value = false) :
    encodeEvaluationRequest request = .error .schemaViolation := by
  have hrefused : Schema.openEvaluationMessage (requestToValue request) = false := by
    rw [← Bool.not_eq_true]
    intro hvalid
    have haccepted :=
      mediaTypeAccepted_of_requestFromValue (requestFromValue_toValue request) hvalid
    rw [EvaluationRequest.MediaTypeAccepted, MediaType.schema_iff, h] at haccepted
    cases haccepted
  rw [encodeEvaluationRequest, encodeWire, validate, refuseIf, if_pos hrefused]
  rfl

/-- **Domain and schema.** Each parser of identifiers, keys, digests and capabilities accepts only
what the schema accepts; of the media types, the schema accepts those that lead well; and nothing
else decides whether a domain request is encoded. -/
theorem encodable_iff (hl : LosslessRequests) :
    (∀ field, Schema.opaqueId.Admits (OpaqueId.parse field)) ∧
      Schema.idempotencyKey.Admits IdempotencyKey.parse ∧
      Schema.contentDigest.Admits ContentDigest.parse ∧
      Schema.capability.Admits Capability.parse ∧
      (∀ value mediaType, MediaType.parse value = .ok mediaType →
        (Schema.mediaType (.string value) = true ↔ LeadsWell value = true)) ∧
      ∀ request : EvaluationRequest, (∃ payload, encodeEvaluationRequest request = .ok payload) ↔
        LeadsWell request.submission.source.mediaType.value = true := by
  refine ⟨Schema.opaqueId_admits, Schema.idempotencyKey_admits, Schema.contentDigest_admits,
    Schema.capability_admits, fun value mediaType hparse => ?_, fun request => ?_⟩
  · obtain rfl := MediaType.value_of_parse hparse
    exact mediaType.schema_iff
  · rw [← MediaType.schema_iff]
    exact ⟨fun ⟨_, hencode⟩ => mediaTypeAccepted_of_encode hencode, fun h => exists_encode hl h⟩

end Codec

/-! ### A media type of the domain alone -/

/-- `+x/y`. -/
def plusMediaType : MediaType := ⟨"+x/y", by decide +kernel⟩

/-- The fixture's request for a source of this media type. -/
def plusRequest : EvaluationRequest where
  toEvaluationRequestParts :=
    { fixtureParts with
      submission :=
        { fixtureParts.submission with
          source := { fixtureParts.submission.source with mediaType := plusMediaType } } }
  valid := fixtureRequest.valid

section Json

attribute [local instance] jsonWire

/-- The fixture's media type leads well, and the fixture can be encoded. -/
theorem encodable_fixture :
    LeadsWell fixtureRequest.submission.source.mediaType.value = true ∧
      ∃ payload, encodeEvaluationRequest fixtureRequest = .ok payload := by
  have hleads := (MediaType.schema_iff _).mp fixtureParts_mediaType
  exact ⟨hleads, ((encodable_iff (WireType.json_lossless _)).2.2.2.2.2 fixtureRequest).mpr hleads⟩

/-- The domain accepts the media type and builds the request; the schema refuses both. -/
theorem plusRequest_refused :
    MediaType.parse "+x/y" = .ok plusMediaType ∧ Schema.mediaType (.string "+x/y") = false ∧
      encodeEvaluationRequest plusRequest = .error .schemaViolation := by
  have hleads : LeadsWell "+x/y" = false := by decide +kernel
  refine ⟨plusMediaType.parse_value, ?_, encode_refused hleads⟩
  rw [← Bool.not_eq_true]
  intro h
  exact Bool.false_ne_true (hleads.symm.trans (plusMediaType.schema_iff.mp h))

end Json
end OpenOJ
