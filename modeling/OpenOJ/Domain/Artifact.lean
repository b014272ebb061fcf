import OpenOJ.Domain.Value

/-!
# Artifact references

A content-addressed artifact: its identifier, digest, media type, declared size and sensitivity
(`ArtifactRef`). Nothing here looks at what an artifact holds.

The media type is the one part with a syntax of its own. `validateMediaType` splits it at its slash
and asks of both halves that they consist of `isMediaTypeByte`s; the first byte of a half is not
treated differently, which the schema of documents does. `MediaType.parse` is the only way to one,
so that every `MediaType` in the model has passed it, and its text is between one and 129 bytes long
(`MediaType.length_pos`, `MediaType.length_le`).

`ArtifactRef.new` checks the declared size against `maxArtifactBytes`, the bound of every artifact a
request or a result may refer to.
-/

namespace OpenOJ

open Text

def maxArtifactBytes : Nat := 1099511627776

def maxMediaTypeLength : Nat := 129

/-- Who may see an artifact. -/
inductive ArtifactSensitivity where
  | publicArtifact
  | privateArtifact
  | hiddenArtifact
  deriving DecidableEq, Repr

/-- The name of a sensitivity on the wire and in the database. -/
def ArtifactSensitivity.asStr : ArtifactSensitivity → String
  | .publicArtifact => "public"
  | .privateArtifact => "private"
  | .hiddenArtifact => "hidden"

/-- `is_media_type_byte`: alphanumeric or one of `! # $ & ^ _ . + -`. -/
def isMediaTypeByte (b : UInt8) : Bool :=
  isAsciiAlphanumeric b || b == 33 || b == 35 || b == 36 || b == 38 || b == 94 || b == 95 ||
    b == 46 || b == 43 || b == 45

/-- `value.split_once('/')`, on bytes. -/
def splitSlash : List UInt8 → Option (List UInt8 × List UInt8)
  | [] => none
  | b :: rest =>
    if b = 47 then some ([], rest)
    else (splitSlash rest).map fun (before, after) => (b :: before, after)

/-- The checks of `MediaType::parse`. -/
def validateMediaType (value : String) : Except DomainError Unit :=
  if maxMediaTypeLength < (bytes value).length then
    .error (.tooLong "media_type" maxMediaTypeLength (bytes value).length)
  else
    match splitSlash (bytes value) with
    | none => .error (.invalidFormat "media_type" "expected type/subtype")
    | some (topLevel, subtype) =>
      if topLevel = [] ∨ subtype = [] ∨ 64 < topLevel.length ∨ 64 < subtype.length ∨
          !topLevel.all isMediaTypeByte ∨ !subtype.all isMediaTypeByte then
        .error (.invalidFormat "media_type" "type and subtype must be bounded ASCII tokens")
      else .ok ()

/-- A bounded `type/subtype` media type without parameters. -/
structure MediaType where
  value : String
  valid : validateMediaType value = .ok ()
  deriving DecidableEq

def MediaType.parse (value : String) : Except DomainError MediaType :=
  match h : validateMediaType value with
  | .ok () => .ok ⟨value, h⟩
  | .error e => .error e

/-- A content-addressed artifact reference. -/
structure ArtifactRef where
  artifactId : ArtifactId
  digest : ContentDigest
  mediaType : MediaType
  sizeBytes : Nat
  sensitivity : ArtifactSensitivity
  bounded : sizeBytes ≤ maxArtifactBytes
  deriving DecidableEq

/-- `ArtifactRef::new`. -/
def ArtifactRef.new (artifactId : ArtifactId) (digest : ContentDigest) (mediaType : MediaType)
    (sizeBytes : Nat) (sensitivity : ArtifactSensitivity) : Except DomainError ArtifactRef :=
  if h : sizeBytes ≤ maxArtifactBytes then
    .ok ⟨artifactId, digest, mediaType, sizeBytes, sensitivity, h⟩
  else .error (.outOfRange "artifact_size_bytes" 0 maxArtifactBytes sizeBytes)

@[simp]
theorem MediaType.parse_value (m : MediaType) : MediaType.parse m.value = .ok m := by
  unfold MediaType.parse
  split
  · rfl
  · rename_i h
    rw [m.valid] at h
    cases h

theorem MediaType.value_of_parse {value : String} {m : MediaType}
    (h : MediaType.parse value = .ok m) : m.value = value := by
  unfold MediaType.parse at h
  split at h
  · exact Except.ok.inj h ▸ rfl
  · cases h

theorem MediaType.length_pos (m : MediaType) : 1 ≤ (bytes m.value).length := by
  have h := m.valid
  unfold validateMediaType at h
  cases hbytes : bytes m.value with
  | nil =>
    rw [hbytes] at h
    split at h <;> cases h
  | cons => simp

theorem MediaType.length_le (m : MediaType) : (bytes m.value).length ≤ maxMediaTypeLength := by
  have h := m.valid
  unfold validateMediaType at h
  split at h
  · cases h
  · omega

end OpenOJ
