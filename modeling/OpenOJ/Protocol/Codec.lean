import OpenOJ.Foundation.Outcome
import OpenOJ.Protocol.Schema

/-!
# Bounded, schema-checked coding

Both messages are coded the same way: through a wire type generated from the schema, with the schema
checked on the document and the byte limit on the text. `decodeWire` checks the limit, reads the
text into the wire type, writes the document of what was read and checks that against the schema;
`encodeWire` takes a document, checks it, passes it through the wire type and checks the limit of
the text it is printed as.

The wire types and the JSON library that reads and writes them are not part of the repository, so
they are a parameter, `Wire`, with one `WireType` for each of the two messages. `WireType.Lossless`
is what is assumed of a wire type where a proof needs it: a schema-valid document passes through the
type, and its text, unchanged. `WireType.json` is a wire type that satisfies it
(`WireType.json_lossless`).

What the two directions come to is stated once and used for both messages:

* `decodeWire_eq_ok`, `encodeWire_eq_ok`: their checks, one by one;
* `decodeWire_of_encodeWire`: what was encoded through a lossless type decodes to the same document;
* `exists_encodeWire`: a schema-valid document whose text is within the limit is encoded;
* `length_of_encodeWire`: what was encoded is within the limit.

The readers of members (`field`, `stringField`, `u64Field` and the views) report every member that
is not there, or is of another kind, as a `ProtocolError`.
-/

namespace OpenOJ

open Outcome

def maxEvaluationRequestBytes : Nat := 262144

def maxEvaluationResultBytes : Nat := 1048576

/-- `SCHEMA_VERSION`. -/
def schemaVersion : String := "openoj.evaluation/v0alpha1"

/-- Why a message is refused. -/
inductive ProtocolError where
  | messageTooLarge (maximum actual : Nat)
  | malformedDocument
  | schemaViolation
  | semanticViolation
  | domain (error : DomainError)
  | encodingFailed
  deriving DecidableEq, Repr

/-! ### Wire types -/

/-- A type generated from a definition of the schema, with `serde_json`'s four functions
at it. -/
structure WireType where
  Doc : Type
  fromSlice : List UInt8 → Option Doc
  toValue : Doc → Option Json.Value
  fromValue : Json.Value → Option Doc
  toVec : Doc → Option (List UInt8)

/-- The generated wire types. -/
class Wire where
  request : WireType
  result : WireType

/-- A wire type loses nothing of the documents its schema accepts: such a document has a
typed form, which is that document again, and whose compact text reads back as it. -/
def WireType.Lossless (wire : WireType) (schema : Schema) : Prop :=
  ∀ v, schema v = true → Json.ordered v = true →
    ∃ doc text, wire.fromValue v = some doc ∧ wire.toValue doc = some v ∧
      wire.toVec doc = some text ∧ wire.fromSlice text = some doc ∧
        text.length = (Json.toBytes v).length

/-- The wire type whose documents are JSON documents themselves. -/
def WireType.json : WireType where
  Doc := Json.Value
  fromSlice := Json.ofBytes
  toValue := some
  fromValue := some
  toVec v := some (Json.toBytes v)

theorem WireType.json_lossless (schema : Schema) : WireType.json.Lossless schema :=
  fun v _ _ => ⟨v, Json.toBytes v, rfl, rfl, rfl, Json.ofBytes_toBytes v, rfl⟩

/-- Both messages coded as plain JSON documents. -/
@[reducible]
def jsonWire : Wire where
  request := .json
  result := .json

/-! ### The two directions -/

/-- `ensure_size`. -/
def ensureSize (actual maximum : Nat) : Except ProtocolError Unit :=
  refuseIf (maximum < actual) (.messageTooLarge maximum actual)

/-- `validate`. -/
def validate (v : Json.Value) : Except ProtocolError Unit :=
  refuseIf (Schema.openEvaluationMessage v = false) .schemaViolation

/-- `decode_wire`. -/
def decodeWire (wire : WireType) (input : List UInt8) (maximum : Nat) :
    Except ProtocolError Json.Value := do
  ensureSize input.length maximum
  let typed ← orRefuse .malformedDocument (wire.fromSlice input)
  let value ← orRefuse .encodingFailed (wire.toValue typed)
  validate value
  return value

/-- `encode_wire`. -/
def encodeWire (wire : WireType) (value : Json.Value) (maximum : Nat) :
    Except ProtocolError (List UInt8) := do
  validate value
  let typed ← orRefuse .schemaViolation (wire.fromValue value)
  let encoded ← orRefuse .encodingFailed (wire.toVec typed)
  ensureSize encoded.length maximum
  return encoded

theorem decodeWire_eq_ok {wire : WireType} {input : List UInt8} {maximum : Nat}
    {value : Json.Value} :
    decodeWire wire input maximum = .ok value ↔
      input.length ≤ maximum ∧
        (∃ typed, wire.fromSlice input = some typed ∧ wire.toValue typed = some value) ∧
          Schema.openEvaluationMessage value = true := by
  simp only [decodeWire, ensureSize, validate, bind_eq_ok, refuseIf_eq_ok, orRefuse_eq_ok,
    exists_const, pure, Except.pure, Except.ok.injEq, Nat.not_lt, Bool.not_eq_false]
  constructor
  · rintro ⟨hsize, typed, hslice, v, hvalue, hvalid, rfl⟩
    exact ⟨hsize, ⟨typed, hslice, hvalue⟩, hvalid⟩
  · rintro ⟨hsize, ⟨typed, hslice, hvalue⟩, hvalid⟩
    exact ⟨hsize, typed, hslice, value, hvalue, hvalid, rfl⟩

theorem encodeWire_eq_ok {wire : WireType} {value : Json.Value} {maximum : Nat}
    {encoded : List UInt8} :
    encodeWire wire value maximum = .ok encoded ↔
      Schema.openEvaluationMessage value = true ∧
        (∃ typed, wire.fromValue value = some typed ∧ wire.toVec typed = some encoded) ∧
          encoded.length ≤ maximum := by
  simp only [encodeWire, ensureSize, validate, bind_eq_ok, refuseIf_eq_ok, orRefuse_eq_ok,
    exists_const, pure, Except.pure, Except.ok.injEq, Nat.not_lt, Bool.not_eq_false]
  constructor
  · rintro ⟨hvalid, typed, hvalue, b, hvec, hsize, rfl⟩
    exact ⟨hvalid, ⟨typed, hvalue, hvec⟩, hsize⟩
  · rintro ⟨hvalid, ⟨typed, hvalue, hvec⟩, hsize⟩
    exact ⟨hvalid, typed, hvalue, encoded, hvec, hsize, rfl⟩

section Lossless

variable {wire : WireType} {schema : Schema} {v : Json.Value} {maximum : Nat}

/-- Through a lossless wire type, what was encoded decodes to the same document. -/
theorem decodeWire_of_encodeWire {encoded : List UInt8} (hl : wire.Lossless schema)
    (hs : schema v = true) (ho : Json.ordered v = true)
    (h : encodeWire wire v maximum = .ok encoded) :
    decodeWire wire encoded maximum = .ok v := by
  obtain ⟨hvalid, ⟨typed, hvalue, hvec⟩, hsize⟩ := encodeWire_eq_ok.mp h
  obtain ⟨doc, text, hdoc, hback, htext, hslice, -⟩ := hl v hs ho
  obtain rfl : doc = typed := Option.some.inj (hdoc.symm.trans hvalue)
  obtain rfl : text = encoded := Option.some.inj (htext.symm.trans hvec)
  exact decodeWire_eq_ok.mpr ⟨hsize, ⟨doc, hslice, hback⟩, hvalid⟩

/-- A valid document whose text is within the limit is encoded, and never to no bytes. -/
theorem exists_encodeWire (hl : wire.Lossless schema) (hs : schema v = true)
    (ho : Json.ordered v = true) (hvalid : Schema.openEvaluationMessage v = true)
    (hsize : (Json.toBytes v).length ≤ maximum) :
    ∃ encoded, encodeWire wire v maximum = .ok encoded := by
  obtain ⟨doc, text, hdoc, -, htext, -, hlen⟩ := hl v hs ho
  exact ⟨text, encodeWire_eq_ok.mpr ⟨hvalid, ⟨doc, hdoc, htext⟩, hlen ▸ hsize⟩⟩

/-- The encoded text has the length of the document's own text. -/
theorem length_of_encodeWire {encoded : List UInt8} (hl : wire.Lossless schema)
    (hs : schema v = true) (ho : Json.ordered v = true)
    (h : encodeWire wire v maximum = .ok encoded) :
    encoded.length = (Json.toBytes v).length := by
  obtain ⟨-, ⟨typed, hvalue, hvec⟩, -⟩ := encodeWire_eq_ok.mp h
  obtain ⟨doc, text, hdoc, -, htext, -, hlen⟩ := hl v hs ho
  obtain rfl : doc = typed := Option.some.inj (hdoc.symm.trans hvalue)
  obtain rfl : text = encoded := Option.some.inj (htext.symm.trans hvec)
  exact hlen

end Lossless

/-! ### Reading members -/

/-- `as_object`. -/
def asObject (v : Json.Value) : Except ProtocolError (List (String × Json.Value)) :=
  orRefuse .schemaViolation v.asObject?

/-- `as_array`. -/
def asArray (v : Json.Value) : Except ProtocolError (List Json.Value) :=
  orRefuse .schemaViolation v.asArray?

/-- `as_str`. -/
def asStr (v : Json.Value) : Except ProtocolError String := orRefuse .schemaViolation v.asStr?

/-- `field`. -/
def field (object : List (String × Json.Value)) (name : String) :
    Except ProtocolError Json.Value :=
  orRefuse .schemaViolation (Json.get? object name)

/-- `string_field`. -/
def stringField (object : List (String × Json.Value)) (name : String) :
    Except ProtocolError String := do
  asStr (← field object name)

/-- `u64_field`. -/
def u64Field (object : List (String × Json.Value)) (name : String) :
    Except ProtocolError Nat := do
  orRefuse .schemaViolation (← field object name).asU64?

/-- `ProtocolError::from` a domain error. -/
def fromDomain {α : Type} : Except DomainError α → Except ProtocolError α
  | .ok a => .ok a
  | .error e => .error (.domain e)

@[simp] theorem fromDomain_ok {α : Type} (a : α) : fromDomain (.ok a) = .ok a := rfl

@[simp]
theorem fromDomain_eq_ok {α : Type} {x : Except DomainError α} {a : α} :
    fromDomain x = .ok a ↔ x = .ok a := by
  cases x <;> simp [fromDomain]

end OpenOJ
