import Mathlib.Data.List.Infix
import OpenOJ.Foundation.BigEndian
import OpenOJ.Foundation.JsonText
import OpenOJ.Foundation.Outcome

/-!
# Guest messages

The messages a judge node and the command agent inside a guest exchange, and their frames: a length,
and a JSON document with a type, a version and the fields of that type. `Message` has one variant
for each type (`Message.messageType`).

Both sides check the fields against bounds, and not the same ones:

* the writer in `Message.writeFields`: names (`checkName`), arguments (`checkArguments`),
  capabilities (`validateCapabilities`) and inline bytes, before the frame as a whole is compared
  with its bound in `Message.encode`;
* the reader in `Message.readFields` and `Message.fromValue`, with one function for each kind of
  field (`stringField`, `byteField`, `u64Field`, `i32Field` and so on), after the length of the
  frame was compared with the same bound in `Message.decode`. A field that is not there, is of
  another kind or is beyond its bound is an error of its own (`CodecError`).

`GuestDiagnostic.new` is the one constructor that repairs what it is given: it truncates a message
that is too long at a character boundary (`truncate`), so the writer of a diagnostic cannot fail on
it.
-/

namespace OpenOJ.Guest

open Outcome Json

/-- `PROTOCOL_VERSION`. -/
def protocolVersion : String := "v0alpha1"

def maxFrameBytes : Nat := 1048576

def maxTypeLen : Nat := 32

def maxCapabilities : Nat := 32

def maxCapabilityLen : Nat := 32

def maxDigestLen : Nat := 64

def maxInlineBytes : Nat := 262144

def maxNameLen : Nat := 128

def maxArguments : Nat := 32

def maxArgumentLen : Nat := 256

def maxDiagnostics : Nat := 32

def maxDiagnosticMessage : Nat := 4096

/-- Why a frame is refused. -/
inductive CodecError where
  | frameTooLarge (actual maximum : Nat)
  | boundedLengthExceeded (actual maximum : Nat)
  | truncated
  | malformedJson
  | unknownType
  | typeTooLong
  | unsupportedVersion
  | boundsExceeded (field : String) (actual maximum : Nat)
  deriving DecidableEq, Repr

/-- The length of a string in bytes. -/
def len (s : String) : Nat := (Text.bytes s).length

/-! ### Fields -/

/-- A step of the guest's pipeline. -/
inductive Stage where
  | build
  | run
  deriving DecidableEq, Repr

def Stage.asStr : Stage → String
  | .build => "build"
  | .run => "run"

/-- `Stage::parse`. -/
def Stage.parse : String → Except CodecError Stage
  | "build" => .ok .build
  | "run" => .ok .run
  | _ => .error .unknownType

structure GuestUsage where
  cpuTimeMs : UInt64
  wallTimeMs : UInt64
  memoryPeakBytes : UInt64
  outputBytes : UInt64
  deriving DecidableEq

/-- The characters that take up exactly the first bytes of a text, when they are that many. -/
def charsOfLength : List Char → Nat → Option (List Char)
  | _, 0 => some []
  | [], _ + 1 => none
  | c :: cs, n + 1 =>
    if c.utf8Size ≤ n + 1 then (charsOfLength cs (n + 1 - c.utf8Size)).map (c :: ·) else none

/-- `is_char_boundary`. -/
def isCharBoundary (value : String) (index : Nat) : Bool :=
  (charsOfLength value.toList index).isSome

/-- The loop of `truncate`: the last boundary up to an index. -/
def boundaryBelow (value : String) : Nat → Nat
  | 0 => 0
  | n + 1 => if isCharBoundary value (n + 1) then n + 1 else boundaryBelow value n

theorem isCharBoundary_boundaryBelow (value : String) (n : Nat) :
    isCharBoundary value (boundaryBelow value n) = true := by
  induction n with
  | zero => simp [boundaryBelow, isCharBoundary, charsOfLength]
  | succ n ih =>
    unfold boundaryBelow
    split <;> assumption

/-- `truncate`: the slice ends on a boundary, so it exists. -/
def truncate (value : String) (maximum : Nat) : String :=
  if len value ≤ maximum then value
  else String.ofList ((charsOfLength value.toList (boundaryBelow value maximum)).get
    (isCharBoundary_boundaryBelow value maximum))

theorem boundaryBelow_le (value : String) (n : Nat) : boundaryBelow value n ≤ n := by
  induction n with
  | zero => exact Nat.le_refl _
  | succ n ih =>
    unfold boundaryBelow
    split <;> omega

theorem length_of_charsOfLength {cs ds : List Char} {n : Nat}
    (h : charsOfLength cs n = some ds) : (Text.utf8 ds).length = n := by
  induction cs generalizing n ds with
  | nil => cases n <;> cases h; rfl
  | cons c cs ih =>
    cases n with
    | zero => cases h; rfl
    | succ n =>
      rw [charsOfLength] at h
      split_ifs at h with hfits
      obtain ⟨es, hes, rfl⟩ := Option.map_eq_some_iff.mp h
      rw [Text.utf8_cons, List.length_append, ih hes, Text.length_utf8EncodeChar]
      omega

theorem len_truncate_le (value : String) (maximum : Nat) :
    len (truncate value maximum) ≤ maximum := by
  unfold truncate
  split
  · assumption
  · have h := length_of_charsOfLength (Option.some_get
      (isCharBoundary_boundaryBelow value maximum)).symm
    rw [len, Text.bytes, String.toList_ofList, h]
    exact boundaryBelow_le value maximum

/-- A diagnostic of a guest's stage; its message is always within its bound. -/
structure GuestDiagnostic where
  code : String
  message : String
  truncated : Bool
  bounded : len message ≤ maxDiagnosticMessage
  deriving DecidableEq

/-- `GuestDiagnostic::new`. -/
def GuestDiagnostic.new (code message : String) : GuestDiagnostic where
  code := code
  message := truncate message maxDiagnosticMessage
  truncated := decide (maxDiagnosticMessage < len message)
  bounded := len_truncate_le message maxDiagnosticMessage

/-- The messages. -/
inductive Message where
  | negotiate (capabilities : List String)
  | negotiated (supported : Bool)
  | uploadInput (name digest : String) (bytes : List UInt8)
  | uploadAck (name : String) (accepted : Bool)
  | build (argv : List String) (wallTimeMs : UInt64)
  | run (argv : List String) (wallTimeMs : UInt64)
  | stageOutput (stage : Stage) (exitCode : Int32) (outputDigest : String)
      (outputBytes : UInt64) (usage : GuestUsage) (diagnostics : List GuestDiagnostic)
  | stageEvidence (kind : String)
  | evidenceAck (kind : String) (accepted : Bool)
  | cancel
  | cancelled
  | heartbeat
  | ack
  deriving DecidableEq

/-- `message_type`. -/
def Message.messageType : Message → String
  | .negotiate .. => "negotiate"
  | .negotiated .. => "negotiated"
  | .uploadInput .. => "upload_input"
  | .uploadAck .. => "upload_ack"
  | .build .. => "build"
  | .run .. => "run"
  | .stageOutput .. => "stage_output"
  | .stageEvidence .. => "stage_evidence"
  | .evidenceAck .. => "evidence_ack"
  | .cancel => "cancel"
  | .cancelled => "cancelled"
  | .heartbeat => "heartbeat"
  | .ack => "ack"

/-- An object's members, sorted by key. -/
abbrev Members := List (String × Value)

/-- `bounds`, as a check: a length beyond its bound is refused. -/
def checkBound (field : String) (actual maximum : Nat) : Except CodecError Unit :=
  refuseIf (maximum < actual) (.boundsExceeded field actual maximum)

/-! ### Checks both sides make -/

/-- Inserting into a `BTreeSet` of strings, kept as its sorted list. -/
def insertString (s : String) : List String → List String
  | [] => [s]
  | t :: ts =>
    if Text.bytes s < Text.bytes t then s :: t :: ts
    else if s = t then t :: ts
    else t :: insertString s ts

/-- `is_sorted_unique`. -/
def isSortedUnique (values : List String) : Bool :=
  let set := values.foldl (fun set value => insertString value set) []
  decide (set.length = values.length ∧ set = values)

/-- `validate_capabilities`. -/
def validateCapabilities (capabilities : List String) : Except CodecError Unit := do
  checkBound "capabilities" capabilities.length maxCapabilities
  refuseIf (isSortedUnique capabilities = false)
    (.boundsExceeded "capabilities" capabilities.length maxCapabilities)
  capabilities.forM fun capability => checkBound "capability" (len capability) maxCapabilityLen

/-- The arguments' own bound, checked in `write_command` and in `readable_command`. -/
def checkArguments (argv : List String) : Except CodecError Unit :=
  argv.forM fun argument => checkBound "argument" (len argument) maxArgumentLen

/-! ### Writing -/

/-- `json_array`. -/
def jsonArray (values : List String) : Value := .array (values.map .string)

/-- `json_bytes`. -/
def jsonBytes (bytes : List UInt8) : Value := .array (bytes.map fun b => .number b.toNat)

/-- `check_name`. -/
def checkName (name : String) : Except CodecError Unit := do
  refuseIf (name = "" ∨ maxNameLen < len name) (.boundsExceeded "name" (len name) maxNameLen)
  refuseIf ('/' ∈ name.toList ∨ '\\' ∈ name.toList ∨ "..".toList <:+: name.toList)
    (.boundsExceeded "name" (len name) maxNameLen)

/-- `write_command`. -/
def writeCommand (object : Members) (argv : List String) (wallTimeMs : UInt64) :
    Except CodecError Members := do
  refuseIf (argv = [] ∨ maxArguments < argv.length)
    (.boundsExceeded "argv" argv.length maxArguments)
  checkArguments argv
  return insert (insert object "argv" (jsonArray argv)) "wall_time_ms" (.number wallTimeMs.toNat)

/-- `usage_value`. -/
def usageValue (usage : GuestUsage) : Value :=
  let object := insert [] "cpu_time_ms" (.number usage.cpuTimeMs.toNat)
  let object := insert object "wall_time_ms" (.number usage.wallTimeMs.toNat)
  let object := insert object "memory_peak_bytes" (.number usage.memoryPeakBytes.toNat)
  .object (insert object "output_bytes" (.number usage.outputBytes.toNat))

/-- One item of `diagnostics_value`. -/
def diagnosticValue (diagnostic : GuestDiagnostic) : Value :=
  let object := insert [] "code" (.string diagnostic.code)
  let object := insert object "message" (.string diagnostic.message)
  .object (insert object "truncated" (.bool diagnostic.truncated))

/-- `diagnostics_value`. -/
def diagnosticsValue (diagnostics : List GuestDiagnostic) : Value :=
  .array (diagnostics.map diagnosticValue)

/-- `write_fields`. -/
def Message.writeFields (object : Members) : Message → Except CodecError Members
  | .negotiate capabilities => do
    validateCapabilities capabilities
    return insert object "capabilities" (jsonArray capabilities)
  | .negotiated supported => .ok (insert object "supported" (.bool supported))
  | .uploadInput name digest bytes => do
    checkName name
    checkBound "digest" (len digest) maxDigestLen
    checkBound "bytes" bytes.length maxInlineBytes
    let object := insert object "name" (.string name)
    let object := insert object "digest" (.string digest)
    return insert object "bytes" (jsonBytes bytes)
  | .uploadAck name accepted => do
    checkName name
    return insert (insert object "name" (.string name)) "accepted" (.bool accepted)
  | .build argv wallTimeMs => writeCommand object argv wallTimeMs
  | .run argv wallTimeMs => writeCommand object argv wallTimeMs
  | .stageOutput stage exitCode outputDigest outputBytes usage diagnostics => do
    checkBound "output_digest" (len outputDigest) maxDigestLen
    checkBound "diagnostics" diagnostics.length maxDiagnostics
    let object := insert object "stage" (.string stage.asStr)
    let object := insert object "exit_code" (.number exitCode.toInt)
    let object := insert object "output_digest" (.string outputDigest)
    let object := insert object "output_bytes" (.number outputBytes.toNat)
    let object := insert object "usage" (usageValue usage)
    return insert object "diagnostics" (diagnosticsValue diagnostics)
  | .stageEvidence kind => do
    checkBound "kind" (len kind) maxTypeLen
    return insert object "kind" (.string kind)
  | .evidenceAck kind accepted =>
    -- the kind of an acknowledgement is not checked
    .ok (insert (insert object "kind" (.string kind)) "accepted" (.bool accepted))
  | .cancel | .cancelled | .heartbeat | .ack => .ok object

/-! ### Reading -/

/-- `string_field`. -/
def stringField (object : Members) (key : String) (maximum : Nat) :
    Except CodecError String := do
  let value ← orRefuse .malformedJson ((get? object key).bind Value.asStr?)
  checkBound key (len value) maximum
  return value

/-- `string_vec`. -/
def stringVec (object : Members) (key : String) (maximum : Nat) :
    Except CodecError (List String) := do
  let array ← orRefuse .malformedJson ((get? object key).bind Value.asArray?)
  checkBound key array.length maximum
  array.mapM fun item => orRefuse .malformedJson item.asStr?

/-- One item of `byte_field`. -/
def byteFromValue (item : Value) : Except CodecError UInt8 := do
  let number ← orRefuse .malformedJson item.asU64?
  refuseIf (255 < number) .malformedJson
  return UInt8.ofNat number

/-- `byte_field`. -/
def byteField (object : Members) (key : String) : Except CodecError (List UInt8) := do
  let array ← orRefuse .malformedJson ((get? object key).bind Value.asArray?)
  checkBound "bytes" array.length maxInlineBytes
  array.mapM byteFromValue

/-- `bool_field`. -/
def boolField (object : Members) (key : String) : Except CodecError Bool :=
  orRefuse .malformedJson ((get? object key).bind Value.asBool?)

/-- `i32_field`. -/
def i32Field (object : Members) (key : String) : Except CodecError Int32 := do
  let number ← orRefuse .malformedJson ((get? object key).bind Value.asI64?)
  refuseIf (¬(-2147483648 ≤ number ∧ number ≤ 2147483647)) .malformedJson
  return Int32.ofInt number

/-- `u64_field`. -/
def u64Field (object : Members) (key : String) : Except CodecError UInt64 := do
  return UInt64.ofNat (← orRefuse .malformedJson ((get? object key).bind Value.asU64?))

/-- `parse_capabilities`. -/
def parseCapabilities (object : Members) : Except CodecError (List String) := do
  let capabilities ← stringVec object "capabilities" maxCapabilities
  validateCapabilities capabilities
  return capabilities

/-- `readable_command`. -/
def readableCommand (object : Members) : Except CodecError (List String × UInt64) := do
  let argv ← stringVec object "argv" maxArguments
  refuseIf (argv = []) (.boundsExceeded "argv" 0 maxArguments)
  checkArguments argv
  let wallTimeMs ← u64Field object "wall_time_ms"
  return (argv, wallTimeMs)

/-- `usage_from`. -/
def usageFrom (value : Value) : Except CodecError GuestUsage := do
  let object ← orRefuse .malformedJson value.asObject?
  let cpuTimeMs ← u64Field object "cpu_time_ms"
  let wallTimeMs ← u64Field object "wall_time_ms"
  let memoryPeakBytes ← u64Field object "memory_peak_bytes"
  let outputBytes ← u64Field object "output_bytes"
  return ⟨cpuTimeMs, wallTimeMs, memoryPeakBytes, outputBytes⟩

/-- One item of `diagnostics_from`. -/
def diagnosticFrom (item : Value) : Except CodecError GuestDiagnostic := do
  let object ← orRefuse .malformedJson item.asObject?
  let code ← stringField object "code" maxTypeLen
  let message ← stringField object "message" maxDiagnosticMessage
  let truncated ← boolField object "truncated"
  -- `stringField` has made this check already
  if bounded : len message ≤ maxDiagnosticMessage then return ⟨code, message, truncated, bounded⟩
  else .error (.boundsExceeded "message" (len message) maxDiagnosticMessage)

/-- `diagnostics_from`. -/
def diagnosticsFrom (value : Value) : Except CodecError (List GuestDiagnostic) := do
  let array ← orRefuse .malformedJson value.asArray?
  checkBound "diagnostics" array.length maxDiagnostics
  array.mapM diagnosticFrom

/-- The match of `from_value` on the type. -/
def Message.readFields (object : Members) : String → Except CodecError Message
  | "negotiate" => do return .negotiate (← parseCapabilities object)
  | "negotiated" => do return .negotiated (← boolField object "supported")
  | "upload_input" => do
    let name ← stringField object "name" maxNameLen
    let digest ← stringField object "digest" maxDigestLen
    let bytes ← byteField object "bytes"
    return .uploadInput name digest bytes
  | "upload_ack" => do
    let name ← stringField object "name" maxNameLen
    let accepted ← boolField object "accepted"
    return .uploadAck name accepted
  | "build" => do
    let (argv, wallTimeMs) ← readableCommand object
    return .build argv wallTimeMs
  | "run" => do
    let (argv, wallTimeMs) ← readableCommand object
    return .run argv wallTimeMs
  | "stage_output" => do
    let stage ← Stage.parse (← stringField object "stage" maxTypeLen)
    let exitCode ← i32Field object "exit_code"
    let outputDigest ← stringField object "output_digest" maxDigestLen
    let outputBytes ← u64Field object "output_bytes"
    let usage ← usageFrom (← orRefuse .malformedJson (get? object "usage"))
    let diagnostics ← diagnosticsFrom (← orRefuse .malformedJson (get? object "diagnostics"))
    return .stageOutput stage exitCode outputDigest outputBytes usage diagnostics
  | "stage_evidence" => do return .stageEvidence (← stringField object "kind" maxTypeLen)
  | "evidence_ack" => do
    let kind ← stringField object "kind" maxTypeLen
    let accepted ← boolField object "accepted"
    return .evidenceAck kind accepted
  | "cancel" => .ok .cancel
  | "cancelled" => .ok .cancelled
  | "heartbeat" => .ok .heartbeat
  | "ack" => .ok .ack
  | _ => .error .unknownType

/-- `from_value`. -/
def Message.fromValue (value : Value) : Except CodecError Message := do
  let object ← orRefuse .malformedJson value.asObject?
  let typeName ← orRefuse .unknownType ((get? object "type").bind Value.asStr?)
  refuseIf (maxTypeLen < len typeName) .typeTooLong
  let version ← orRefuse .unsupportedVersion ((get? object "version").bind Value.asStr?)
  refuseIf (version ≠ protocolVersion) .unsupportedVersion
  Message.readFields object typeName

/-! ### Frames -/

section Frames

variable [JsonText]

/-- The members every message has. -/
def Message.header (message : Message) : Members :=
  insert (insert [] "type" (.string message.messageType)) "version" (.string protocolVersion)

/-- `encode`. Beside this check of the size, the source adds in a `usize` and converts to a `u32`,
neither of which can fail. -/
def Message.encode (message : Message) : Except CodecError (List UInt8) := do
  let object ← message.writeFields message.header
  let body ← orRefuse .malformedJson (JsonText.toVec (.object object))
  refuseIf (maxFrameBytes < body.length + 4) (.frameTooLarge (body.length + 4) maxFrameBytes)
  return BigEndian.toBytes 4 body.length ++ body

/-- The body a frame declares, when it is within the bound and there. -/
def frameBody (frame : List UInt8) : Except CodecError (List UInt8) := do
  refuseIf (frame.length < 4) .truncated
  let length := BigEndian.ofBytes (frame.take 4)
  refuseIf (maxFrameBytes - 4 < length) (.boundedLengthExceeded length (maxFrameBytes - 4))
  refuseIf (frame.length < 4 + length) .truncated
  return (frame.drop 4).take length

/-- `decode`. -/
def Message.decode (frame : List UInt8) : Except CodecError Message := do
  let body ← frameBody frame
  let value ← orRefuse .malformedJson (JsonText.fromSlice body)
  Message.fromValue value

end Frames
end OpenOJ.Guest
