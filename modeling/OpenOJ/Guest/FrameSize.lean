import OpenOJ.Guest.Codec

/-!
# The size of frames

The writer bounds the fields of a message one by one, and then the frame as a whole. A frame is as
long as its document, and the length of a document is computed from its parts: `Message.frameSize`
adds the sizes of the fields of each variant (`Message.fieldSizes`) to those of the names and of the
punctuation between them, and `Message.length_document` says that this is the length.

The second bound follows from the first for most messages, and fails for three: an upload, whose
payload can take up four bytes of the text for each of its own, and the two messages with a text
that the writer does not bound. `Message.Fits` is the condition that is left, on the upload's bytes
or on that text.

* `Message.frameSize_le_iff`: a message within the bounds of its fields has a frame within the bound
  exactly when it fits;
* `Message.fits_of_readable`: it does when it is none of an upload and its texts are ones that a
  reader accepts;
* `encode_iff_fits`: messages within the bounds of their fields are sent exactly when they fit;
* `fullUpload_not_encoded`: a payload of `maxInlineBytes` bytes of 255 does not.
-/

namespace OpenOJ.Guest

open Outcome Json

/-! ### Sizes -/

/-- The bytes of a number. -/
def numberSize (n : Int) : Nat := (printNumber n).length

/-- The digits of a byte. -/
def byteSize (b : UInt8) : Nat := if b.toNat < 10 then 1 else if b.toNat < 100 then 2 else 3

theorem numberSize_byte (b : UInt8) : numberSize b.toNat = byteSize b :=
  Text.forall_byte (p := fun b => numberSize b.toNat = byteSize b).mpr (by decide +kernel) b

def boolSize (b : Bool) : Nat := if b then 4 else 5

/-- The bytes of an array with items of these sizes, which are those of an object with members of
these sizes. -/
def listSize (sizes : List Nat) : Nat := sizes.sum + (sizes.length - 1) + 2

theorem length_toBytes_bool (b : Bool) : (toBytes (.bool b)).length = boolSize b := by
  cases b <;> decide

theorem length_jsonArray (values : List String) :
    (toBytes (jsonArray values)).length = listSize (values.map stringSize) := by
  have hitems : (fun v => (toBytes v).length) ∘ Value.string = stringSize :=
    funext length_toBytes_string
  rw [jsonArray, length_toBytes_array, listSize, List.map_map, List.length_map, List.length_map,
    hitems]

theorem length_jsonBytes (bytes : List UInt8) :
    (toBytes (jsonBytes bytes)).length = listSize (bytes.map byteSize) := by
  have hitems : (fun v => (toBytes v).length) ∘ (fun b : UInt8 => Value.number b.toNat) =
      byteSize := by
    funext b
    exact (length_toBytes_number _).trans (numberSize_byte b)
  rw [jsonBytes, length_toBytes_array, listSize, List.map_map, List.length_map, List.length_map,
    hitems]

/-- The bytes of an object with members of these names and sizes. -/
def objectSize (sizes : List (String × Nat)) : Nat :=
  listSize (sizes.map fun member => stringSize member.1 + 1 + member.2)

/-- An object's text does not depend on the order in which its members were inserted. -/
theorem length_insertAll {fields : Members} (h : (fields.map (·.1)).Nodup) :
    (toBytes (.object (insertAll [] fields))).length =
      objectSize (fields.map fun field => (field.1, (toBytes field.2).length)) := by
  have hperm : (insertAll [] fields).Perm fields := by
    simpa using @insertAll_perm [] fields (by simpa using h)
  have hmember : memberLength =
      (fun member => stringSize member.1 + 1 + member.2) ∘
        fun field : String × Value => (field.1, (toBytes field.2).length) := by
    funext field
    obtain ⟨name, v⟩ := field
    rw [memberLength, length_printString]
    rfl
  rw [length_toBytes_object, (hperm.map memberLength).sum_eq, hperm.length_eq, objectSize, listSize,
    List.map_map, List.length_map, hmember]

def usageSize (usage : GuestUsage) : Nat :=
  objectSize [("cpu_time_ms", numberSize usage.cpuTimeMs.toNat),
    ("wall_time_ms", numberSize usage.wallTimeMs.toNat),
    ("memory_peak_bytes", numberSize usage.memoryPeakBytes.toNat),
    ("output_bytes", numberSize usage.outputBytes.toNat)]

def diagnosticSize (diagnostic : GuestDiagnostic) : Nat :=
  objectSize [("code", stringSize diagnostic.code), ("message", stringSize diagnostic.message),
    ("truncated", boolSize diagnostic.truncated)]

theorem length_usageValue (usage : GuestUsage) :
    (toBytes (usageValue usage)).length = usageSize usage := by
  rw [usageValue_eq, length_insertAll (by simp)]
  simp only [List.map_cons, List.map_nil, length_toBytes_number, usageSize, numberSize]

theorem length_diagnosticValue (diagnostic : GuestDiagnostic) :
    (toBytes (diagnosticValue diagnostic)).length = diagnosticSize diagnostic := by
  rw [diagnosticValue_eq, length_insertAll (by simp)]
  simp only [List.map_cons, List.map_nil, length_toBytes_string, length_toBytes_bool,
    diagnosticSize]

theorem length_diagnosticsValue (diagnostics : List GuestDiagnostic) :
    (toBytes (diagnosticsValue diagnostics)).length =
      listSize (diagnostics.map diagnosticSize) := by
  have hitems : (fun v => (toBytes v).length) ∘ diagnosticValue = diagnosticSize :=
    funext length_diagnosticValue
  rw [diagnosticsValue, length_toBytes_array, listSize, List.map_map, List.length_map,
    List.length_map, hitems]

/-! ### Messages -/

/-- The bytes of a message's fields. -/
def Message.fieldSizes : Message → List (String × Nat)
  | .negotiate capabilities => [("capabilities", listSize (capabilities.map stringSize))]
  | .negotiated supported => [("supported", boolSize supported)]
  | .uploadInput name digest bytes =>
    [("name", stringSize name), ("digest", stringSize digest),
      ("bytes", listSize (bytes.map byteSize))]
  | .uploadAck name accepted => [("name", stringSize name), ("accepted", boolSize accepted)]
  | .build argv wallTimeMs | .run argv wallTimeMs =>
    [("argv", listSize (argv.map stringSize)), ("wall_time_ms", numberSize wallTimeMs.toNat)]
  | .stageOutput stage exitCode outputDigest outputBytes usage diagnostics =>
    [("stage", stringSize stage.asStr), ("exit_code", numberSize exitCode.toInt),
      ("output_digest", stringSize outputDigest), ("output_bytes", numberSize outputBytes.toNat),
      ("usage", usageSize usage), ("diagnostics", listSize (diagnostics.map diagnosticSize))]
  | .stageEvidence kind => [("kind", stringSize kind)]
  | .evidenceAck kind accepted => [("kind", stringSize kind), ("accepted", boolSize accepted)]
  | .cancel | .cancelled | .heartbeat | .ack => []

/-- The bytes of a message's frame, with those of the length before it. -/
def Message.frameSize (message : Message) : Nat :=
  objectSize (("type", stringSize message.messageType) ::
    ("version", stringSize protocolVersion) :: message.fieldSizes) + 4

theorem Message.length_document (message : Message) :
    (toBytes message.document).length + 4 = message.frameSize := by
  rw [document, length_insertAll message.nodup_members, frameSize, members]
  cases message <;>
    simp only [fields, fieldSizes, List.map_cons, List.map_nil, length_toBytes_string,
      length_toBytes_bool, length_toBytes_number, length_jsonArray, length_jsonBytes,
      length_usageValue, length_diagnosticsValue, numberSize]

/-- The condition that a message within the bounds of its fields meets when its frame is within
the bound of frames. Only for an upload, and where a field has no bound, does this depend on the
fields. -/
def Message.Fits : Message → Prop
  | .uploadInput name digest bytes =>
    stringSize name + stringSize digest + listSize (bytes.map byteSize) + 75 ≤ maxFrameBytes
  | .stageOutput stage exitCode outputDigest outputBytes usage diagnostics =>
    stringSize stage.asStr + numberSize exitCode.toInt + stringSize outputDigest +
      numberSize outputBytes.toNat + usageSize usage + listSize (diagnostics.map diagnosticSize) +
        127 ≤ maxFrameBytes
  | .evidenceAck kind accepted => stringSize kind + boolSize accepted + 68 ≤ maxFrameBytes
  | _ => True

/-! ### Bounds -/

theorem boolSize_le (b : Bool) : boolSize b ≤ 5 := by
  cases b <;> decide

theorem numberSize_u64_le (n : UInt64) : numberSize n.toNat ≤ 20 :=
  length_printNumber_le (by omega) (Nat.lt_trans n.toNat_lt (by decide))

theorem numberSize_i32_le (n : Int32) : numberSize n.toInt ≤ 11 := by
  have hge := n.le_toInt
  have hlt := n.toInt_lt
  have hdigits {k : Nat} (h : k ≤ 2147483648) : (Nat.toDigits 10 k).length ≤ 10 :=
    (Nat.length_toDigits_le_iff (by omega) (by omega)).mpr (by omega)
  cases hn : n.toInt with
  | ofNat k =>
    rw [hn, Int.ofNat_eq_natCast] at hlt
    exact Nat.le_succ_of_le (hdigits (by omega))
  | negSucc k => exact Nat.succ_le_succ (hdigits (by omega))

/-- A list of items of bounded size. -/
theorem listSize_le {α : Type} {f : α → Nat} {bound : Nat} {as : List α}
    (h : ∀ a ∈ as, f a ≤ bound) : listSize (as.map f) ≤ as.length * (bound + 1) + 2 := by
  have hsum : (as.map f).sum ≤ (as.map f).length * bound :=
    List.sum_le_card_nsmul _ _ fun size hsize => by
      obtain ⟨a, ha, rfl⟩ := List.mem_map.mp hsize
      exact h a ha
  rw [List.length_map] at hsum
  rw [listSize, List.length_map, Nat.mul_add, Nat.mul_one]
  omega

theorem listSize_replicate (n size : Nat) :
    listSize (List.replicate n size) = n * size + (n - 1) + 2 := by
  rw [listSize, List.sum_replicate_nat, List.length_replicate]

theorem listSize_strings_le {values : List String} {maximum bound : Nat}
    (hlength : values.length ≤ maximum) (hbound : ∀ value ∈ values, len value ≤ bound) :
    listSize (values.map stringSize) ≤ maximum * (6 * bound + 3) + 2 := by
  have hstring : ∀ value ∈ values, stringSize value ≤ 6 * bound + 2 := fun value hvalue =>
    Nat.le_trans (stringSize_le value)
      (Nat.add_le_add_right (Nat.mul_le_mul_left 6 (hbound value hvalue)) 2)
  have hsize := listSize_le hstring
  exact Nat.le_trans hsize (Nat.add_le_add_right (Nat.mul_le_mul_right _ hlength) 2)

theorem len_of_checkArguments {argv : List String} (h : checkArguments argv = .ok ()) :
    ∀ argument ∈ argv, len argument ≤ maxArgumentLen := fun argument hargument =>
  checkBound_eq_ok.mp (forM_eq_ok.mp h argument hargument)

/-- The bytes of a command's fields. -/
theorem commandSize_le {argv : List String}
    (h : argv ≠ [] ∧ argv.length ≤ maxArguments ∧ checkArguments argv = .ok ())
    (wallTimeMs : UInt64) :
    listSize (argv.map stringSize) + numberSize wallTimeMs.toNat ≤ 49270 := by
  have hargv := listSize_strings_le h.2.1 (len_of_checkArguments h.2.2)
  have htime := numberSize_u64_le wallTimeMs
  simp only [maxArguments, maxArgumentLen] at hargv
  omega

theorem len_of_validateCapabilities {capabilities : List String}
    (h : validateCapabilities capabilities = .ok ()) :
    ∀ capability ∈ capabilities, len capability ≤ maxCapabilityLen := by
  simp only [validateCapabilities, bind_eq_ok] at h
  obtain ⟨-, -, -, -, hlen⟩ := h
  exact fun capability hcapability =>
    checkBound_eq_ok.mp (forM_eq_ok.mp hlen capability hcapability)

/-- The sizes of the names and types that the writer puts out. -/
private theorem stringSize_names :
    ["type", "version", "v0alpha1", "capabilities", "supported", "name", "digest", "bytes",
        "accepted", "argv", "wall_time_ms", "stage", "exit_code", "output_digest", "output_bytes",
        "usage", "diagnostics", "kind", "negotiate", "negotiated", "upload_input", "upload_ack",
        "build", "run", "stage_output", "stage_evidence", "evidence_ack", "cancel", "cancelled",
        "heartbeat", "ack", "cpu_time_ms", "memory_peak_bytes", "code", "message",
        "truncated"].map stringSize =
    [6, 9, 10, 14, 11, 6, 8, 7, 10, 6, 14, 7, 11, 15, 14, 7, 13, 6, 11, 12, 14, 12, 7, 5, 14, 16,
      14, 8, 11, 11, 5, 13, 19, 6, 9, 11] := by
  decide +kernel

/-- What a frame has beside the fields and the message's type. -/
theorem Message.frameSize_eq (message : Message) :
    message.frameSize =
      (message.fieldSizes.map fun field => stringSize field.1 + 1 + field.2).sum +
        message.fieldSizes.length + stringSize message.messageType + 34 := by
  have hnames := stringSize_names
  simp only [List.map_cons, List.map_nil, List.cons.injEq] at hnames
  rw [frameSize, objectSize, listSize, List.length_map]
  simp only [List.map_cons, List.sum_cons, List.length_cons, protocolVersion, hnames]
  omega

theorem Message.frameSize_uploadInput (name digest : String) (bytes : List UInt8) :
    (uploadInput name digest bytes).frameSize =
      stringSize name + stringSize digest + listSize (bytes.map byteSize) + 75 := by
  have hnames := stringSize_names
  simp only [List.map_cons, List.map_nil, List.cons.injEq] at hnames
  simp only [frameSize_eq, fieldSizes, messageType, List.map_cons, List.map_nil, List.sum_cons,
    List.sum_nil, List.length_cons, List.length_nil, hnames]
  omega

/-- **Frames that fit**: only of three kinds of messages are there some within the bounds of their
fields whose frames are beyond the bound of frames. -/
theorem Message.frameSize_le_iff {message : Message} (h : message.WriteBounds) :
    message.frameSize ≤ maxFrameBytes ↔ message.Fits := by
  have hmax : maxFrameBytes = 1048576 := rfl
  have hnames := stringSize_names
  simp only [List.map_cons, List.map_nil, List.cons.injEq] at hnames
  rw [frameSize_eq]
  cases message <;>
    simp only [fieldSizes, messageType, Fits, List.map_cons, List.map_nil, List.sum_cons,
      List.sum_nil, List.length_cons, List.length_nil, hnames, iff_true]
  -- where the fields alone decide, each is as long as its bound lets it be
  case negotiate capabilities =>
    have hcapabilities := listSize_strings_le (length_of_validateCapabilities h)
      (len_of_validateCapabilities h)
    simp only [maxCapabilities, maxCapabilityLen] at hcapabilities
    omega
  case negotiated supported =>
    have hsupported := boolSize_le supported
    omega
  case uploadAck name accepted =>
    have hname := stringSize_le name
    have hlen : (Text.bytes name).length ≤ 128 := len_of_checkName h
    have haccepted := boolSize_le accepted
    omega
  case build argv wallTimeMs =>
    have hcommand := commandSize_le h wallTimeMs
    omega
  case run argv wallTimeMs =>
    have hcommand := commandSize_le h wallTimeMs
    omega
  case stageEvidence kind =>
    have hkind := stringSize_le kind
    have hlen : (Text.bytes kind).length ≤ 32 := h
    omega
  all_goals omega

/-- Four numbers, their names and the punctuation. -/
theorem usageSize_le (usage : GuestUsage) : usageSize usage ≤ 149 := by
  have hnames := stringSize_names
  simp only [List.map_cons, List.map_nil, List.cons.injEq] at hnames
  have hcpu := numberSize_u64_le usage.cpuTimeMs
  have hwall := numberSize_u64_le usage.wallTimeMs
  have hmemory := numberSize_u64_le usage.memoryPeakBytes
  have houtput := numberSize_u64_le usage.outputBytes
  simp only [usageSize, objectSize, listSize, List.map_cons, List.map_nil, List.sum_cons,
    List.sum_nil, List.length_cons, List.length_nil, hnames]
  omega

/-- A diagnostic with a code that the reader accepts. -/
theorem diagnosticSize_le {diagnostic : GuestDiagnostic} (h : len diagnostic.code ≤ maxTypeLen) :
    diagnosticSize diagnostic ≤ 24810 := by
  have hnames := stringSize_names
  simp only [List.map_cons, List.map_nil, List.cons.injEq] at hnames
  have hcode := stringSize_le diagnostic.code
  have hmessage := stringSize_le diagnostic.message
  have htruncated := boolSize_le diagnostic.truncated
  have hcodeLen : (Text.bytes diagnostic.code).length ≤ 32 := h
  have hmessageLen : (Text.bytes diagnostic.message).length ≤ 4096 := diagnostic.bounded
  simp only [diagnosticSize, objectSize, listSize, List.map_cons, List.map_nil, List.sum_cons,
    List.sum_nil, List.length_cons, List.length_nil, hnames]
  omega

/-- What the reader bounds as well fits, unless it is an upload. -/
theorem Message.fits_of_readable {message : Message} (h : message.WriteBounds)
    (hreadable : message.Readable) (hupload : ∀ name digest bytes,
      message ≠ .uploadInput name digest bytes) : message.Fits := by
  have hmax : maxFrameBytes = 1048576 := rfl
  cases message with
  | uploadInput name digest bytes => exact absurd rfl (hupload name digest bytes)
  | stageOutput stage exitCode outputDigest outputBytes usage diagnostics =>
    have hstage := stringSize_le stage.asStr
    have hstageLen : (Text.bytes stage.asStr).length ≤ 32 := len_asStr_le stage
    have hexit := numberSize_i32_le exitCode
    have hdigest := stringSize_le outputDigest
    have hdigestLen : (Text.bytes outputDigest).length ≤ 64 := h.1
    have houtput := numberSize_u64_le outputBytes
    have husage := usageSize_le usage
    have hlength : diagnostics.length ≤ 32 := h.2
    have hdiagnostics := listSize_le (f := diagnosticSize) fun diagnostic hdiagnostic =>
      diagnosticSize_le (hreadable diagnostic hdiagnostic)
    rw [Fits]
    omega
  | evidenceAck kind accepted =>
    have hkind := stringSize_le kind
    have hlen : (Text.bytes kind).length ≤ 32 := hreadable
    have haccepted := boolSize_le accepted
    rw [Fits]
    omega
  | _ => trivial

section Frames

variable [JsonText]

/-- What the writer does with a message that is within the bounds of its fields. -/
theorem Message.encode_eq (hprints : Prints) {message : Message} (h : message.WriteBounds) :
    message.encode =
      if message.frameSize ≤ maxFrameBytes then .ok (compactFrame message.document)
      else .error (.frameTooLarge message.frameSize maxFrameBytes) := by
  have hbody := hprints _ message.native_document
  have hlength := message.length_document
  have hfields : message.writeFields message.header = .ok (insertAll [] message.members) :=
    writeFields_eq_ok.mpr ⟨h, message.header_eq.symm⟩
  split_ifs with hfits
  · exact encode_eq_ok.mpr ⟨h, _, hbody, hlength ▸ hfits, rfl⟩
  · rw [encode, hfields, ok_bind, ← document, hbody, orRefuse_some, ok_bind,
      refuseIf_pos (by omega), hlength]
    rfl

/-- **Messages within the bounds of their fields are sent** exactly when they fit. -/
theorem encode_iff_fits (hprints : Prints) {message : Message} (h : message.WriteBounds) :
    (∃ frame, message.encode = .ok frame) ↔ message.Fits := by
  rw [← Message.frameSize_le_iff h, Message.encode_eq hprints h]
  split_ifs with hfits
  · exact iff_of_true ⟨_, rfl⟩ hfits
  · exact iff_of_false (by rintro ⟨_, ⟨⟩⟩) hfits

end Frames

attribute [local instance] compactText in
/-- A short upload, of bytes with one, two and three digits, is sent. -/
theorem encode_iff_fits_fixture :
    ∃ frame, (Message.uploadInput "main.c" (String.ofList (List.replicate 64 'a'))
      [9, 35, 255]).encode = .ok frame := by
  have hbounds : (Message.uploadInput "main.c" (String.ofList (List.replicate 64 'a'))
      [9, 35, 255]).WriteBounds := ⟨by decide +kernel, by decide +kernel, by decide⟩
  refine (encode_iff_fits compactText_prints hbounds).mpr ?_
  unfold Message.Fits
  decide +kernel

/-- An upload of as many bytes as are allowed, each of three digits. -/
def fullUpload : Message :=
  .uploadInput "main.c" (String.ofList (List.replicate 64 'a')) (List.replicate maxInlineBytes 255)

attribute [local instance] compactText in
/-- Its frame is 150 bytes too long. -/
theorem fullUpload_not_encoded :
    fullUpload.WriteBounds ∧
      fullUpload.encode = .error (.frameTooLarge 1048726 1048576) := by
  have hbounds : fullUpload.WriteBounds :=
    ⟨by decide, by decide, Nat.le_of_eq List.length_replicate⟩
  have hbytes : listSize ((List.replicate maxInlineBytes 255).map byteSize) = 1048577 := by
    rw [List.map_replicate, listSize_replicate]
    rfl
  have hsize : fullUpload.frameSize = 1048726 := by
    rw [fullUpload, Message.frameSize_uploadInput, hbytes]
    decide
  refine ⟨hbounds, ?_⟩
  rw [Message.encode_eq compactText_prints hbounds, hsize]
  exact if_neg (by decide)

end OpenOJ.Guest
