import OpenOJ.Guest.Message

/-!
# Guest frames in both directions

Every message has one document, the object with its `members`. The writer puts out this document
when the message is within `WriteBounds`; the reader accepts as the message every document that says
at least this much, when the message is within `ReadBounds`. Where the two bounds differ, frames
that were written cannot be read, and messages that were read cannot be written.

* `Message.encode_eq_ok`: what is written;
* `Message.fromValue_eq_ok`: what is read, found field by field (`stringField_eq_ok`,
  `u64Field_eq_ok` and so on) and put together along the variants (`Message.readFields_eq_ok`);
* `Message.decode_eq_ok`: a frame decodes to a message when its length is right and its body is read
  as a document that says so.

The two bounds are compared variant by variant (`Message.readBounds_iff`,
`Message.writeBounds_iff`): the reader bounds two texts that the writer does not
(`Message.Readable`), and the writer checks the names of uploads (`NameAllowed`).

* `decode_encode_iff`: decoding undoes encoding exactly for the readable messages;
  `longAck_not_decoded` is one that is not;
* `encode_decoded_iff`: what was decoded can be sent again exactly when the name in its document is
  one the writer accepts, since its compact text is no longer than the frame it came in;
  `escapingUpload_not_encoded` is an upload that cannot.
-/

namespace OpenOJ.Guest

open Outcome Json

/-! ### One field -/

theorem checkBound_eq_ok {field : String} {actual maximum : Nat} {u : Unit} :
    checkBound field actual maximum = .ok u ↔ actual ≤ maximum := by
  rw [checkBound, refuseIf_eq_ok, Nat.not_lt]

/-- Items that are read one by one are read from an array that says what they are written as,
if there are not too many and each passes the reader's check. -/
private theorem items_eq_ok {α : Type} {read : Value → Except CodecError α} {write : α → Value}
    {check : α → Prop} (h : ∀ v a, read v = .ok a ↔ Covers v (write a) ∧ check a)
    {name : String} {maximum : Nat} {items : List Value} {as : List α} :
    (checkBound name items.length maximum >>= fun _ => items.mapM read) = .ok as ↔
      Covers (.array items) (.array (as.map write)) ∧ as.length ≤ maximum ∧
        ∀ a ∈ as, check a := by
  have hitems : List.Forall₂ (fun v a => read v = .ok a) items as ↔
      List.Forall₂ Covers items (as.map write) ∧ ∀ a ∈ as, check a := by
    rw [List.forall₂_map_right_iff]
    induction items generalizing as with
    | nil =>
      simp only [List.forall₂_nil_left_iff, iff_self_and]
      rintro rfl a ⟨⟩
    | cons v items ih =>
      rcases as with _ | ⟨a, as⟩
      · simp
      · rw [List.forall₂_cons, List.forall₂_cons, ih, h, List.forall_mem_cons]
        tauto
  simp only [bind_eq_ok, checkBound_eq_ok, exists_const, mapM_eq_ok, hitems, covers_array,
    Value.array.injEq, exists_eq_left']
  constructor
  · rintro ⟨hle, hcovers, hcheck⟩
    have hlength := hcovers.length_eq
    rw [List.length_map] at hlength
    exact ⟨hcovers, hlength ▸ hle, hcheck⟩
  · rintro ⟨hcovers, hle, hcheck⟩
    have hlength := hcovers.length_eq
    rw [List.length_map] at hlength
    exact ⟨hlength ▸ hle, hcovers, hcheck⟩

section Fields

variable {object : Members} {key : String}

theorem stringField_eq_ok {maximum : Nat} {s : String} :
    stringField object key maximum = .ok s ↔
      Has object key (.string s) ∧ len s ≤ maximum := by
  simp only [stringField, bind_eq_ok, orRefuse_eq_ok, Option.bind_eq_some_iff,
    Value.asStr?_eq_some, checkBound_eq_ok, exists_const, pure, Except.pure, Except.ok.injEq, Has,
    covers_string]
  constructor
  · rintro ⟨_, hget, hle, rfl⟩
    exact ⟨hget, hle⟩
  · rintro ⟨hget, hle⟩
    exact ⟨s, hget, hle, rfl⟩

theorem boolField_eq_ok {b : Bool} :
    boolField object key = .ok b ↔ Has object key (.bool b) := by
  simp only [boolField, orRefuse_eq_ok, Option.bind_eq_some_iff, Value.asBool?_eq_some, Has,
    covers_bool]

/-- The number an unsigned 64-bit integer is read from is that integer. -/
theorem u64Field_eq_ok {n : UInt64} :
    u64Field object key = .ok n ↔ Has object key (.number n.toNat) := by
  simp only [u64Field, bind_eq_ok, orRefuse_eq_ok, Option.bind_eq_some_iff, Value.asU64?_eq_some,
    pure, Except.pure, Except.ok.injEq, Has, covers_number]
  constructor
  · rintro ⟨k, ⟨v, hget, hv, hk⟩, rfl⟩
    have hsize : (UInt64.ofNat k).toNat = k :=
      UInt64.toNat_ofNat_of_lt' (Nat.lt_succ_of_le hk)
    exact ⟨v, hget, by rw [hv, hsize]⟩
  · rintro ⟨v, hget, hv⟩
    exact ⟨_, ⟨v, hget, hv, Nat.le_of_lt_succ n.toNat_lt⟩, UInt64.ofNat_toNat⟩

/-- The number a signed 32-bit integer is read from is that integer. -/
theorem i32Field_eq_ok {n : Int32} :
    i32Field object key = .ok n ↔ Has object key (.number n.toInt) := by
  simp only [i32Field, bind_eq_ok, orRefuse_eq_ok, Option.bind_eq_some_iff, Value.asI64?_eq_some,
    refuseIf_eq_ok, not_not, exists_const, pure, Except.pure, Except.ok.injEq, Has, covers_number]
  constructor
  · rintro ⟨k, ⟨v, hget, hv, -⟩, ⟨hge, hle⟩, rfl⟩
    exact ⟨v, hget, by rw [hv, Int32.toInt_ofInt_of_le hge (Int.lt_add_one_of_le hle)]⟩
  · rintro ⟨v, hget, hv⟩
    have hge := n.le_toInt
    have hlt := n.toInt_lt
    exact ⟨_, ⟨v, hget, hv, by omega, by omega⟩, ⟨by omega, by omega⟩, Int32.ofInt_toInt n⟩

private theorem has_array {ws : List Value} :
    Has object key (.array ws) ↔
      ∃ items, (get? object key).bind Value.asArray? = some items ∧
        Covers (.array items) (.array ws) := by
  simp only [Has, Option.bind_eq_some_iff, Value.asArray?_eq_some]
  constructor
  · rintro ⟨v, hget, hcovers⟩
    obtain ⟨items, rfl, -⟩ := covers_array.mp hcovers
    exact ⟨items, ⟨_, hget, rfl⟩, hcovers⟩
  · rintro ⟨items, ⟨_, hget, rfl⟩, hcovers⟩
    exact ⟨_, hget, hcovers⟩

theorem stringVec_eq_ok {maximum : Nat} {values : List String} :
    stringVec object key maximum = .ok values ↔
      Has object key (jsonArray values) ∧ values.length ≤ maximum := by
  have hitem (v : Value) (s : String) :
      orRefuse CodecError.malformedJson v.asStr? = .ok s ↔ Covers v (.string s) ∧ True := by
    rw [orRefuse_eq_ok, Value.asStr?_eq_some, covers_string, and_true]
  rw [stringVec, bind_eq_ok, jsonArray, has_array]
  simp only [orRefuse_eq_ok, items_eq_ok hitem, implies_true, and_true]
  constructor
  · rintro ⟨items, hget, hcovers, hle⟩
    exact ⟨⟨items, hget, hcovers⟩, hle⟩
  · rintro ⟨⟨items, hget, hcovers⟩, hle⟩
    exact ⟨items, hget, hcovers, hle⟩

private theorem byteFromValue_eq_ok (v : Value) (b : UInt8) :
    byteFromValue v = .ok b ↔ Covers v (.number b.toNat) ∧ True := by
  simp only [byteFromValue, bind_eq_ok, orRefuse_eq_ok, Value.asU64?_eq_some, refuseIf_eq_ok,
    Nat.not_lt, exists_const, pure, Except.pure, Except.ok.injEq, covers_number, and_true]
  constructor
  · rintro ⟨n, ⟨hv, -⟩, hn, rfl⟩
    have hsize : (UInt8.ofNat n).toNat = n := UInt8.toNat_ofNat_of_lt' (Nat.lt_succ_of_le hn)
    rw [hv, hsize]
  · intro hv
    have hb := b.toNat_lt
    have hmax : b.toNat ≤ Value.u64Max := Nat.le_trans (Nat.le_of_lt hb) (by decide)
    exact ⟨_, ⟨hv, hmax⟩, Nat.le_of_lt_succ hb, UInt8.ofNat_toNat⟩

theorem byteField_eq_ok {bytes : List UInt8} :
    byteField object key = .ok bytes ↔
      Has object key (jsonBytes bytes) ∧ bytes.length ≤ maxInlineBytes := by
  rw [byteField, bind_eq_ok, jsonBytes, has_array]
  simp only [orRefuse_eq_ok, items_eq_ok byteFromValue_eq_ok, implies_true, and_true]
  constructor
  · rintro ⟨items, hget, hcovers, hle⟩
    exact ⟨⟨items, hget, hcovers⟩, hle⟩
  · rintro ⟨⟨items, hget, hcovers⟩, hle⟩
    exact ⟨items, hget, hcovers, hle⟩

end Fields

/-! ### Compound fields -/

theorem usageValue_eq (usage : GuestUsage) :
    usageValue usage = .object (insertAll []
      [("cpu_time_ms", .number usage.cpuTimeMs.toNat),
        ("wall_time_ms", .number usage.wallTimeMs.toNat),
        ("memory_peak_bytes", .number usage.memoryPeakBytes.toNat),
        ("output_bytes", .number usage.outputBytes.toNat)]) := by
  simp only [usageValue, insertAll, List.foldl_cons, List.foldl_nil]

theorem usageFrom_eq_ok {v : Value} {usage : GuestUsage} :
    usageFrom v = .ok usage ↔ Covers v (usageValue usage) := by
  rw [usageValue_eq, covers_insertAll (by simp)]
  simp only [usageFrom, bind_eq_ok, orRefuse_eq_ok, Value.asObject?_eq_some, u64Field_eq_ok, pure,
    Except.pure, Except.ok.injEq, List.forall_mem_cons, List.not_mem_nil, false_imp_iff,
    implies_true, and_true]
  constructor
  · rintro ⟨object, hv, _, hcpu, _, hwall, _, hmemory, _, houtput, rfl⟩
    exact ⟨object, hv, hcpu, hwall, hmemory, houtput⟩
  · rintro ⟨object, hv, hcpu, hwall, hmemory, houtput⟩
    exact ⟨object, hv, _, hcpu, _, hwall, _, hmemory, _, houtput, rfl⟩

theorem diagnosticValue_eq (diagnostic : GuestDiagnostic) :
    diagnosticValue diagnostic = .object (insertAll []
      [("code", .string diagnostic.code), ("message", .string diagnostic.message),
        ("truncated", .bool diagnostic.truncated)]) := by
  simp only [diagnosticValue, insertAll, List.foldl_cons, List.foldl_nil]

/-- The reader bounds the code of a diagnostic. -/
theorem diagnosticFrom_eq_ok (v : Value) (diagnostic : GuestDiagnostic) :
    diagnosticFrom v = .ok diagnostic ↔
      Covers v (diagnosticValue diagnostic) ∧ len diagnostic.code ≤ maxTypeLen := by
  rw [diagnosticValue_eq, covers_insertAll (by simp)]
  simp only [diagnosticFrom, bind_eq_ok, orRefuse_eq_ok, Value.asObject?_eq_some,
    stringField_eq_ok, boolField_eq_ok, List.forall_mem_cons, List.not_mem_nil, false_imp_iff,
    implies_true, and_true]
  constructor
  · rintro ⟨object, hv, code, ⟨hcode, hlen⟩, message, ⟨hmessage, hbounded⟩, truncated,
      htruncated, h⟩
    rw [dif_pos hbounded] at h
    obtain rfl := Except.ok.inj h
    exact ⟨⟨object, hv, hcode, hmessage, htruncated⟩, hlen⟩
  · rintro ⟨⟨object, hv, hcode, hmessage, htruncated⟩, hlen⟩
    refine ⟨object, hv, _, ⟨hcode, hlen⟩, _, ⟨hmessage, diagnostic.bounded⟩, _, htruncated, ?_⟩
    rw [dif_pos diagnostic.bounded]
    rfl

theorem diagnosticsFrom_eq_ok {v : Value} {diagnostics : List GuestDiagnostic} :
    diagnosticsFrom v = .ok diagnostics ↔
      Covers v (diagnosticsValue diagnostics) ∧ diagnostics.length ≤ maxDiagnostics ∧
        ∀ diagnostic ∈ diagnostics, len diagnostic.code ≤ maxTypeLen := by
  rw [diagnosticsFrom, bind_eq_ok]
  simp only [orRefuse_eq_ok, Value.asArray?_eq_some, items_eq_ok diagnosticFrom_eq_ok,
    diagnosticsValue]
  constructor
  · rintro ⟨items, rfl, h⟩
    exact h
  · rintro ⟨hcovers, h⟩
    obtain ⟨items, rfl, -⟩ := covers_array.mp hcovers
    exact ⟨items, rfl, hcovers, h⟩

/-! ### Documents -/

/-- The members a message has beside its type and the version, in the order they are written. -/
def Message.fields : Message → Members
  | .negotiate capabilities => [("capabilities", jsonArray capabilities)]
  | .negotiated supported => [("supported", .bool supported)]
  | .uploadInput name digest bytes =>
    [("name", .string name), ("digest", .string digest), ("bytes", jsonBytes bytes)]
  | .uploadAck name accepted => [("name", .string name), ("accepted", .bool accepted)]
  | .build argv wallTimeMs | .run argv wallTimeMs =>
    [("argv", jsonArray argv), ("wall_time_ms", .number wallTimeMs.toNat)]
  | .stageOutput stage exitCode outputDigest outputBytes usage diagnostics =>
    [("stage", .string stage.asStr), ("exit_code", .number exitCode.toInt),
      ("output_digest", .string outputDigest), ("output_bytes", .number outputBytes.toNat),
      ("usage", usageValue usage), ("diagnostics", diagnosticsValue diagnostics)]
  | .stageEvidence kind => [("kind", .string kind)]
  | .evidenceAck kind accepted => [("kind", .string kind), ("accepted", .bool accepted)]
  | .cancel | .cancelled | .heartbeat | .ack => []

def Message.members (message : Message) : Members :=
  ("type", .string message.messageType) :: ("version", .string protocolVersion) :: message.fields

/-- The document of a message. -/
def Message.document (message : Message) : Value := .object (insertAll [] message.members)

theorem Message.nodup_members (message : Message) : (message.members.map (·.1)).Nodup := by
  cases message <;> simp [Message.members, Message.fields]

private theorem native_u64 (n : UInt64) : native (.number n.toNat) = true := by
  have hn := n.toNat_lt
  rw [native, nativeNumber]
  refine decide_eq_true ⟨by omega, ?_⟩
  rw [Value.u64Max]
  omega

private theorem native_i32 (n : Int32) : native (.number n.toInt) = true := by
  have hge := n.le_toInt
  have hlt := n.toInt_lt
  rw [native, nativeNumber]
  refine decide_eq_true ⟨by omega, ?_⟩
  rw [Value.u64Max]
  omega

private theorem native_jsonArray (values : List String) : native (jsonArray values) = true :=
  nativeItems_map (fun _ => rfl) values

private theorem native_jsonBytes (bytes : List UInt8) : native (jsonBytes bytes) = true := by
  refine nativeItems_map (fun b => ?_) bytes
  have hb := b.toNat_lt
  rw [native, nativeNumber]
  refine decide_eq_true ⟨by omega, ?_⟩
  rw [Value.u64Max]
  omega

private theorem native_usageValue (usage : GuestUsage) : native (usageValue usage) = true := by
  refine nativeMembers_insert (nativeMembers_insert (nativeMembers_insert
    (nativeMembers_insert rfl ?_) ?_) ?_) ?_ <;> exact native_u64 _

private theorem native_diagnosticsValue (diagnostics : List GuestDiagnostic) :
    native (diagnosticsValue diagnostics) = true := by
  refine nativeItems_map (fun diagnostic => ?_) diagnostics
  exact nativeMembers_insert (nativeMembers_insert (nativeMembers_insert rfl rfl) rfl) rfl

/-- A JSON library can hold every document. -/
theorem Message.native_document (message : Message) : native message.document = true := by
  refine nativeMembers_insertAll rfl ?_
  rw [Message.members, List.forall_mem_cons, List.forall_mem_cons]
  refine ⟨rfl, rfl, ?_⟩
  cases message with
  | negotiate capabilities => simp [Message.fields, native_jsonArray]
  | uploadInput name digest bytes => simp [Message.fields, native_jsonBytes]
  | build argv wallTimeMs | run argv wallTimeMs =>
    simp [Message.fields, native_jsonArray, native_u64]
  | stageOutput stage exitCode outputDigest outputBytes usage diagnostics =>
    simp [Message.fields, native_i32, native_u64, native_usageValue, native_diagnosticsValue]
  | _ => simp [Message.fields]

private theorem plain_jsonArray (depth : Nat) (values : List String) :
    plain (depth + 1) (jsonArray values) = true :=
  plainItems_map (fun _ => plain_string depth _) values

private theorem plain_jsonBytes (depth : Nat) (bytes : List UInt8) :
    plain (depth + 1) (jsonBytes bytes) = true :=
  plainItems_map (fun _ => plain_number depth _) bytes

private theorem plain_usageValue (depth : Nat) (usage : GuestUsage) :
    plain (depth + 1) (usageValue usage) = true := by
  have hnone : plainMembers depth [] = true := by rw [plainMembers]
  exact plainMembers_insert (plainMembers_insert (plainMembers_insert (plainMembers_insert hnone
    (plain_number _ _)) (plain_number _ _)) (plain_number _ _)) (plain_number _ _)

private theorem plain_diagnosticsValue (depth : Nat) (diagnostics : List GuestDiagnostic) :
    plain (depth + 2) (diagnosticsValue diagnostics) = true := by
  refine plainItems_map (fun diagnostic => ?_) diagnostics
  have hnone : plainMembers depth [] = true := by rw [plainMembers]
  exact plainMembers_insert (plainMembers_insert (plainMembers_insert hnone (plain_string _ _))
    (plain_string _ _)) (plain_bool _ _)

/-- Documents are nested three levels deep at most, and say no `null`. -/
theorem Message.plain_document (message : Message) : plain readDepth message.document = true := by
  refine @plainMembers_insertAll 126 _ _ rfl ?_
  rw [Message.members, List.forall_mem_cons, List.forall_mem_cons]
  refine ⟨rfl, rfl, ?_⟩
  cases message with
  | negotiate capabilities => simp [Message.fields, plain_jsonArray]
  | uploadInput name digest bytes => simp [Message.fields, plain_jsonBytes]
  | build argv wallTimeMs | run argv wallTimeMs => simp [Message.fields, plain_jsonArray]
  | stageOutput stage exitCode outputDigest outputBytes usage diagnostics =>
    simp [Message.fields, plain_usageValue, plain_diagnosticsValue]
  | _ => simp [Message.fields]

/-! ### What is written -/

/-- The bounds the writer checks. -/
def Message.WriteBounds : Message → Prop
  | .negotiate capabilities => validateCapabilities capabilities = .ok ()
  | .uploadInput name digest bytes =>
    checkName name = .ok () ∧ len digest ≤ maxDigestLen ∧ bytes.length ≤ maxInlineBytes
  | .uploadAck name _ => checkName name = .ok ()
  | .build argv _ | .run argv _ =>
    argv ≠ [] ∧ argv.length ≤ maxArguments ∧ checkArguments argv = .ok ()
  | .stageOutput _ _ outputDigest _ _ diagnostics =>
    len outputDigest ≤ maxDigestLen ∧ diagnostics.length ≤ maxDiagnostics
  | .stageEvidence kind => len kind ≤ maxTypeLen
  | .negotiated _ | .evidenceAck .. | .cancel | .cancelled | .heartbeat | .ack => True

theorem Message.writeFields_eq_ok {message : Message} {object members : Members} :
    message.writeFields object = .ok members ↔
      message.WriteBounds ∧ members = insertAll object message.fields := by
  have hunit {x : Except CodecError Unit} {p : Unit → Prop} :
      (∃ u, x = .ok u ∧ p u) ↔ x = .ok () ∧ p () := Unique.exists_iff
  cases message <;>
    simp only [writeFields, writeCommand, WriteBounds, fields, bind_eq_ok, checkBound_eq_ok,
      refuseIf_eq_ok, not_or, Nat.not_lt, exists_const, hunit, insertAll, List.foldl_cons,
      List.foldl_nil, pure, Except.pure, Except.ok.injEq, and_assoc, true_and, ne_eq,
      @eq_comm _ members]

/-- The reader finds the document that the writer puts out. -/
theorem Message.header_eq (message : Message) :
    insertAll message.header message.fields = insertAll [] message.members := by
  simp only [insertAll, header, members, List.foldl_cons]

/-! ### What is read -/

/-- The bounds the reader checks. -/
def Message.ReadBounds : Message → Prop
  | .negotiate capabilities => validateCapabilities capabilities = .ok ()
  | .uploadInput name digest bytes =>
    len name ≤ maxNameLen ∧ len digest ≤ maxDigestLen ∧ bytes.length ≤ maxInlineBytes
  | .uploadAck name _ => len name ≤ maxNameLen
  | .build argv _ | .run argv _ =>
    argv ≠ [] ∧ argv.length ≤ maxArguments ∧ checkArguments argv = .ok ()
  | .stageOutput _ _ outputDigest _ _ diagnostics =>
    len outputDigest ≤ maxDigestLen ∧ diagnostics.length ≤ maxDiagnostics ∧
      ∀ diagnostic ∈ diagnostics, len diagnostic.code ≤ maxTypeLen
  | .stageEvidence kind | .evidenceAck kind _ => len kind ≤ maxTypeLen
  | .negotiated _ | .cancel | .cancelled | .heartbeat | .ack => True

theorem len_of_checkName {name : String} (h : checkName name = .ok ()) : len name ≤ maxNameLen := by
  simp only [checkName, bind_eq_ok, refuseIf_eq_ok, not_or, Nat.not_lt] at h
  obtain ⟨_, ⟨-, hle⟩, -⟩ := h
  exact hle

theorem length_of_validateCapabilities {capabilities : List String}
    (h : validateCapabilities capabilities = .ok ()) : capabilities.length ≤ maxCapabilities := by
  simp only [validateCapabilities, bind_eq_ok, checkBound_eq_ok] at h
  obtain ⟨-, hle, -⟩ := h
  exact hle

theorem Stage.parse_eq_ok {s : String} {stage : Stage} :
    Stage.parse s = .ok stage ↔ s = stage.asStr := by
  constructor
  · unfold Stage.parse
    split <;> rintro ⟨⟩ <;> rfl
  · rintro rfl
    cases stage <;> rfl

theorem len_asStr_le (stage : Stage) : len stage.asStr ≤ maxTypeLen := by
  cases stage <;> decide

private theorem readableCommand_eq_ok {object : Members} {argv : List String}
    {wallTimeMs : UInt64} :
    readableCommand object = .ok (argv, wallTimeMs) ↔
      (Has object "argv" (jsonArray argv) ∧ Has object "wall_time_ms" (.number wallTimeMs.toNat)) ∧
        argv ≠ [] ∧ argv.length ≤ maxArguments ∧ checkArguments argv = .ok () := by
  simp only [readableCommand, bind_eq_ok, stringVec_eq_ok, refuseIf_eq_ok, exists_const,
    u64Field_eq_ok, pure, Except.pure, Except.ok.injEq, Prod.mk.injEq]
  constructor
  · rintro ⟨_, ⟨hargv, hlength⟩, hne, _, harguments, _, htime, rfl, rfl⟩
    exact ⟨⟨hargv, htime⟩, hne, hlength, harguments⟩
  · rintro ⟨⟨hargv, htime⟩, hne, hlength, harguments⟩
    exact ⟨_, ⟨hargv, hlength⟩, hne, (), harguments, _, htime, rfl, rfl⟩

/-- A message is read under its own type only. -/
theorem Message.messageType_of_readFields {message : Message} {object : Members}
    {typeName : String} (h : readFields object typeName = .ok message) :
    typeName = message.messageType := by
  unfold readFields at h
  split at h <;>
    simp only [bind_eq_ok, pure, Except.pure, Except.ok.injEq, reduceCtorEq] at h
  · obtain ⟨_, -, rfl⟩ := h
    rfl
  · obtain ⟨_, -, rfl⟩ := h
    rfl
  · obtain ⟨_, -, _, -, _, -, rfl⟩ := h
    rfl
  · obtain ⟨_, -, _, -, rfl⟩ := h
    rfl
  · obtain ⟨_, -, rfl⟩ := h
    rfl
  · obtain ⟨_, -, rfl⟩ := h
    rfl
  · obtain ⟨_, -, _, -, _, -, _, -, _, -, _, -, _, -, _, -, _, -, rfl⟩ := h
    rfl
  · obtain ⟨_, -, rfl⟩ := h
    rfl
  · obtain ⟨_, -, _, -, rfl⟩ := h
    rfl
  all_goals
    subst h
    rfl

/-- The reader of a message's own type. -/
theorem Message.readFields_messageType {message : Message} {object : Members} :
    readFields object message.messageType = .ok message ↔
      (∀ field ∈ message.fields, Has object field.1 field.2) ∧ message.ReadBounds := by
  cases message with
  | negotiate capabilities =>
    simp only [messageType, readFields, parseCapabilities, fields, ReadBounds, bind_eq_ok,
      stringVec_eq_ok, List.forall_mem_singleton, pure, Except.pure, Except.ok.injEq,
      negotiate.injEq]
    constructor
    · rintro ⟨_, ⟨_, ⟨hhas, -⟩, ⟨⟩, hvalid, rfl⟩, rfl⟩
      exact ⟨hhas, hvalid⟩
    · rintro ⟨hhas, hvalid⟩
      exact ⟨_, ⟨_, ⟨hhas, length_of_validateCapabilities hvalid⟩, (), hvalid, rfl⟩, rfl⟩
  | negotiated supported =>
    simp only [messageType, readFields, boolField_eq_ok, fields, ReadBounds, bind_eq_ok,
      List.forall_mem_singleton, and_true, pure, Except.pure, Except.ok.injEq, negotiated.injEq,
      exists_eq_right]
  | uploadInput name digest bytes =>
    simp only [messageType, readFields, stringField_eq_ok, byteField_eq_ok, fields, ReadBounds,
      bind_eq_ok, List.forall_mem_cons, List.not_mem_nil, false_imp_iff, implies_true, and_true,
      pure, Except.pure, Except.ok.injEq, uploadInput.injEq]
    constructor
    · rintro ⟨_, ⟨hname, hnameLen⟩, _, ⟨hdigest, hdigestLen⟩, _, ⟨hbytes, hbytesLen⟩, rfl, rfl, rfl⟩
      exact ⟨⟨hname, hdigest, hbytes⟩, hnameLen, hdigestLen, hbytesLen⟩
    · rintro ⟨⟨hname, hdigest, hbytes⟩, hnameLen, hdigestLen, hbytesLen⟩
      exact ⟨_, ⟨hname, hnameLen⟩, _, ⟨hdigest, hdigestLen⟩, _, ⟨hbytes, hbytesLen⟩, rfl, rfl, rfl⟩
  | uploadAck name accepted =>
    simp only [messageType, readFields, stringField_eq_ok, boolField_eq_ok, fields, ReadBounds,
      bind_eq_ok, List.forall_mem_cons, List.not_mem_nil, false_imp_iff, implies_true, and_true,
      pure, Except.pure, Except.ok.injEq, uploadAck.injEq]
    constructor
    · rintro ⟨_, ⟨hname, hlen⟩, _, haccepted, rfl, rfl⟩
      exact ⟨⟨hname, haccepted⟩, hlen⟩
    · rintro ⟨⟨hname, haccepted⟩, hlen⟩
      exact ⟨_, ⟨hname, hlen⟩, _, haccepted, rfl, rfl⟩
  | build argv wallTimeMs | run argv wallTimeMs =>
    simp only [messageType, readFields, readableCommand_eq_ok, fields, ReadBounds, bind_eq_ok,
      Prod.exists, List.forall_mem_cons, List.not_mem_nil, false_imp_iff, implies_true, and_true,
      pure, Except.pure, Except.ok.injEq, build.injEq, run.injEq]
    constructor
    · rintro ⟨_, _, h, rfl, rfl⟩
      exact h
    · intro h
      exact ⟨_, _, h, rfl, rfl⟩
  | stageOutput stage exitCode outputDigest outputBytes usage diagnostics =>
    simp only [messageType, readFields, stringField_eq_ok, Stage.parse_eq_ok, i32Field_eq_ok,
      u64Field_eq_ok, orRefuse_eq_ok, usageFrom_eq_ok, diagnosticsFrom_eq_ok, fields, ReadBounds,
      bind_eq_ok, List.forall_mem_cons, List.not_mem_nil, false_imp_iff, implies_true, and_true,
      pure, Except.pure, Except.ok.injEq, stageOutput.injEq]
    constructor
    · rintro ⟨_, ⟨hstage, -⟩, _, rfl, _, hexit, _, ⟨hdigest, hlen⟩, _, houtput, _, hgetUsage, _,
        husage, _, hgetDiagnostics, _, ⟨hdiagnostics, hbounds⟩, rfl, rfl, rfl, rfl, rfl, rfl⟩
      exact ⟨⟨hstage, hexit, hdigest, houtput, ⟨_, hgetUsage, husage⟩, _, hgetDiagnostics,
        hdiagnostics⟩, hlen, hbounds⟩
    · rintro ⟨⟨hstage, hexit, hdigest, houtput, ⟨_, hgetUsage, husage⟩, _, hgetDiagnostics,
        hdiagnostics⟩, hlen, hbounds⟩
      exact ⟨_, ⟨hstage, len_asStr_le stage⟩, _, rfl, _, hexit, _, ⟨hdigest, hlen⟩, _, houtput, _,
        hgetUsage, _, husage, _, hgetDiagnostics, _, ⟨hdiagnostics, hbounds⟩, rfl, rfl, rfl, rfl,
        rfl, rfl⟩
  | stageEvidence kind =>
    simp only [messageType, readFields, stringField_eq_ok, fields, ReadBounds, bind_eq_ok,
      List.forall_mem_singleton, pure, Except.pure, Except.ok.injEq, stageEvidence.injEq,
      exists_eq_right]
  | evidenceAck kind accepted =>
    simp only [messageType, readFields, stringField_eq_ok, boolField_eq_ok, fields, ReadBounds,
      bind_eq_ok, List.forall_mem_cons, List.not_mem_nil, false_imp_iff, implies_true, and_true,
      pure, Except.pure, Except.ok.injEq, evidenceAck.injEq]
    constructor
    · rintro ⟨_, ⟨hkind, hlen⟩, _, haccepted, rfl, rfl⟩
      exact ⟨⟨hkind, haccepted⟩, hlen⟩
    · rintro ⟨⟨hkind, haccepted⟩, hlen⟩
      exact ⟨_, ⟨hkind, hlen⟩, _, haccepted, rfl, rfl⟩
  | cancel | cancelled | heartbeat | ack =>
    simp only [messageType, readFields, fields, ReadBounds, List.not_mem_nil, false_imp_iff,
      implies_true, and_self]

theorem Message.readFields_eq_ok {message : Message} {object : Members} {typeName : String} :
    readFields object typeName = .ok message ↔
      typeName = message.messageType ∧ (∀ field ∈ message.fields, Has object field.1 field.2) ∧
        message.ReadBounds := by
  constructor
  · intro h
    obtain rfl := messageType_of_readFields h
    exact ⟨rfl, readFields_messageType.mp h⟩
  · rintro ⟨rfl, h⟩
    exact readFields_messageType.mpr h

theorem Message.len_messageType_le (message : Message) : len message.messageType ≤ maxTypeLen := by
  cases message <;> rw [messageType] <;> decide

/-- **What is read**: every document that says what a message's own document does, when the
message is within the reader's bounds. -/
theorem Message.fromValue_eq_ok {message : Message} {v : Value} :
    fromValue v = .ok message ↔ Covers v message.document ∧ message.ReadBounds := by
  have hstring {object : Members} {key s : String} :
      Has object key (.string s) ↔ ∃ w, get? object key = some w ∧ w = .string s := by
    simp only [Has, covers_string]
  rw [document, covers_insertAll message.nodup_members]
  simp only [fromValue, bind_eq_ok, orRefuse_eq_ok, Value.asObject?_eq_some,
    Option.bind_eq_some_iff, Value.asStr?_eq_some, refuseIf_eq_ok, Nat.not_lt, not_not,
    exists_const, readFields_eq_ok, members, List.forall_mem_cons, hstring]
  constructor
  · rintro ⟨object, rfl, _, htype, -, _, hversion, rfl, rfl, hfields, hbounds⟩
    exact ⟨⟨object, rfl, htype, hversion, hfields⟩, hbounds⟩
  · rintro ⟨⟨object, rfl, htype, hversion, hfields⟩, hbounds⟩
    exact ⟨object, rfl, _, htype, message.len_messageType_le, _, hversion, rfl, rfl, hfields,
      hbounds⟩

/-- A frame of a body that fits has this body. -/
theorem frameBody_toBytes {body : List UInt8} (h : body.length + 4 ≤ maxFrameBytes) :
    frameBody (BigEndian.toBytes 4 body.length ++ body) = .ok body := by
  have hmax : maxFrameBytes = 1048576 := rfl
  have hheader := BigEndian.length_toBytes 4 body.length
  have htake : (BigEndian.toBytes 4 body.length ++ body).take 4 = BigEndian.toBytes 4 body.length :=
    List.take_left' hheader
  have hdrop : (BigEndian.toBytes 4 body.length ++ body).drop 4 = body := List.drop_left' hheader
  have hread : BigEndian.ofBytes (BigEndian.toBytes 4 body.length) = body.length :=
    BigEndian.ofBytes_toBytes (by omega)
  have hlength : (BigEndian.toBytes 4 body.length ++ body).length = 4 + body.length := by
    rw [List.length_append, hheader]
  simp only [frameBody, htake, hdrop, hread, hlength]
  rw [refuseIf_neg (by omega), ok_bind, refuseIf_neg (by omega), ok_bind, refuseIf_neg (by omega),
    ok_bind, List.take_length]
  rfl

/-- The fields that only the reader bounds are within its bounds: the kind of an acknowledged
evidence, and the codes of diagnostics. -/
def Message.Readable : Message → Prop
  | .evidenceAck kind _ => len kind ≤ maxTypeLen
  | .stageOutput _ _ _ _ _ diagnostics =>
    ∀ diagnostic ∈ diagnostics, len diagnostic.code ≤ maxTypeLen
  | _ => True

theorem Message.readBounds_iff {message : Message} (h : message.WriteBounds) :
    message.ReadBounds ↔ message.Readable := by
  cases message with
  | uploadInput name digest bytes =>
    obtain ⟨hname, hdigest, hbytes⟩ := h
    simp only [ReadBounds, Readable, len_of_checkName hname, hdigest, hbytes, and_self]
  | uploadAck name accepted => simp only [ReadBounds, Readable, len_of_checkName h]
  | stageOutput stage exitCode outputDigest outputBytes usage diagnostics =>
    obtain ⟨hdigest, hlength⟩ := h
    simp only [ReadBounds, Readable, hdigest, hlength, true_and]
  | negotiate capabilities | build argv wallTimeMs | run argv wallTimeMs | stageEvidence kind =>
    exact iff_of_true h trivial
  | evidenceAck kind accepted => exact Iff.rfl
  | negotiated supported | cancel | cancelled | heartbeat | ack => exact Iff.rfl

/-! ### Names -/

/-- The name in a document of an upload, or of one's acknowledgement, is one the writer accepts. -/
def NameAllowed (v : Value) : Prop :=
  ∀ object name, v = .object object →
    (get? object "type" = some (.string "upload_input") ∨
      get? object "type" = some (.string "upload_ack")) →
    get? object "name" = some (.string name) → checkName name = .ok ()

/-- The name of an upload, or of one's acknowledgement, is one the writer accepts. -/
def Message.NameAccepted : Message → Prop
  | .uploadInput name _ _ | .uploadAck name _ => checkName name = .ok ()
  | _ => True

/-- The reader makes every check of the writer but the one of names. -/
theorem Message.writeBounds_iff {message : Message} (h : message.ReadBounds) :
    message.WriteBounds ↔ message.NameAccepted := by
  cases message with
  | uploadInput name digest bytes =>
    obtain ⟨-, hdigest, hbytes⟩ := h
    simp only [WriteBounds, NameAccepted, hdigest, hbytes, and_self, and_true]
  | uploadAck name accepted => exact Iff.rfl
  | stageOutput stage exitCode outputDigest outputBytes usage diagnostics =>
    obtain ⟨hdigest, hlength, -⟩ := h
    exact iff_of_true ⟨hdigest, hlength⟩ trivial
  | negotiate capabilities | build argv wallTimeMs | run argv wallTimeMs | stageEvidence kind =>
    exact iff_of_true h trivial
  | negotiated supported | evidenceAck kind accepted | cancel | cancelled | heartbeat | ack =>
    exact Iff.rfl

/-- The name of a message is the one in the document it was read from. -/
theorem Message.nameAllowed_iff {message : Message} {v : Value}
    (h : Covers v message.document) : NameAllowed v ↔ message.NameAccepted := by
  obtain ⟨object, rfl, hfields⟩ := (covers_insertAll message.nodup_members).mp h
  rw [members, List.forall_mem_cons, List.forall_mem_cons] at hfields
  obtain ⟨⟨_, htype, hcovers⟩, -, hfields⟩ := hfields
  obtain rfl := covers_string.mp hcovers
  have hupload {name : String} (hhas : Has object "name" (.string name))
      (htypes : message.messageType = "upload_input" ∨ message.messageType = "upload_ack") :
      NameAllowed (.object object) ↔ checkName name = .ok () := by
    obtain ⟨_, hget, hcovers⟩ := hhas
    obtain rfl := covers_string.mp hcovers
    constructor
    · intro h
      exact h object name rfl (by simpa only [htype, Option.some.injEq, Value.string.injEq]) hget
    · rintro h _ name' ⟨⟩ - hget'
      obtain ⟨⟩ := hget.symm.trans hget'
      exact h
  have hother (htypes : ¬(message.messageType = "upload_input" ∨
      message.messageType = "upload_ack")) : NameAllowed (.object object) := by
    rintro _ name ⟨⟩ hupload -
    simp only [htype, Option.some.injEq, Value.string.injEq] at hupload
    exact absurd hupload htypes
  cases message with
  | uploadInput name digest bytes => exact hupload (hfields _ List.mem_cons_self) (.inl rfl)
  | uploadAck name accepted => exact hupload (hfields _ List.mem_cons_self) (.inr rfl)
  | _ => exact iff_of_true (hother (by simp [messageType])) trivial

theorem length_of_frameBody {frame body : List UInt8} (h : frameBody frame = .ok body) :
    body.length + 4 ≤ maxFrameBytes := by
  have hmax : maxFrameBytes = 1048576 := rfl
  simp only [frameBody, bind_eq_ok, refuseIf_eq_ok, Nat.not_lt, exists_const, pure, Except.pure,
    Except.ok.injEq] at h
  obtain ⟨-, hle, -, rfl⟩ := h
  rw [List.length_take]
  omega

section Frames

variable [JsonText]

/-- **What is written**: the document of a message that is within the writer's bounds. -/
theorem Message.encode_eq_ok {message : Message} {frame : List UInt8} :
    message.encode = .ok frame ↔
      message.WriteBounds ∧ ∃ body, JsonText.toVec message.document = some body ∧
        body.length + 4 ≤ maxFrameBytes ∧ frame = BigEndian.toBytes 4 body.length ++ body := by
  simp only [encode, bind_eq_ok, writeFields_eq_ok, header_eq, orRefuse_eq_ok, refuseIf_eq_ok,
    Nat.not_lt, exists_const, pure, Except.pure, Except.ok.injEq, document, @eq_comm _ frame]
  constructor
  · rintro ⟨_, ⟨hbounds, rfl⟩, h⟩
    exact ⟨hbounds, h⟩
  · rintro ⟨hbounds, h⟩
    exact ⟨_, ⟨hbounds, rfl⟩, h⟩

theorem Message.decode_eq_ok {message : Message} {frame : List UInt8} :
    decode frame = .ok message ↔ ∃ body v, frameBody frame = .ok body ∧
      JsonText.fromSlice body = some v ∧ Covers v message.document ∧ message.ReadBounds := by
  simp only [decode, bind_eq_ok, orRefuse_eq_ok, fromValue_eq_ok]
  constructor
  · rintro ⟨body, hbody, v, hv, h⟩
    exact ⟨body, v, hbody, hv, h⟩
  · rintro ⟨body, v, hbody, hv, h⟩
    exact ⟨body, hbody, v, hv, h⟩

/-- The frame of a message's document is read as the message when this is within the reader's
bounds. -/
theorem Message.decode_document (hreads : ReadsBack) {message : Message} {body : List UInt8}
    (hbody : JsonText.toVec message.document = some body)
    (hfits : body.length + 4 ≤ maxFrameBytes) :
    decode (BigEndian.toBytes 4 body.length ++ body) = .ok message ↔ message.ReadBounds := by
  have hframe := frameBody_toBytes hfits
  have hread := hreads _ _ message.native_document message.plain_document hbody
  rw [decode_eq_ok]
  constructor
  · rintro ⟨_, _, -, -, -, hbounds⟩
    exact hbounds
  · intro hbounds
    exact ⟨body, _, hframe, hread, covers_self _ message.native_document, hbounds⟩

/-- So is a frame that was written. -/
theorem Message.decode_encode (hreads : ReadsBack) {message : Message} {frame : List UInt8}
    (h : message.encode = .ok frame) : decode frame = .ok message ↔ message.ReadBounds := by
  obtain ⟨-, body, hbody, hfits, rfl⟩ := encode_eq_ok.mp h
  exact decode_document hreads hbody hfits

/-- **Decoding undoes encoding** exactly for the messages whose fields are within the bounds that
the reader alone checks. -/
theorem decode_encode_iff (hreads : ReadsBack) {message : Message} {frame : List UInt8}
    (h : message.encode = .ok frame) :
    Message.decode frame = .ok message ↔ message.Readable := by
  obtain ⟨hbounds, -⟩ := Message.encode_eq_ok.mp h
  rw [Message.decode_encode hreads h, Message.readBounds_iff hbounds]

end Frames

section CompactFrames

attribute [local instance] compactText

/-- The frame of a document in compact text. -/
def compactFrame (v : Value) : List UInt8 := BigEndian.toBytes 4 (toBytes v).length ++ toBytes v

/-- An acknowledgement of evidence whose kind the reader accepts. -/
theorem decode_encode_iff_fixture :
    Message.decode (compactFrame (Message.evidenceAck "stdout" true).document) =
        .ok (.evidenceAck "stdout" true) ↔ (Message.evidenceAck "stdout" true).Readable :=
  decode_encode_iff compactText_readsBack
    (Message.encode_eq_ok.mpr ⟨trivial, _, rfl, by decide +kernel, rfl⟩)

/-- An acknowledgement whose kind has 33 bytes. -/
def longAck : Message := .evidenceAck "application/vnd.oci.image.layer.1" true

/-- The writer puts it out, and the reader refuses it. -/
theorem longAck_not_decoded :
    longAck.encode = .ok (compactFrame longAck.document) ∧
      Message.decode (compactFrame longAck.document) = .error (.boundsExceeded "kind" 33 32) := by
  have hfits : (toBytes longAck.document).length + 4 ≤ maxFrameBytes := by decide +kernel
  refine ⟨Message.encode_eq_ok.mpr ⟨trivial, _, rfl, hfits, rfl⟩, ?_⟩
  have hframe : frameBody (compactFrame longAck.document) = .ok (toBytes longAck.document) :=
    frameBody_toBytes hfits
  have hread : JsonText.fromSlice (toBytes longAck.document) = some longAck.document :=
    compactText_readsBack _ _ longAck.native_document longAck.plain_document rfl
  simp only [Message.decode, hframe, ok_bind, hread, orRefuse_some]
  decide +kernel

end CompactFrames

/-- **What was decoded can be sent again** exactly when the name in its document, if it is that of
an upload or of one's acknowledgement, is one the writer accepts. -/
theorem encode_decoded_iff [JsonText] (hwrites : Writes) (hreads : ReadsBack) (hcompact : Compact)
    {message : Message} {frame : List UInt8} (h : Message.decode frame = .ok message) :
    (∃ frame', message.encode = .ok frame' ∧ Message.decode frame' = .ok message) ↔
      ∀ body v, frameBody frame = .ok body → JsonText.fromSlice body = some v →
        NameAllowed v := by
  obtain ⟨body, v, hbody, hv, hcovers, hread⟩ := Message.decode_eq_ok.mp h
  have hname : (∀ body v, frameBody frame = .ok body → JsonText.fromSlice body = some v →
      NameAllowed v) ↔ message.WriteBounds := by
    rw [Message.writeBounds_iff hread, ← Message.nameAllowed_iff hcovers]
    constructor
    · intro h
      exact h body v hbody hv
    · intro h body' v' hbody' hv'
      obtain ⟨⟩ := hbody.symm.trans hbody'
      obtain ⟨⟩ := hv.symm.trans hv'
      exact h
  rw [hname]
  constructor
  · rintro ⟨frame', hencode, -⟩
    exact (Message.encode_eq_ok.mp hencode).1
  · intro hwrite
    obtain ⟨text, htext⟩ := hwrites _ message.native_document
    -- a text of the same content is no longer than the body, and that fitted
    have hlength := hcompact body v _ text message.native_document message.plain_document hv
      hcovers htext
    have hfits : text.length + 4 ≤ maxFrameBytes :=
      Nat.le_trans (Nat.add_le_add_right hlength 4) (length_of_frameBody hbody)
    have hencode := Message.encode_eq_ok.mpr ⟨hwrite, text, htext, hfits, rfl⟩
    exact ⟨_, hencode, (Message.decode_encode hreads hencode).mpr hread⟩

attribute [local instance] compactText in
theorem encode_decoded_iff_fixture :
    (∃ frame', (Message.uploadAck "main.c" true).encode = .ok frame' ∧
        Message.decode frame' = .ok (.uploadAck "main.c" true)) ↔
      ∀ body v, frameBody (compactFrame (Message.uploadAck "main.c" true).document) = .ok body →
        JsonText.fromSlice body = some v → NameAllowed v :=
  encode_decoded_iff compactText_writes compactText_readsBack compactText_compact
    ((Message.decode_document compactText_readsBack rfl (by decide +kernel)).mpr
      (show len "main.c" ≤ maxNameLen by decide +kernel))

/-- An upload to a path outside the directory it is meant for. -/
def escapingUpload : Message := .uploadInput "../etc/passwd" "sha256:x" []

attribute [local instance] compactText in
/-- The reader accepts it, and the writer refuses it. -/
theorem escapingUpload_not_encoded :
    Message.decode (compactFrame escapingUpload.document) = .ok escapingUpload ∧
      escapingUpload.encode = .error (.boundsExceeded "name" 13 128) := by
  have hname : len "../etc/passwd" ≤ maxNameLen ∧ len "sha256:x" ≤ maxDigestLen ∧
      ([] : List UInt8).length ≤ maxInlineBytes := by decide +kernel
  refine ⟨(Message.decode_document compactText_readsBack rfl ?_).mpr hname, ?_⟩
  · decide +kernel
  · decide +kernel

end OpenOJ.Guest
