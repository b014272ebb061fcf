import OpenOJ.Storage.Race
import OpenOJ.Storage.Reports

/-!
# The command line

What an operator types becomes a call of the store: a submission is read from a file within a bound
(`readBounded`), decoded and created, and a status is asked for; either is printed on a line
(`formatSnapshot`). `parseArgs` reads the arguments as a `CliCommand`, and a `Console` is the
program in its surroundings: its files, its clock, and what the database says of its schema.

* `parseArgs_submit`, `parseArgs_status`: the arguments that make each of the two commands;
* `Console.run_submit_eq_ok`, `Console.run_status`: which invocations reach the store, with which
  command, and what is printed of its answer.

Every evaluation remembers the key and the request that it was created for (`EvaluationRow.origin`),
and every call keeps what is remembered (`keepsOrigins_next`). So, by `submit_again`, whoever
submits again under the key of a submission, at any later time, is told of its status if the request
is the same and is refused otherwise; nothing is created.
-/

namespace OpenOJ

open Outcome Text

/-! ### Commands -/

/-- `CliCommand`; a path is the bytes of one. -/
inductive CliCommand where
  | migrate
  | submit (path : List UInt8)
  | status (evaluationId : EvaluationId)
  deriving DecidableEq

/-- `CliError`, as far as a command makes it. -/
inductive CliError where
  | usage
  | invalidEvaluationId
  | inputTooLarge
  | io
  | invalidRequest
  | storage
  deriving DecidableEq

/-- `Display` for `CliError`. -/
def CliError.display : CliError → String
  | .usage => "usage: openoj-cli migrate | submit <request.json> | status <evaluation-id>"
  | .invalidEvaluationId => "evaluation ID is invalid"
  | .inputTooLarge => "input exceeds the evaluation request byte limit"
  | .io => "input could not be read"
  | .invalidRequest => "input is not a valid canonical evaluation request"
  | .storage => "storage operation failed"

/-- `OsString::into_string`. -/
def intoString (argument : List UInt8) : Option String := (readUtf8 argument).map String.ofList

/-- `parse_args`. -/
def parseArgs : List (List UInt8) → Except CliError CliCommand
  | [] => .error .usage
  | command :: arguments => do
    let command ← orRefuse .usage (intoString command)
    if command = "migrate" then
      refuseIf (arguments ≠ []) .usage
      return .migrate
    else if command = "submit" then
      let path ← orRefuse .usage arguments.head?
      refuseIf (arguments.tail ≠ []) .usage
      return .submit path
    else if command = "status" then
      let value ← orRefuse .usage arguments.head?
      let value ← orRefuse .invalidEvaluationId (intoString value)
      refuseIf (arguments.tail ≠ []) .usage
      let evaluationId ← reportAs .invalidEvaluationId (OpaqueId.parse "evaluation_id" value)
      return .status evaluationId
    else .error .usage

/-! ### Files -/

/-- A file that is open: how long its metadata says that it is, and what there is to be read. -/
structure InputFile where
  length : Option Nat
  content : Option (List UInt8)

/-- `read_bounded`, of what opening the file comes to. -/
def readBounded (file : Option InputFile) (maximum : Nat) : Except CliError (List UInt8) := do
  let file ← orRefuse .io file
  let length ← orRefuse .io file.length
  refuseIf (maximum < length) .inputTooLarge
  -- one byte more than may be is read, to see a file that has grown
  let bytes ← orRefuse .io (file.content.map fun content => content.take (maximum + 1))
  refuseIf (maximum < bytes.length) .inputTooLarge
  return bytes

/-- What is read is all of the file, however long it was said to be. -/
theorem readBounded_eq_ok {file : Option InputFile} {maximum : Nat} {bytes : List UInt8} :
    readBounded file maximum = .ok bytes ↔
      ∃ length ≤ maximum, bytes.length ≤ maximum ∧ file = some ⟨some length, some bytes⟩ := by
  simp only [readBounded, bind_eq_ok, orRefuse_eq_ok, refuseIf_eq_ok, exists_const, Nat.not_lt,
    Option.map_eq_some_iff, pure, Except.pure, Except.ok.injEq]
  constructor
  · rintro ⟨⟨_, _⟩, hfile, length, rfl, hlength, _, ⟨content, rfl, rfl⟩, hbound, rfl⟩
    refine ⟨length, hlength, hbound, ?_⟩
    rw [List.length_take] at hbound
    rw [hfile, List.take_of_length_le (by omega)]
  · rintro ⟨length, hlength, hbound, rfl⟩
    exact ⟨_, rfl, length, rfl, hlength, _, ⟨bytes, rfl, rfl⟩,
      (List.length_take_le' _ _).trans hbound, List.take_of_length_le (by omega)⟩

/-! ### Executing -/

/-- `SUPPORTED_SCHEMA_VERSION`. -/
def supportedSchemaVersion : Nat := 2

/-- `format_snapshot`. -/
def formatSnapshot (snapshot : EvaluationSnapshot) : String :=
  s!"evaluation={snapshot.evaluationId.value} attempt={snapshot.currentAttemptId.value} " ++
    s!"attempt_number={snapshot.attemptNumber} state={snapshot.state.asStr} " ++
      s!"terminal_result={snapshot.terminalResult}"

/-- What is around the command line: the files, and what migrating the database and checking its
version come to. -/
structure Console where
  open? : List UInt8 → Option InputFile
  migrated : Except StoreError Unit
  compatible : Except StoreError Unit

section Executing

variable [Wire]

/-- The input of a submission. -/
def Console.readRequest (console : Console) (path : List UInt8) :
    Except CliError EvaluationRequest := do
  let bytes ← readBounded (console.open? path) maxEvaluationRequestBytes
  reportAs .invalidRequest (decodeEvaluationRequest bytes)

/-- `execute_with_store`. -/
def Console.executeWithStore (console : Console) (command : CliCommand) (now : UnixMillis)
    (db : Database) : Except CliError String × Database :=
  match command with
  | .migrate =>
    ((reportAs .storage console.migrated).map fun _ =>
      s!"migrated schema {supportedSchemaVersion}", db)
  | .submit path =>
    match reportAs .storage console.compatible with
    | .error error => (.error error, db)
    | .ok () =>
      match console.readRequest path with
      | .error error => (.error error, db)
      | .ok request =>
        let (answer, db) := createEvaluation ⟨request, now⟩ db
        ((reportAs .storage answer).map formatSnapshot, db)
  | .status evaluationId =>
    match reportAs .storage console.compatible with
    | .error error => (.error error, db)
    | .ok () => ((reportAs .storage (evaluationStatus db evaluationId)).map formatSnapshot, db)

/-- A command as it was typed; the environment is in order. -/
def Console.run (console : Console) (arguments : List (List UInt8)) (now : UnixMillis)
    (db : Database) : Except CliError String × Database :=
  match parseArgs arguments with
  | .error error => (.error error, db)
  | .ok command => console.executeWithStore command now db

end Executing

/-- `openoj-cli submit <path>`. -/
def submitArguments (path : List UInt8) : List (List UInt8) := [bytes "submit", path]

/-- `openoj-cli status <evaluation-id>`. -/
def statusArguments (evaluationId : EvaluationId) : List (List UInt8) :=
  [bytes "status", bytes evaluationId.value]

theorem intoString_bytes (s : String) : intoString (bytes s) = some s := by
  rw [intoString, bytes, readUtf8_utf8, Option.map_some, String.ofList_toList]

theorem parseArgs_submit (path : List UInt8) :
    parseArgs (submitArguments path) = .ok (.submit path) := by
  simp only [parseArgs, submitArguments, intoString_bytes, orRefuse_some, ok_bind]
  rfl

theorem parseArgs_status (evaluationId : EvaluationId) :
    parseArgs (statusArguments evaluationId) = .ok (.status evaluationId) := by
  simp only [parseArgs, statusArguments, intoString_bytes, orRefuse_some, ok_bind,
    List.head?_cons, OpaqueId.parse_value, reportAs_ok]
  rfl

section Running

variable [Wire] {console : Console} {path : List UInt8} {now : UnixMillis} {db db' : Database}

/-- What a submission prints is what the store answers to the creation of what was read. -/
theorem Console.run_submit {request : EvaluationRequest} (hcompatible : console.compatible = .ok ())
    (hread : console.readRequest path = .ok request) :
    console.run (submitArguments path) now db =
      (createEvaluation ⟨request, now⟩ db).map
        (fun answer => (reportAs .storage answer).map formatSnapshot) id := by
  rw [run, parseArgs_submit]
  simp only [executeWithStore, hcompatible, reportAs_ok, hread]
  rfl

theorem Console.run_submit_eq_ok {line : String}
    (h : console.run (submitArguments path) now db = (.ok line, db')) :
    ∃ request snapshot, console.readRequest path = .ok request ∧
      createEvaluation ⟨request, now⟩ db = (.ok snapshot, db') ∧
        line = formatSnapshot snapshot := by
  rw [run, parseArgs_submit] at h
  simp only [executeWithStore] at h
  split at h
  · cases h
  split at h
  · cases h
  rename_i request hread
  rcases hcreate : createEvaluation ⟨request, now⟩ db with ⟨answer, next⟩
  rw [hcreate] at h
  cases answer with
  | error error => cases h
  | ok snapshot =>
    obtain ⟨hline, rfl⟩ := Prod.ext_iff.mp h
    refine ⟨request, snapshot, hread, ?_, (Except.ok.inj hline).symm⟩
    exact hcreate

theorem Console.run_status (hcompatible : console.compatible = .ok ()) {id : EvaluationId}
    {snapshot : EvaluationSnapshot} (h : evaluationStatus db id = .ok snapshot) :
    console.run (statusArguments id) now db = (.ok (formatSnapshot snapshot), db) := by
  rw [run, parseArgs_status]
  simp only [executeWithStore, hcompatible, reportAs_ok, h]
  rfl

end Running

/-! ### Where evaluations come from -/

/-- What is never written again of an evaluation. -/
def EvaluationRow.origin (e : EvaluationRow) : EvaluationId × IdempotencyKey × List UInt8 :=
  (e.evaluationId, e.creationIdempotencyKey, e.initialRequest)

section Origins

variable [Wire] {db db' db'' : Database}

/-- The request that an evaluation was created for. -/
structure Originates (request : EvaluationRequest)
    (origin : EvaluationId × IdempotencyKey × List UInt8) : Prop where
  evaluationId : origin.1 = request.evaluationId
  key : origin.2.1 = request.idempotencyKey
  payload : encodeEvaluationRequest request = .ok origin.2.2

/-- Evaluations keep their origins, and new ones have one. -/
def KeepsOrigins (db db' : Database) : Prop :=
  ∀ id, (db'.evaluations.find? id).map EvaluationRow.origin =
      (db.evaluations.find? id).map EvaluationRow.origin ∨
    db.evaluations.find? id = none ∧ ∃ origin request,
      (db'.evaluations.find? id).map EvaluationRow.origin = some origin ∧
        Originates request origin

theorem KeepsOrigins.refl (db : Database) : KeepsOrigins db db := fun _ => .inl rfl

theorem KeepsOrigins.trans (h : KeepsOrigins db db') (h' : KeepsOrigins db' db'') :
    KeepsOrigins db db'' := by
  intro id
  rcases h id with hsame | ⟨hnone, origin, request, hnew, horigin⟩
  · rcases h' id with hsame' | ⟨hnone', hnew'⟩
    · exact .inl (hsame'.trans hsame)
    · rw [hnone', Option.map_none, eq_comm, Option.map_eq_none_iff] at hsame
      exact .inr ⟨hsame, hnew'⟩
  · rcases h' id with hsame' | ⟨hnone', -⟩
    · exact .inr ⟨hnone, origin, request, hsame'.trans hnew, horigin⟩
    · rw [hnone'] at hnew
      cases hnew

omit [Wire] in
private theorem map_update {e e' : EvaluationRow}
    (he : db.evaluations.find? e.evaluationId = some e)
    (h : db'.evaluations.find? = Function.update db.evaluations.find? e.evaluationId (some e'))
    (horigin : e'.origin = e.origin) (id : EvaluationId) :
    (db'.evaluations.find? id).map EvaluationRow.origin =
      (db.evaluations.find? id).map EvaluationRow.origin := by
  rw [h]
  by_cases hid : id = e.evaluationId
  · rw [hid, Function.update_self, he, Option.map_some, Option.map_some, horigin]
  · rw [Function.update_of_ne hid]

/-- **Origins are kept** by every call. -/
theorem keepsOrigins_next (hc : Coupled db) (op : Operation) :
    KeepsOrigins db (store.next op db) := by
  have hperformed := performed hc op
  generalize store.next op db = db' at hperformed
  cases hperformed with
  | idle => exact .refl db
  | created hpayload _ h =>
    rename_i command payload _
    intro id
    rw [h.evaluations]
    by_cases hid : id = command.request.evaluationId
    · rw [hid, Function.update_self]
      exact .inr ⟨h.newEvaluation, _, command.request, rfl, rfl, rfl, hpayload⟩
    · rw [Function.update_of_ne hid]
      exact .inl rfl
  | claimed _ _ _ h => exact fun id => .inl (map_update h.triple.evaluation h.evaluations rfl id)
  | renewed _ _ _ _ h => exact fun id => .inl (by rw [h.evaluations])
  | recovered _ h =>
    refine (recoveries_preserve (P := KeepsOrigins db) (fun d d' _ hstep hkept => ?_) h hc
      (.refl db)).2
    obtain ⟨_, _, _, _, _, _, _, _, _, h⟩ := hstep
    exact hkept.trans fun id => .inl (map_update h.triple.evaluation h.evaluations rfl id)
  | submitted _ _ h => exact fun id => .inl (map_update h.triple.evaluation h.evaluations rfl id)
  | cancelled _ h => exact fun id => .inl (map_update h.triple.evaluation h.evaluations rfl id)

theorem keepsOrigins_runFrom (hr : store.Reachable db) (ops : List Operation) :
    KeepsOrigins db (store.runFrom db ops) :=
  Machine.run_related (R := KeepsOrigins) .refl .trans
    (fun _ op hr => keepsOrigins_next (coupled_of_reachable hr) op) hr ops

/-- An evaluation is the one that a request was created as. -/
def CreatedFor (db : Database) (request : EvaluationRequest) (e : EvaluationRow) : Prop :=
  db.evaluations.find? request.evaluationId = some e ∧ Originates request e.origin

theorem CreatedFor.runFrom {request : EvaluationRequest} {e : EvaluationRow}
    (h : CreatedFor db request e) (hr : store.Reachable db) (ops : List Operation) :
    ∃ e', CreatedFor (store.runFrom db ops) request e' := by
  obtain ⟨he, horigin⟩ := h
  rcases keepsOrigins_runFrom hr ops request.evaluationId with hsame | ⟨hnone, -⟩
  · rw [he, Option.map_some, Option.map_eq_some_iff] at hsame
    obtain ⟨e', he', hsame⟩ := hsame
    exact ⟨e', he', hsame ▸ horigin⟩
  · cases he.symm.trans hnone

/-- Every stored evaluation was created for some request. -/
theorem exists_createdFor (hr : store.Reachable db) {e : EvaluationRow}
    (he : db.evaluations.find? e.evaluationId = some e) : ∃ request, CreatedFor db request e := by
  have hkept : KeepsOrigins .empty db := by
    obtain ⟨ops, rfl⟩ := hr
    exact keepsOrigins_runFrom store.reachable_start ops
  rcases hkept e.evaluationId with hsame | ⟨-, origin, request, hnew, horigin⟩
  · rw [he] at hsame
    cases hsame
  · rw [he] at hnew
    obtain rfl := Option.some.inj hnew
    refine ⟨request, ?_, horigin⟩
    rw [← horigin.evaluationId]
    exact he

/-! ### Submitting -/

/-- What a creation is answered with is the status of the evaluation that was created for its
request, now or before. -/
theorem createdFor_of_createEvaluation (hl : LosslessRequests) (hr : store.Reachable db)
    {command : CreateEvaluation} {snapshot : EvaluationSnapshot}
    (h : createEvaluation command db = (.ok snapshot, db')) :
    ∃ e, CreatedFor db' command.request e ∧
      evaluationStatus db' command.request.evaluationId = .ok snapshot := by
  rcases transact_cases (createTransaction command db) (fun id db => evaluationStatus db id) db
    with ⟨error, -, heq⟩ | ⟨id, next, htransaction, heq⟩
  · cases h.symm.trans heq
  · obtain ⟨hstatus, rfl⟩ := Prod.ext_iff.mp (h.symm.trans heq)
    obtain ⟨payload, hpayload, ⟨rfl, e, he, hkey, hinitial, rfl⟩ | ⟨rfl, -, hcreated⟩⟩ :=
      createTransaction_spec htransaction
    · -- it was created before, for this request as the texts are the same
      obtain ⟨request, hfor⟩ := exists_createdFor hr (Table.mem_rows.mp he)
      have hsame : encodeEvaluationRequest request = .ok payload := hinitial ▸ hfor.2.payload
      obtain rfl : request = command.request := Except.ok.inj
        ((decode_of_encode hl hsame).symm.trans (decode_of_encode hl hpayload))
      refine ⟨e, hfor, ?_⟩
      rw [← hfor.2.evaluationId]
      exact hstatus.symm
    · refine ⟨evaluationRow command.request payload command.createdAt.value,
        ⟨?_, rfl, rfl, hpayload⟩, hstatus.symm⟩
      rw [hcreated.evaluations, Function.update_self]

/-- Another request under the key of an evaluation is refused. -/
theorem createEvaluation_conflict (hl : LosslessRequests) {request : EvaluationRequest}
    {e : EvaluationRow} (hfor : CreatedFor db request e) {command : CreateEvaluation}
    (hkey : command.request.idempotencyKey = request.idempotencyKey)
    (hother : command.request ≠ request) :
    ∃ error, createEvaluation command db = (.error error, db) := by
  suffices h : ∃ error, createTransaction command db = .error error by
    obtain ⟨error, herror⟩ := h
    exact ⟨error, by rw [createEvaluation, herror]; rfl⟩
  rcases ok_or_error (createTransaction command db) with ⟨⟨id, next⟩, hok⟩ | ⟨error, herror⟩
  · obtain ⟨payload, hpayload, hfound⟩ := createTransaction_spec hok
    have honly : OnlyEvaluation db command.request e :=
      onlyEvaluation_of_find? hfor.1 (hfor.2.key.trans hkey.symm)
    rcases hfound with ⟨-, row, hrow, hrowKey, hinitial, -⟩ | ⟨-, hnone, -⟩
    · obtain rfl := (honly row).mp ⟨hrow, hrowKey⟩
      have hsame : encodeEvaluationRequest request = .ok payload := hinitial ▸ hfor.2.payload
      exact absurd (Except.ok.inj ((decode_of_encode hl hpayload).symm.trans
        (decode_of_encode hl hsame))) hother
    · obtain ⟨hmem, hkey⟩ := (honly e).mpr rfl
      exact absurd hkey (hnone e hmem)
  · exact ⟨error, herror⟩

/-- **Submitting again.** Once a submission has been answered, whatever happens to the store, every
later submission under its key is answered with the status of its evaluation when the request is the
same, and is refused when it is another one; neither changes anything. -/
theorem submit_again (hl : LosslessRequests) (hr : store.Reachable db) {console : Console}
    {path : List UInt8} {now : UnixMillis} {line : String}
    (h : console.run (submitArguments path) now db = (.ok line, db')) :
    ∃ request snapshot, console.readRequest path = .ok request ∧ line = formatSnapshot snapshot ∧
      ∀ (ops : List Operation) (later : Console) (path' : List UInt8) (now' : UnixMillis)
        (request' : EvaluationRequest),
        later.compatible = .ok () → later.readRequest path' = .ok request' →
        request'.idempotencyKey = request.idempotencyKey →
        ∃ snapshot', snapshot.Precedes snapshot' ∧
          later.run (statusArguments request.evaluationId) now' (store.runFrom db' ops) =
            (.ok (formatSnapshot snapshot'), store.runFrom db' ops) ∧
          later.run (submitArguments path') now' (store.runFrom db' ops) =
            (if request' = request then .ok (formatSnapshot snapshot') else .error .storage,
              store.runFrom db' ops) := by
  obtain ⟨request, snapshot, hread, hcreate, rfl⟩ := Console.run_submit_eq_ok h
  have hr' : store.Reachable db' := by
    have hnext := hr.next (.createEvaluation ⟨request, now⟩)
    rwa [next_createEvaluation, hcreate] at hnext
  obtain ⟨e, hfor, hstatus⟩ := createdFor_of_createEvaluation hl hr hcreate
  have hid : e.evaluationId = request.evaluationId := hfor.2.evaluationId
  refine ⟨request, snapshot, hread, rfl, fun ops later path' now' request' hlater hread' hkey => ?_⟩
  -- what was printed is what the rows of the evaluation say
  obtain ⟨a, t, htriple⟩ := (coupled_of_reachable hr').linked _ e hfor.1
  obtain rfl : snapshotOf e a = snapshot := Except.ok.inj
    ((evaluationStatus_ok (legible_of_reachable hl hr') htriple).symm.trans (hid ▸ hstatus))
  obtain ⟨snapshot', hstatus', hprecedes⟩ := htriple.report_runFrom hl hr' ops
  rw [hid] at hstatus'
  refine ⟨snapshot', hprecedes, Console.run_status hlater hstatus', ?_⟩
  rw [Console.run_submit hlater hread']
  obtain ⟨e', hfor'⟩ := hfor.runFrom hr' ops
  split
  · next hsame =>
    subst hsame
    obtain ⟨answer, hanswer, hagain⟩ := createEvaluation_recorded hl (hr'.runFrom ops)
      ⟨request', now'⟩ hfor'.2.payload (onlyEvaluation_of_find? hfor'.1 hfor'.2.key) rfl
    have hid' : e'.evaluationId = request'.evaluationId := hfor'.2.evaluationId
    rw [hid', hstatus'] at hanswer
    obtain rfl := Except.ok.inj hanswer
    rw [hagain]
    rfl
  · next hother =>
    obtain ⟨error, hrefused⟩ : ∃ error, createEvaluation ⟨request', now'⟩ (store.runFrom db' ops) =
        (.error error, store.runFrom db' ops) :=
      createEvaluation_conflict hl hfor' hkey hother
    rw [hrefused]
    rfl

end Origins

section Json

attribute [local instance] jsonWire

/-- A console with one file, which is as long as it says. -/
def fileConsole (content : List UInt8) : Console where
  open? := fun _ => some ⟨some content.length, some content⟩
  migrated := .ok ()
  compatible := .ok ()

theorem readRequest_fileConsole {request : EvaluationRequest} {payload : List UInt8}
    (hpayload : encodeEvaluationRequest request = .ok payload) (path : List UInt8) :
    (fileConsole payload).readRequest path = .ok request := by
  have hread : readBounded (some ⟨some payload.length, some payload⟩) maxEvaluationRequestBytes =
      .ok payload :=
    readBounded_eq_ok.mpr ⟨_, length_of_encode hpayload, length_of_encode hpayload, rfl⟩
  rw [Console.readRequest, fileConsole, hread, ok_bind, decode_of_encode
    (WireType.json_lossless _) hpayload, reportAs_ok]

/-- The fixture is submitted twice, before and after it is claimed. -/
theorem submit_again_fixture :
    ∃ (console : Console) (snapshot snapshot' : EvaluationSnapshot) (db : Database),
      console.run (submitArguments []) ⟨0, by decide⟩ .empty = (.ok (formatSnapshot snapshot), db) ∧
        snapshot.Precedes snapshot' ∧
          console.run (submitArguments []) ⟨2000, by decide⟩
            (store.runFrom db [.claimTask fixtureClaim fun _ => false]) =
              (.ok (formatSnapshot snapshot'),
                store.runFrom db [.claimTask fixtureClaim fun _ => false]) := by
  have hl : LosslessRequests := WireType.json_lossless _
  have hencode : ∃ payload, encodeEvaluationRequest fixtureRequest = .ok payload :=
    exists_encode hl fixtureParts_mediaType
  obtain ⟨payload, hpayload⟩ := hencode
  have hread : ∀ path, (fileConsole payload).readRequest path = .ok fixtureRequest :=
    readRequest_fileConsole hpayload
  have hcreate : ∃ snapshot db, createEvaluation ⟨fixtureRequest, ⟨0, by decide⟩⟩ .empty =
      (.ok snapshot, db) ∧ Created .empty db fixtureRequest payload 0 :=
    createEvaluation_ok hl store.reachable_start (.empty _) (.empty _) hpayload (by decide +kernel)
  obtain ⟨snapshot, db, hcreate, -⟩ := hcreate
  have hline : (fileConsole payload).run (submitArguments []) ⟨0, by decide⟩ .empty =
      (.ok (formatSnapshot snapshot), db) := by
    rw [Console.run_submit rfl (hread []), hcreate]
    rfl
  obtain ⟨request, first, hread', hformat, hagain⟩ := submit_again hl store.reachable_start hline
  obtain rfl := Except.ok.inj ((hread []).symm.trans hread')
  obtain ⟨snapshot', hprecedes, -, hsubmit⟩ :=
    hagain [.claimTask fixtureClaim fun _ => false] (fileConsole payload) [] ⟨2000, by decide⟩
      fixtureRequest rfl (hread []) rfl
  rw [if_pos rfl] at hsubmit
  exact ⟨fileConsole payload, first, snapshot', db, hformat ▸ hline, hprecedes, hsubmit⟩

end Json
end OpenOJ
