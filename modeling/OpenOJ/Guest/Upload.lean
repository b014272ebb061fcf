import OpenOJ.Foundation.Files
import OpenOJ.Foundation.Machine
import OpenOJ.Guest.Channel

/-!
# Uploads

An upload becomes a file in the directory of inputs when its digest is that of its bytes
(`Upload.Intact`) and its name is one a file can have. The agent joins the name to the directory and
writes there, after creating the directory; what the name may be is checked on its text
(`safeInputPath`), and a name that passes is one part of a path (`proper_of_safeInputPath`).

* `upload_stored`: an upload that can be put (`GuestTask.Accepts`) is put in its place and
  acknowledged;
* `upload_not_stored`: any other one changes no file;
* `file_changed`: so every file an upload changes is in the directory of inputs, under the upload's
  name;
* `writable_after`: whether a file of a name can be put does not change with what is uploaded;
* `file_after`: after any sequence of uploads, what is under a name is what its last intact upload
  brought (`lastIntact`), whatever was refused in between.

`upload_store` puts them together for a guest's task after any sequence of uploads: which files the
next one changes, what is in them, and what is refused.
-/

namespace OpenOJ.Guest

open Outcome

/-- `INPUT_DIR`. -/
def inputDir : List Char := "inputs".toList

/-- The files of a guest. What its processes do with them is not said. -/
abbrev GuestFiles := Files.Tree (List UInt8)

/-- What the agent works on: a directory, and the processes that run in it. -/
structure GuestTask where
  cwd : Files.Location
  work : Files.Path
  run : List String → UInt64 → GuestFiles → Except AgentError (CommandOutput × Nat) × GuestFiles

/-- The directory of inputs. -/
def GuestTask.directory (task : GuestTask) : Files.Path := task.work.join inputDir

def GuestTask.inputs (task : GuestTask) : Files.Location := task.directory.resolve task.cwd

/-- The end of `write_input`: the directory is created, and the file written. -/
def GuestTask.workspace (task : GuestTask) : Workspace GuestFiles where
  write name bytes tree :=
    let (written, tree) := Files.Tree.put task.cwd (task.directory.join name.toList) bytes tree
    (translate AgentError.io written, tree)
  run := task.run

/-- An `UploadInput`. -/
structure Upload where
  name : String
  digest : String
  bytes : List UInt8

def Upload.message (upload : Upload) : Message :=
  .uploadInput upload.name upload.digest upload.bytes

theorem proper_inputDir : Files.Tree.Proper inputDir where
  noSlash := by decide
  leads := by decide
  notParent := by decide

theorem proper_of_safeInputPath {name : String} (h : safeInputPath name = .ok ()) :
    '/' ∉ name.toList ∧ name.toList ≠ ['.', '.'] := by
  rw [safeInputPath, refuseIf_eq_ok] at h
  simp only [not_or] at h
  obtain ⟨-, hslash, -, -, hdots⟩ := h
  refine ⟨hslash, fun hname => hdots ?_⟩
  rw [hname]
  rfl

section Agent

variable [Sha256]

/-- The agent, message by message. -/
def agent {σ : Type} (workspace : Workspace σ) (work : σ) :
    Machine σ Message (Except AgentError (Option Message)) where
  start := work
  step message work := handle workspace work message

/-- The digest is the one of the bytes. -/
def Upload.Intact (upload : Upload) : Prop := upload.digest = hex (Sha256.digest upload.bytes)

instance (upload : Upload) : Decidable upload.Intact := inferInstanceAs (Decidable (_ = _))

/-- The last upload of a name whose digest is the one of its bytes. -/
def lastIntact (name : String) (uploads : List Upload) : Option Upload :=
  (uploads.filter fun upload => upload.name = name ∧ upload.Intact).getLast?

section Steps

/-- A file of this name can be put among the inputs. -/
abbrev GuestTask.Writable (task : GuestTask) (name : String) (tree : GuestFiles) : Prop :=
  Files.Tree.Writable task.cwd task.directory name.toList tree

/-- The agent acknowledges the upload as accepted. -/
def GuestTask.Accepts (task : GuestTask) (tree : GuestFiles) (upload : Upload) : Prop :=
  ∃ name, (handle task.workspace tree upload.message).1 = .ok (some (.uploadAck name true))

variable {task : GuestTask} {tree : GuestFiles} {upload : Upload}

theorem handle_upload :
    handle task.workspace tree upload.message =
      ((writeInput task.workspace upload.name upload.digest upload.bytes tree).1.map
          fun accepted => some (.uploadAck upload.name accepted),
        (writeInput task.workspace upload.name upload.digest upload.bytes tree).2) :=
  rfl

/-- An upload that is not intact, or whose name is unsafe, changes nothing. -/
theorem upload_refused (h : ¬(safeInputPath upload.name = .ok () ∧ upload.Intact)) :
    (handle task.workspace tree upload.message).2 = tree ∧
      ¬task.Accepts tree upload := by
  rw [GuestTask.Accepts, handle_upload]
  unfold writeInput
  rcases hsafe : safeInputPath upload.name with error | ⟨⟩
  · exact ⟨rfl, by rintro ⟨_, ⟨⟩⟩⟩
  · have hdigest : upload.digest ≠ hex (Sha256.digest upload.bytes) := fun hdigest =>
      h ⟨hsafe, hdigest⟩
    simp [hdigest, Except.map]

/-- An upload that passes both checks is put into the directory. -/
private theorem handle_of_passed (hsafe : safeInputPath upload.name = .ok ())
    (hintact : upload.Intact) {written : Except String Unit} {next : GuestFiles}
    (hput : Files.Tree.put task.cwd (task.directory.join upload.name.toList) upload.bytes tree =
      (written, next)) :
    handle task.workspace tree upload.message =
      ((translate AgentError.io written).map fun _ => some (.uploadAck upload.name true),
        next) := by
  have hdigest : ¬upload.digest ≠ hex (Sha256.digest upload.bytes) := not_not.mpr hintact
  rw [handle_upload, writeInput, hsafe]
  simp only [if_neg hdigest, GuestTask.workspace, hput]
  cases written <;> rfl

/-- **A step that stores**: the agent acknowledges an upload that it can put. -/
theorem upload_stored (hsafe : safeInputPath upload.name = .ok ()) (hintact : upload.Intact)
    (h : task.Writable upload.name tree) :
    handle task.workspace tree upload.message =
      (.ok (some (.uploadAck upload.name true)),
        { file := Function.update tree.file
            (task.inputs ++ [upload.name.toList]) (some upload.bytes)
          directory := fun l =>
            tree.directory l || decide (l <+: task.inputs) }) :=
  handle_of_passed hsafe hintact (Files.Tree.put_of_writable h)

/-- **Any other step** changes no file. -/
theorem upload_not_stored (h : ¬(safeInputPath upload.name = .ok () ∧ upload.Intact ∧
      task.Writable upload.name tree)) :
    ¬task.Accepts tree upload ∧
      Files.Tree.Prepared task.inputs tree
        (handle task.workspace tree upload.message).2 := by
  by_cases hpassed : safeInputPath upload.name = .ok () ∧ upload.Intact
  · obtain ⟨hslash, hparent⟩ := proper_of_safeInputPath hpassed.1
    have hwritable : ¬task.Writable upload.name tree :=
      fun hwritable => h ⟨hpassed.1, hpassed.2, hwritable⟩
    obtain ⟨⟨message, herror⟩, hprepared⟩ :=
      @Files.Tree.put_of_not_writable _ task.cwd task.directory _ upload.bytes tree hslash hparent
        hwritable
    rcases hput : Files.Tree.put task.cwd (task.directory.join upload.name.toList) upload.bytes tree
      with ⟨written, next⟩
    rw [hput] at herror hprepared
    obtain rfl : written = .error message := herror
    rw [GuestTask.Accepts, handle_of_passed hpassed.1 hpassed.2 hput]
    refine ⟨by rintro ⟨_, ⟨⟩⟩, hprepared.mono ?_⟩
    by_cases hidle : Files.Path.Idle upload.name.toList
    · -- a dot leads to the directory itself, and its parent is the one of the task
      rw [Files.Path.parent_join_idle hslash hidle, GuestTask.inputs, GuestTask.directory,
        Files.Path.parent_join proper_inputDir.noSlash proper_inputDir.leads,
        proper_inputDir.resolve_join]
      exact List.prefix_append _ _
    · rw [Files.Path.parent_join hslash hidle, GuestTask.inputs]
  · obtain ⟨hsame, hrefused⟩ := @upload_refused _ task tree upload hpassed
    exact ⟨hrefused, by rw [hsame]; exact .refl _ tree⟩

/-- What can be put stays what can be put. -/
theorem writable_next (name : String) :
    task.Writable name
        (handle task.workspace tree upload.message).2 ↔
      task.Writable name tree := by
  by_cases hstores : safeInputPath upload.name = .ok () ∧ upload.Intact ∧
      task.Writable upload.name tree
  · obtain ⟨hsafe, hintact, hwritable⟩ := hstores
    rw [upload_stored hsafe hintact hwritable]
    refine Files.Tree.writable_congr (fun l hl => ?_) (fun l hl => ?_) fun l hl => ?_
    · -- a child of the directory is not on the way to it
      refine Function.update_of_ne (fun heq => ?_) _ _
      have hlength := ((List.mem_inits _ _).mp hl).length_le
      rw [heq, List.length_append, List.length_singleton, GuestTask.inputs] at hlength
      omega
    · simp [hl]
    · have hor : tree.directory l = true ∨ l <+: task.inputs := by
        simpa only [Bool.or_eq_true, decide_eq_true_eq] using hl
      exact hor
  · obtain ⟨-, hprepared⟩ := @upload_not_stored _ task tree upload hstores
    exact Files.Tree.writable_congr (fun l _ => congrFun hprepared.file l) hprepared.kept
      hprepared.created

theorem accepts_iff :
    task.Accepts tree upload ↔ safeInputPath upload.name = .ok () ∧ upload.Intact ∧
      task.Writable upload.name tree := by
  refine ⟨fun h => ?_, fun ⟨hsafe, hintact, hwritable⟩ => ?_⟩
  · by_contra hstores
    exact (upload_not_stored hstores).1 h
  · exact ⟨upload.name, by rw [upload_stored hsafe hintact hwritable]⟩

/-- **Every file an upload changes** is in the directory of inputs, under the upload's name. -/
theorem file_changed {location : Files.Location}
    (h : (handle task.workspace tree upload.message).2.file location ≠
      tree.file location) :
    task.Accepts tree upload ∧ Files.Tree.Proper upload.name.toList ∧
      location = task.inputs ++ [upload.name.toList] := by
  have haccepted : task.Accepts tree upload := by
    by_contra hrefused
    have hprepared := (upload_not_stored (fun hstores => hrefused (accepts_iff.mpr hstores))).2
    exact h (congrFun hprepared.file location)
  obtain ⟨hsafe, hintact, hwritable⟩ := accepts_iff.mp haccepted
  refine ⟨haccepted, hwritable.proper, ?_⟩
  rw [upload_stored hsafe hintact hwritable] at h
  by_contra hother
  exact h (Function.update_of_ne hother _ _)

end Steps

/-! ### Runs -/

/-- The files after a sequence of uploads. -/
def GuestTask.after (task : GuestTask) (tree : GuestFiles) (uploads : List Upload) : GuestFiles :=
  (agent task.workspace tree).run (uploads.map Upload.message)

section Runs

variable {task : GuestTask} {tree : GuestFiles}

theorem after_concat (uploads : List Upload) (upload : Upload) :
    task.after tree (uploads ++ [upload]) =
      (handle task.workspace (task.after tree uploads)
        upload.message).2 := by
  rw [GuestTask.after, List.map_append, List.map_singleton, Machine.run_concat]
  rfl

theorem writable_after (uploads : List Upload) (name : String) :
    task.Writable name (task.after tree uploads) ↔
      task.Writable name tree := by
  induction uploads using List.reverseRecOn with
  | nil => exact Iff.rfl
  | append_singleton uploads upload ih => rw [after_concat, writable_next, ih]

theorem lastIntact_concat (name : String) (uploads : List Upload) (upload : Upload) :
    lastIntact name (uploads ++ [upload]) =
      if upload.name = name ∧ upload.Intact then some upload else lastIntact name uploads := by
  unfold lastIntact
  rw [List.filter_append, List.filter_singleton]
  by_cases h : upload.name = name ∧ upload.Intact
  · simp [h]
  · simp [h]

/-- A file that can be put holds what the last intact upload of its name brought. -/
theorem file_after {name : String} (hsafe : safeInputPath name = .ok ())
    (h : task.Writable name tree) (uploads : List Upload) :
    (task.after tree uploads).file
        (task.inputs ++ [name.toList]) =
      ((lastIntact name uploads).map Upload.bytes).or
        (tree.file (task.inputs ++ [name.toList])) := by
  induction uploads using List.reverseRecOn with
  | nil => rfl
  | append_singleton uploads upload ih =>
    rw [after_concat, lastIntact_concat]
    by_cases hnamed : upload.name = name ∧ upload.Intact
    · obtain ⟨rfl, hintact⟩ := hnamed
      rw [if_pos ⟨rfl, hintact⟩, upload_stored hsafe hintact
        ((writable_after uploads _).mpr h)]
      exact Function.update_self _ _ _
    · rw [if_neg hnamed, ← ih]
      by_contra hchanged
      obtain ⟨haccepted, -, hlocation⟩ := file_changed hchanged
      have hname := List.singleton_inj.mp (List.append_cancel_left hlocation)
      exact hnamed ⟨(String.toList_injective hname).symm, (accepts_iff.mp haccepted).2.1⟩

/-- **The store of uploads.** After any sequence of uploads, the next one changes at most the file
of its name in the directory of inputs, and this only if it is acknowledged as accepted; whatever
was accepted has left a file that holds the bytes of the last intact upload of its name; under a
name that is safe and can be written there is what its last intact upload brought, or else what was
there before all of them; and an upload that is not intact, or whose name is unsafe, changes nothing
and is not accepted. -/
theorem upload_store (task : GuestTask) (tree : GuestFiles) (uploads : List Upload) :
    (∀ upload location,
      (task.after tree (uploads ++ [upload])).file location ≠
          (task.after tree uploads).file location →
        task.Accepts (task.after tree uploads) upload ∧
          Files.Tree.Proper upload.name.toList ∧
            location = task.inputs ++ [upload.name.toList]) ∧
    (∀ before upload later, uploads = before ++ upload :: later →
      task.Accepts (task.after tree before) upload →
        ∃ last, lastIntact upload.name uploads = some last ∧
          (task.after tree uploads).file
            (task.inputs ++ [upload.name.toList]) = some last.bytes) ∧
    (∀ name, safeInputPath name = .ok () → task.Writable name tree →
      (task.after tree uploads).file (task.inputs ++ [name.toList]) =
        ((lastIntact name uploads).map Upload.bytes).or
          (tree.file (task.inputs ++ [name.toList]))) ∧
    ∀ upload, ¬(safeInputPath upload.name = .ok () ∧ upload.Intact) →
      task.after tree (uploads ++ [upload]) = task.after tree uploads ∧
        ¬task.Accepts (task.after tree uploads) upload := by
  refine ⟨fun upload location h => ?_, ?_, fun name hsafe h => file_after hsafe h uploads,
    fun upload h => ?_⟩
  · rw [after_concat] at h
    exact file_changed h
  · rintro before upload later rfl haccepted
    obtain ⟨hsafe, hintact, hwritable⟩ := accepts_iff.mp haccepted
    have hthere : upload ∈ (before ++ upload :: later).filter
        fun other => other.name = upload.name ∧ other.Intact :=
      List.mem_filter.mpr ⟨by simp, by simpa using hintact⟩
    obtain ⟨last, hlast⟩ := Option.isSome_iff_exists.mp
      (List.getLast?_isSome.mpr (List.ne_nil_of_mem hthere))
    refine ⟨last, hlast, ?_⟩
    rw [file_after hsafe ((writable_after before _).mp hwritable), lastIntact, hlast]
    rfl
  · rw [after_concat]
    exact upload_refused h

end Runs
end Agent
end OpenOJ.Guest
