import Mathlib.Data.List.DropRight
import Mathlib.Data.List.Infix
import Mathlib.Logic.Function.Basic
import Mathlib.Tactic.Common

/-!
# Paths and files

A path is what stands between its separators, with empty parts and dots (`Path`); where it leads to
is found part by part, from the directory one is in (`Path.resolve`), and a part of two dots leads
back. `Path.join` puts a name at the end of a path and `Path.parent` takes the last part off, as a
library does that looks at the text only. A name that consists of separators and single dots
(`Path.Idle`) is not found again by `parent`.

Files and directories are kept by where they are (`Tree`). The two operations on them,
`Tree.createDirAll` and `Tree.write`, fail on paths that lead through a file, that name a directory,
or that no system call takes, and `Tree.put` is one after the other: the directory is created, and
the file is written into it.

For a name without separators in a directory the result is exact:

* `Tree.Writable`: what it takes that a file of the name can be put into the directory;
* `Tree.put_of_writable`: then it is in its place, the directories on the way exist, and nothing
  else has changed;
* `Tree.put_of_not_writable`: else no file changes at all, and at most directories on the way have
  been created (`Tree.Prepared`);
* `Tree.writable_congr`: what can be put depends only on what is on the way, so storing one file
  does not keep another from being stored.
-/

namespace Files

/-- A place in the tree of directories: the names on the way from the root. -/
abbrev Location := List (List Char)

structure Path where
  absolute : Bool
  parts : List (List Char)

namespace Path

/-- `Path::new`. -/
def new : List Char → Path
  | '/' :: text => ⟨true, text.splitOn '/'⟩
  | text => ⟨false, text.splitOn '/'⟩

/-- `Path::join`: an absolute path replaces the one before. -/
def join (path : Path) (name : List Char) : Path :=
  if (new name).absolute then new name else ⟨path.absolute, path.parts ++ (new name).parts⟩

/-- An empty part and a single dot lead nowhere. -/
def Idle (part : List Char) : Prop := part = [] ∨ part = ['.']

instance (part : List Char) : Decidable (Idle part) := inferInstanceAs (Decidable (_ ∨ _))

/-- `Path::parent`, for a path with a part that leads somewhere. -/
def parent (path : Path) : Path := ⟨path.absolute, (path.parts.rdropWhile (Idle ·)).dropLast⟩

/-- One part of a path. -/
def walk (location : Location) (part : List Char) : Location :=
  if Idle part then location
  else if part = ['.', '.'] then location.dropLast
  else location ++ [part]

/-- Where a path leads to from a working directory. -/
def resolve (cwd : Location) (path : Path) : Location :=
  path.parts.foldl walk (if path.absolute then [] else cwd)

/-- A path that ends with a separator or with dots can name a directory only. -/
def NamesDirectory (path : Path) : Prop :=
  ∃ part ∈ path.parts.getLast?, Idle part ∨ part = ['.', '.']

/-- Paths are handed to the system as texts that end with their first zero. -/
def HasZero (path : Path) : Prop := ∃ part ∈ path.parts, '\x00' ∈ part

instance (path : Path) : Decidable path.NamesDirectory :=
  inferInstanceAs (Decidable (∃ part ∈ path.parts.getLast?, Idle part ∨ part = ['.', '.']))

instance (path : Path) : Decidable path.HasZero :=
  inferInstanceAs (Decidable (∃ part ∈ path.parts, '\x00' ∈ part))

section Join

variable {name : List Char}

theorem new_of_not_mem (h : '/' ∉ name) : new name = ⟨false, [name]⟩ := by
  unfold new
  split
  · exact absurd List.mem_cons_self h
  · rw [List.splitOn_eq_singleton h]

theorem join_of_not_mem (h : '/' ∉ name) (path : Path) :
    path.join name = ⟨path.absolute, path.parts ++ [name]⟩ := by
  rw [join, new_of_not_mem h]
  rfl

theorem resolve_join (h : '/' ∉ name) (cwd : Location) (path : Path) :
    resolve cwd (path.join name) = walk (resolve cwd path) name := by
  rw [join_of_not_mem h, resolve, List.foldl_append]
  rfl

theorem namesDirectory_join (h : '/' ∉ name) (path : Path) :
    (path.join name).NamesDirectory ↔ Idle name ∨ name = ['.', '.'] := by
  rw [join_of_not_mem h, NamesDirectory, List.getLast?_concat]
  simp

theorem hasZero_join (h : '/' ∉ name) (path : Path) :
    (path.join name).HasZero ↔ path.HasZero ∨ '\x00' ∈ name := by
  rw [join_of_not_mem h]
  simp only [HasZero, List.mem_append, List.mem_singleton, or_and_right, exists_or,
    exists_eq_left]

/-- The parent of a path that ends with a name is the path before it. -/
theorem parent_join (h : '/' ∉ name) (hname : ¬Idle name) (path : Path) :
    (path.join name).parent = path := by
  rw [join_of_not_mem h, parent, List.rdropWhile_concat_neg _ _ _ (by simpa using hname),
    List.dropLast_concat]

/-- The parent of a path that ends with a single dot is that of the path before it. -/
theorem parent_join_idle (h : '/' ∉ name) (hname : Idle name) (path : Path) :
    (path.join name).parent = path.parent := by
  rw [join_of_not_mem h, parent, List.rdropWhile_concat_pos _ _ _ (by simpa using hname), parent]

end Join
end Path

/-! ### Trees -/

universe u

/-- The files with their contents, and the directories. -/
structure Tree (α : Type u) where
  file : Location → Option α
  directory : Location → Bool

namespace Tree

variable {α : Type u} (cwd : Location)

/-- `create_dir_all`. -/
def createDirAll (path : Path) (tree : Tree α) : Except String Unit × Tree α :=
  if path.HasZero then (.error "file name contained an unexpected NUL byte", tree)
  else if ∃ l ∈ (path.resolve cwd).inits, (tree.file l).isSome then
    (.error "Not a directory (os error 20)", tree)
  else
    (.ok (), { tree with
      directory := fun l => tree.directory l || decide (l <+: path.resolve cwd) })

/-- `fs::write`. -/
def write (path : Path) (content : α) (tree : Tree α) : Except String Unit × Tree α :=
  if path.HasZero then (.error "file name contained an unexpected NUL byte", tree)
  else if path.NamesDirectory ∨ tree.directory (path.resolve cwd) then
    (.error "Is a directory (os error 21)", tree)
  else if tree.directory (path.resolve cwd).dropLast = false then
    (.error "No such file or directory (os error 2)", tree)
  else
    (.ok (), { tree with file := Function.update tree.file (path.resolve cwd) (some content) })

/-- Writes a file, and creates the directories on its way before. -/
def put (path : Path) (content : α) (tree : Tree α) : Except String Unit × Tree α :=
  match createDirAll cwd path.parent tree with
  | (.error message, tree) => (.error message, tree)
  | (.ok (), tree) => write cwd path content tree

/-- A name that a file can have. -/
structure Proper (name : List Char) : Prop where
  noSlash : '/' ∉ name
  leads : ¬Path.Idle name
  notParent : name ≠ ['.', '.']

/-- A file of this name can be put into the directory. -/
structure Writable (directory : Path) (name : List Char) (tree : Tree α) : Prop where
  proper : Proper name
  noZero : ¬(directory.join name).HasZero
  vacant : tree.directory (directory.resolve cwd ++ [name]) = false
  passable : ∀ l ∈ (directory.resolve cwd).inits, tree.file l = none

variable {cwd} {directory : Path} {name : List Char} {content : α} {tree : Tree α}

theorem Proper.resolve_join (h : Proper name) (cwd : Location) (directory : Path) :
    (directory.join name).resolve cwd = directory.resolve cwd ++ [name] := by
  rw [Path.resolve_join h.noSlash, Path.walk, if_neg h.leads, if_neg h.notParent]

theorem Proper.namesDirectory_join (h : Proper name) (directory : Path) :
    ¬(directory.join name).NamesDirectory := by
  rw [Path.namesDirectory_join h.noSlash]
  exact not_or.mpr ⟨h.leads, h.notParent⟩

theorem createDirAll_eq (h : ¬directory.HasZero)
    (hopen : ∀ l ∈ (directory.resolve cwd).inits, tree.file l = none) :
    createDirAll cwd directory tree = (.ok (), { tree with
      directory := fun l => tree.directory l || decide (l <+: directory.resolve cwd) }) := by
  rw [createDirAll, if_neg h, if_neg]
  rintro ⟨l, hl, hfile⟩
  rw [hopen l hl] at hfile
  cases hfile

/-- Between the trees no file has changed, and directories were created only on the way to a
place. -/
structure Prepared (target : Location) (tree next : Tree α) : Prop where
  file : next.file = tree.file
  kept : ∀ l, tree.directory l = true → next.directory l = true
  created : ∀ l, next.directory l = true → tree.directory l = true ∨ l <+: target

theorem Prepared.refl (target : Location) (tree : Tree α) : Prepared target tree tree :=
  ⟨rfl, fun _ hl => hl, fun _ hl => .inl hl⟩

theorem Prepared.mono {target further : Location} {tree next : Tree α}
    (h : Prepared target tree next) (hle : target <+: further) : Prepared further tree next :=
  ⟨h.file, h.kept, fun l hl => (h.created l hl).imp_right fun hway => hway.trans hle⟩

theorem prepared_createDirAll (path : Path) (tree : Tree α) :
    Prepared (path.resolve cwd) tree (createDirAll cwd path tree).2 := by
  unfold createDirAll
  split_ifs
  · exact .refl _ tree
  · exact .refl _ tree
  · refine ⟨rfl, fun l hl => ?_, fun l hl => ?_⟩
    · simp [hl]
    · simpa using hl

/-- **A file that can be put** is put in its place. -/
theorem put_of_writable (h : Writable cwd directory name tree) :
    put cwd (directory.join name) content tree = (.ok (),
      { file := Function.update tree.file (directory.resolve cwd ++ [name]) (some content)
        directory := fun l => tree.directory l || decide (l <+: directory.resolve cwd) }) := by
  have hzero : ¬directory.HasZero := fun hzero =>
    h.noZero ((Path.hasZero_join h.proper.noSlash directory).mpr (.inl hzero))
  have hbeyond : ¬directory.resolve cwd ++ [name] <+: directory.resolve cwd := fun hle => by
    have hlength := hle.length_le
    rw [List.length_append, List.length_singleton] at hlength
    omega
  rw [put, Path.parent_join h.proper.noSlash h.proper.leads, createDirAll_eq hzero h.passable]
  simp only [write, h.proper.resolve_join, List.dropLast_concat]
  rw [if_neg h.noZero, if_neg (not_or.mpr ⟨h.proper.namesDirectory_join directory, ?_⟩), if_neg]
  · simp
  · simp [h.vacant, hbeyond]

/-- **A file that cannot be put** is not put anywhere. -/
theorem put_of_not_writable (hslash : '/' ∉ name) (hparent : name ≠ ['.', '.'])
    (h : ¬Writable cwd directory name tree) :
    (∃ message, (put cwd (directory.join name) content tree).1 = .error message) ∧
      Prepared ((directory.join name).parent.resolve cwd) tree
        (put cwd (directory.join name) content tree).2 := by
  have hprepared := @prepared_createDirAll _ cwd (directory.join name).parent tree
  unfold put
  rcases hcreate : createDirAll cwd (directory.join name).parent tree with ⟨message | ⟨⟩, next⟩
  · rw [hcreate] at hprepared
    exact ⟨⟨message, rfl⟩, hprepared⟩
  rw [hcreate] at hprepared
  -- the directories are there, and it is the write that fails
  suffices hfails : ∃ message, write cwd (directory.join name) content next =
      (.error message, next) by
    obtain ⟨message, hwrite⟩ := hfails
    simp only [hwrite]
    exact ⟨⟨message, rfl⟩, hprepared⟩
  by_cases hzero : (directory.join name).HasZero
  · exact ⟨_, if_pos hzero⟩
  by_cases hidle : Path.Idle name
  · have hnames := (Path.namesDirectory_join hslash directory).mpr (.inl hidle)
    exact ⟨_, (if_neg hzero).trans (if_pos (.inl hnames))⟩
  have hproper : Proper name := ⟨hslash, hidle, hparent⟩
  have hopen : ∀ l ∈ (directory.resolve cwd).inits, tree.file l = none := by
    intro l hl
    by_contra hfile
    rw [Path.parent_join hslash hidle, createDirAll, if_neg, if_pos] at hcreate
    · cases hcreate
    · exact ⟨l, hl, Option.isSome_iff_ne_none.mpr hfile⟩
    · exact fun hdirectory => hzero ((Path.hasZero_join hslash directory).mpr (.inl hdirectory))
  have htaken : tree.directory (directory.resolve cwd ++ [name]) = true := by
    by_contra hvacant
    exact h ⟨hproper, hzero, Bool.not_eq_true _ ▸ hvacant, hopen⟩
  rw [← hproper.resolve_join] at htaken
  exact ⟨_, (if_neg hzero).trans (if_pos (.inr (hprepared.kept _ htaken)))⟩

/-- What can be put does not depend on what was put into the directory before. -/
theorem writable_congr {next : Tree α} (hopen : ∀ l ∈ (directory.resolve cwd).inits,
      next.file l = tree.file l)
    (hkept : ∀ l, tree.directory l = true → next.directory l = true)
    (hcreated : ∀ l, next.directory l = true →
      tree.directory l = true ∨ l <+: directory.resolve cwd) :
    Writable cwd directory name next ↔ Writable cwd directory name tree := by
  have hbeyond : ¬directory.resolve cwd ++ [name] <+: directory.resolve cwd := fun hle => by
    have hlength := hle.length_le
    rw [List.length_append, List.length_singleton] at hlength
    omega
  constructor
  · rintro ⟨hproper, hzero, hvacant, hnone⟩
    refine ⟨hproper, hzero, ?_, fun l hl => (hopen l hl).symm.trans (hnone l hl)⟩
    by_contra htaken
    rw [hkept _ (by simpa using htaken)] at hvacant
    cases hvacant
  · rintro ⟨hproper, hzero, hvacant, hnone⟩
    refine ⟨hproper, hzero, ?_, fun l hl => (hopen l hl).trans (hnone l hl)⟩
    by_contra htaken
    rcases hcreated _ (by simpa using htaken) with hthere | hway
    · rw [hthere] at hvacant
      cases hvacant
    · exact hbeyond hway

end Tree
end Files
