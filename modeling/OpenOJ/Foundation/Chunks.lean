import Mathlib.Data.List.Basic
import Mathlib.Tactic.Common

/-!
# Streams delivered in chunks

A stream is a list of chunks, none of them empty (`Source`); its `content` is all they hold, in
order. A single `read` brings what the first chunk has for the buffer, and `readExact` reads until
the buffer is full. What successive reads bring depends on how a stream is cut, what is read until a
buffer is full does not:

* `readExact_append`: a full buffer is the first part of the stream, however this is cut, and
  `readExact_eq_some` is the converse;
* `read_one`: one item at a time, how a stream is cut cannot be told.

A single read does for a buffer what a full one does exactly when nothing is cut within it. `cuts`
are the places where chunks end, and `starts` those where the lists begin that a stream was put
together from:

* `read_of_whole`: where no cut falls within a buffer, one read fills it;
* `read_of_cut`: where one does, a read brings something, and not all;
* `Whole`: each of some lists begins with so many items that are delivered together, which
  `whole_cons` takes apart list by list, together with the stream that is left.
-/

universe u

namespace Chunks

variable {α : Type u}

/-- A stream in chunks, each with a first item: no read of it is empty but at its end. -/
abbrev Source (α : Type u) := List (α × List α)

/-- All items, in order. -/
def content : Source α → List α
  | [] => []
  | (a, as) :: chunks => a :: as ++ content chunks

/-- Puts the rest of a chunk in front of those that follow it. -/
def push : List α → Source α → Source α
  | [], chunks => chunks
  | a :: as, chunks => (a, as) :: chunks

/-- One read into a buffer for so many items. -/
def read (n : Nat) : Source α → List α × Source α
  | [] => ([], [])
  | (a, as) :: chunks => ((a :: as).take n, push ((a :: as).drop n) chunks)

/-- Reads until the buffer is full; `none` when the stream ends before it is. -/
def readExact : Nat → Source α → Option (List α × Source α)
  | n, [] => if n = 0 then some ([], []) else none
  | n, (a, as) :: chunks =>
    if n ≤ (a :: as).length then some (read n ((a, as) :: chunks))
    else (readExact (n - (a :: as).length) chunks).map fun (bs, rest) => (a :: as ++ bs, rest)

/-- Where the chunks end. -/
def cuts : Source α → List Nat
  | [] => []
  | (a, as) :: chunks => (a :: as).length :: (cuts chunks).map ((a :: as).length + ·)

/-- Where the items of a list begin once they are joined. -/
def starts : List (List α) → List Nat
  | [] => []
  | as :: ass => 0 :: (starts ass).map (as.length + ·)

@[simp]
theorem content_push (as : List α) (chunks : Source α) :
    content (push as chunks) = as ++ content chunks := by
  cases as <;> rfl

theorem content_eq_nil {s : Source α} : content s = [] ↔ s = [] := by
  cases s with
  | nil => exact iff_of_true rfl rfl
  | cons chunk chunks => exact iff_of_false (List.cons_ne_nil _ _) (List.cons_ne_nil _ _)

/-- A read takes a part of the stream and leaves the rest. -/
theorem content_read (n : Nat) (s : Source α) :
    (read n s).1 ++ content (read n s).2 = content s := by
  cases s with
  | nil => rfl
  | cons chunk chunks =>
    obtain ⟨a, as⟩ := chunk
    rw [read, content_push, ← List.append_assoc, List.take_append_drop, content]

theorem length_read_le (n : Nat) (s : Source α) : (read n s).1.length ≤ n := by
  cases s with
  | nil => exact Nat.zero_le n
  | cons chunk chunks => exact List.length_take_le n _

/-- A read brings nothing at the end of the stream only. -/
theorem content_eq_nil_of_read {n : Nat} (hn : 0 < n) {s : Source α} (h : (read n s).1 = []) :
    content s = [] := by
  cases s with
  | nil => rfl
  | cons chunk chunks =>
    obtain ⟨a, as⟩ := chunk
    rw [read, List.take_eq_nil_iff] at h
    rcases h with rfl | h
    · exact absurd hn (Nat.lt_irrefl 0)
    · cases h

theorem readExact_zero (s : Source α) : readExact 0 s = some ([], s) := by
  cases s <;> rfl

/-- One item at a time, how a stream is cut cannot be told. -/
theorem read_one {s : Source α} {a : α} {more : List α} (h : content s = a :: more) :
    ∃ rest, read 1 s = ([a], rest) ∧ content rest = more := by
  cases s with
  | nil => cases h
  | cons chunk chunks =>
    obtain ⟨b, bs⟩ := chunk
    obtain ⟨rfl, rfl⟩ := List.cons.inj h
    exact ⟨push bs chunks, rfl, content_push bs chunks⟩

/-- **Framing.** A full buffer is the first part of the stream, however this is cut. -/
theorem readExact_append {s : Source α} {bs more : List α} (h : content s = bs ++ more) :
    ∃ rest, readExact bs.length s = some (bs, rest) ∧ content rest = more := by
  induction s generalizing bs with
  | nil =>
    obtain ⟨rfl, rfl⟩ := List.append_eq_nil_iff.mp h.symm
    exact ⟨[], rfl, rfl⟩
  | cons chunk chunks ih =>
    obtain ⟨a, as⟩ := chunk
    rw [content] at h
    rw [readExact]
    split_ifs with hfits
    · have hbs : bs = (a :: as).take bs.length := by
        have htake := congrArg (List.take bs.length) h
        rwa [List.take_append_of_le_length hfits, List.take_left', eq_comm] at htake
        rfl
      have hmore : (a :: as).drop bs.length ++ content chunks = more := by
        have hdrop := congrArg (List.drop bs.length) h
        rwa [List.drop_append_of_le_length hfits, List.drop_left'] at hdrop
        rfl
      refine ⟨_, congrArg some (Prod.ext hbs.symm rfl), ?_⟩
      rw [read, content_push, hmore]
    · -- the chunk is used up, and the rest of the buffer is filled from the next ones
      obtain ⟨cs, rfl, hcs⟩ : ∃ cs, bs = a :: as ++ cs ∧ content chunks = cs ++ more := by
        rw [List.append_eq_append_iff] at h
        rcases h with ⟨cs, hbs, hcs⟩ | ⟨cs, hchunk, -⟩
        · exact ⟨cs, hbs, hcs⟩
        · rw [hchunk, List.length_append] at hfits
          omega
      obtain ⟨rest, hrest, hmore⟩ := ih hcs
      refine ⟨rest, ?_, hmore⟩
      rw [List.length_append, Nat.add_sub_cancel_left, hrest]
      rfl

/-- What was read until the buffer was full. -/
theorem readExact_eq_some {n : Nat} {s rest : Source α} {bs : List α}
    (h : readExact n s = some (bs, rest)) : bs.length = n ∧ content s = bs ++ content rest := by
  induction s generalizing n bs rest with
  | nil =>
    rw [readExact] at h
    split_ifs at h with hn
    obtain ⟨rfl, rfl⟩ := Prod.ext_iff.mp (Option.some_inj.mp h)
    exact ⟨hn.symm, rfl⟩
  | cons chunk chunks ih =>
    obtain ⟨a, as⟩ := chunk
    rw [readExact] at h
    split_ifs at h with hfits
    · have hcontent := content_read n ((a, as) :: chunks)
      rw [Option.some_inj.mp h] at hcontent
      have htake : (a :: as).take n = bs := (Prod.ext_iff.mp (Option.some_inj.mp h)).1
      refine ⟨?_, hcontent.symm⟩
      rw [← htake, List.length_take_of_le hfits]
    · obtain ⟨⟨cs, rest'⟩, hcs, heq⟩ := Option.map_eq_some_iff.mp h
      obtain ⟨rfl, rfl⟩ := Prod.ext_iff.mp heq
      obtain ⟨hlength, hcontent⟩ := ih hcs
      refine ⟨?_, ?_⟩
      · rw [List.length_append, hlength]
        omega
      · rw [content, hcontent, List.append_assoc]

/-! ### Cuts -/

theorem mem_cuts_push (as : List α) (chunks : Source α) {cut : Nat} (hcut : 0 < cut) :
    cut ∈ cuts (push as chunks) ↔
      as.length = cut ∨ ∃ later ∈ cuts chunks, as.length + later = cut := by
  cases as with
  | nil =>
    rw [push, List.length_nil, or_iff_right (Nat.ne_of_lt hcut)]
    refine ⟨fun h => ⟨cut, h, Nat.zero_add cut⟩, fun ⟨later, hlater, heq⟩ => ?_⟩
    rwa [← heq, Nat.zero_add]
  | cons a as => rw [push, cuts, List.mem_cons, List.mem_map, @eq_comm _ cut]

/-- The rest of a stream is cut where the stream is cut. -/
theorem mem_cuts_rest {n : Nat} {s rest : Source α} {bs : List α}
    (h : readExact n s = some (bs, rest)) {cut : Nat} (hcut : 0 < cut) :
    cut ∈ cuts rest ↔ n + cut ∈ cuts s := by
  induction s generalizing n bs rest with
  | nil =>
    rw [readExact] at h
    split_ifs at h with hn
    obtain ⟨-, rfl⟩ := Prod.ext_iff.mp (Option.some_inj.mp h)
    exact iff_of_false List.not_mem_nil List.not_mem_nil
  | cons chunk chunks ih =>
    obtain ⟨a, as⟩ := chunk
    have hs : n + cut ∈ cuts ((a, as) :: chunks) ↔ (a :: as).length = n + cut ∨
        ∃ later ∈ cuts chunks, (a :: as).length + later = n + cut :=
      mem_cuts_push (a :: as) chunks (Nat.add_pos_right n hcut)
    rw [readExact] at h
    split_ifs at h with hfits
    · have hrest : push ((a :: as).drop n) chunks = rest :=
        (Prod.ext_iff.mp (Option.some_inj.mp h)).2
      rw [← hrest, mem_cuts_push _ _ hcut, hs, List.length_drop]
      refine or_congr (by omega) (exists_congr fun later => and_congr_right fun _ => by omega)
    · obtain ⟨⟨cs, rest'⟩, hcs, heq⟩ := Option.map_eq_some_iff.mp h
      obtain ⟨-, rfl⟩ := Prod.ext_iff.mp heq
      rw [hs, or_iff_right (by omega), ih hcs]
      refine ⟨fun hmem => ⟨_, hmem, by omega⟩, fun ⟨later, hlater, heq⟩ => ?_⟩
      obtain rfl : later = n - (a :: as).length + cut := by omega
      exact hlater

/-- Each of these lists begins with so many items that are delivered together. -/
def Whole (n : Nat) (ass : List (List α)) (s : Source α) : Prop :=
  ∀ start ∈ starts ass, ∀ cut ∈ cuts s, start < cut → start + n ≤ cut

theorem cuts_pos {s : Source α} {cut : Nat} (h : cut ∈ cuts s) : 0 < cut := by
  cases s with
  | nil => cases h
  | cons chunk chunks =>
    rw [cuts, List.mem_cons, List.mem_map, List.length_cons] at h
    rcases h with rfl | ⟨later, -, rfl⟩
    · exact Nat.succ_pos _
    · exact Nat.add_pos_left (Nat.succ_pos _) _

theorem whole_cons {n : Nat} {as : List α} {ass : List (List α)} {s rest : Source α}
    (hrest : ∀ cut, 0 < cut → (cut ∈ cuts rest ↔ as.length + cut ∈ cuts s)) :
    Whole n (as :: ass) s ↔ (∀ cut ∈ cuts s, n ≤ cut) ∧ Whole n ass rest := by
  rw [Whole, starts, List.forall_mem_cons]
  refine and_congr (forall₂_congr fun cut hcut => ?_) ?_
  · rw [Nat.zero_add]
    exact forall_prop_of_true (cuts_pos hcut)
  · rw [List.forall_mem_map]
    refine forall₂_congr fun start _ => ⟨fun h cut hcut hstart => ?_, fun h cut hcut hstart => ?_⟩
    · have hs := h _ ((hrest cut (cuts_pos hcut)).mp hcut) (by omega)
      omega
    · obtain ⟨later, rfl⟩ := Nat.exists_eq_add_of_le (show as.length ≤ cut by omega)
      have hle := h later ((hrest later (by omega)).mpr hcut) (by omega)
      omega

/-- A read that is not cut short is a full one. -/
theorem read_of_whole {n : Nat} {s : Source α} (hs : n ≤ (content s).length)
    (h : ∀ cut ∈ cuts s, n ≤ cut) : readExact n s = some (read n s) := by
  cases s with
  | nil =>
    obtain rfl := Nat.le_zero.mp hs
    rfl
  | cons chunk chunks =>
    obtain ⟨a, as⟩ := chunk
    exact if_pos (h _ List.mem_cons_self)

/-- A read that is cut short brings something, and not all. -/
theorem read_of_cut {n cut : Nat} {s : Source α} (hcut : cut ∈ cuts s) (h : cut < n) :
    0 < (read n s).1.length ∧ (read n s).1.length < n := by
  cases s with
  | nil => cases hcut
  | cons chunk chunks =>
    obtain ⟨a, as⟩ := chunk
    have hfirst : (a :: as).length ≤ cut := by
      rw [cuts, List.mem_cons, List.mem_map] at hcut
      rcases hcut with rfl | ⟨later, -, rfl⟩
      · exact Nat.le_refl _
      · exact Nat.le_add_right _ _
    rw [read, List.length_take, List.length_cons] at *
    omega

end Chunks
