import Mathlib.Data.List.Basic
import Mathlib.Tactic.Common

/-!
# Regular expressions over bytes

The anchored patterns of a schema or of a `CHECK` constraint, as syntax: a pattern is read off its
source text construct by construct (`Regex`, with `plus`, `exactly`, `upTo` and `literal` for what
is written `p+`, `p{n}`, `p{0,n}` and as itself). `Regex.Matches` is what a pattern means, and
`Regex.accepts` decides it by derivatives; `Regex.accepts_iff` says they agree, so that a concrete
text can be tested by evaluation and a pattern be reasoned about by its meaning.

The lemmas after it characterise the shapes that patterns of identifiers take:

* one byte and what follows it (`matches_byte_seq`), a literal in front (`matches_literal_seq`);
* runs of one class of bytes, unbounded (`matches_star_byte`), of a length (`matches_exactly_byte`)
  or up to one (`matches_upTo_byte`);
* segments of one class with separators of another between them (`matches_segments`): when no byte
  is both, a scan from left to right decides `p+(s p+)*`, without going back (`scanSegments`).

`scanSegments_of_fewer` compares two such scans: what is scanned with fewer separators and more
bytes in a segment is scanned with the others.
-/

/-- A regular expression whose letters are byte classes. -/
inductive Regex where
  /-- The empty word. -/
  | empty
  /-- One byte of a class, `[…]`. -/
  | byte (p : UInt8 → Bool)
  | seq (r s : Regex)
  | alt (r s : Regex)
  /-- `r*`. -/
  | star (r : Regex)

namespace Regex

/-- `r+`. -/
def plus (r : Regex) : Regex := r.seq r.star

/-- `r{n}`. -/
def exactly : Nat → Regex → Regex
  | 0, _ => empty
  | n + 1, r => r.seq (exactly n r)

/-- `r{0,n}`. -/
def upTo : Nat → Regex → Regex
  | 0, _ => empty
  | n + 1, r => alt empty (r.seq (upTo n r))

/-- A literal text, byte by byte. -/
def literal : List UInt8 → Regex
  | [] => empty
  | b :: bs => (byte (· == b)).seq (literal bs)

/-- The words a pattern matches as a whole. -/
def Matches : Regex → List UInt8 → Prop
  | empty, w => w = []
  | byte p, w => ∃ b, p b = true ∧ w = [b]
  | seq r s, w => ∃ u v, w = u ++ v ∧ r.Matches u ∧ s.Matches v
  | alt r s, w => r.Matches w ∨ s.Matches w
  | star r, w => ∃ us : List (List UInt8), w = us.flatten ∧ ∀ u ∈ us, r.Matches u

/-! ### Deciding a match -/

/-- Whether a pattern matches the empty word. -/
def nullable : Regex → Bool
  | empty => true
  | byte _ => false
  | seq r s => r.nullable && s.nullable
  | alt r s => r.nullable || s.nullable
  | star _ => true

/-- What is left to match after the byte `b`. -/
def derivative (b : UInt8) : Regex → Regex
  | empty => byte fun _ => false
  | byte p => if p b then empty else byte fun _ => false
  | seq r s =>
    if r.nullable then alt ((r.derivative b).seq s) (s.derivative b)
    else (r.derivative b).seq s
  | alt r s => alt (r.derivative b) (s.derivative b)
  | star r => (r.derivative b).seq r.star

/-- Decides a match one byte at a time. -/
def accepts (r : Regex) : List UInt8 → Bool
  | [] => r.nullable
  | b :: w => (r.derivative b).accepts w

private theorem nullable_iff (r : Regex) : r.nullable = true ↔ r.Matches [] := by
  induction r with
  | empty => simp [nullable, Matches]
  | byte p => simp [nullable, Matches]
  | seq r s ihr ihs => simp [nullable, Matches, ihr, ihs]
  | alt r s ihr ihs => simp [nullable, Matches, ihr, ihs]
  | star r _ => simpa [nullable, Matches] using ⟨[], by simp⟩

private theorem matches_star_cons {r : Regex} {b : UInt8} {w : List UInt8} :
    r.star.Matches (b :: w) ↔ ∃ u v, w = u ++ v ∧ r.Matches (b :: u) ∧ r.star.Matches v := by
  constructor
  · rintro ⟨us, hw, hus⟩
    induction us with
    | nil => simp at hw
    | cons u us ih =>
      cases u with
      | nil => exact ih (by simpa using hw) fun u hu => hus u (List.mem_cons_of_mem _ hu)
      | cons c u =>
        obtain ⟨rfl, rfl⟩ : b = c ∧ w = u ++ us.flatten := by simpa using hw
        exact ⟨u, us.flatten, rfl, hus _ List.mem_cons_self,
          us, rfl, fun u hu => hus u (List.mem_cons_of_mem _ hu)⟩
  · rintro ⟨u, v, rfl, hu, us, rfl, hus⟩
    refine ⟨(b :: u) :: us, by simp, ?_⟩
    intro x hx
    rcases List.mem_cons.mp hx with rfl | hx
    · exact hu
    · exact hus x hx

private theorem matches_seq_cons {r s : Regex} {b : UInt8} {w : List UInt8} :
    (r.seq s).Matches (b :: w) ↔
      (r.Matches [] ∧ s.Matches (b :: w)) ∨
        ∃ u v, w = u ++ v ∧ r.Matches (b :: u) ∧ s.Matches v := by
  constructor
  · rintro ⟨u, v, hw, hu, hv⟩
    cases u with
    | nil => exact .inl ⟨hu, by simpa using hw ▸ hv⟩
    | cons c u =>
      obtain ⟨rfl, rfl⟩ : b = c ∧ w = u ++ v := by simpa using hw
      exact .inr ⟨u, v, rfl, hu, hv⟩
  · rintro (⟨hr, hs⟩ | ⟨u, v, rfl, hu, hv⟩)
    · exact ⟨[], b :: w, rfl, hr, hs⟩
    · exact ⟨b :: u, v, rfl, hu, hv⟩

private theorem matches_derivative (r : Regex) (b : UInt8) (w : List UInt8) :
    (r.derivative b).Matches w ↔ r.Matches (b :: w) := by
  induction r generalizing w with
  | empty => simp [derivative, Matches]
  | byte p =>
    by_cases hp : p b = true
    · simp [derivative, Matches, hp]
    · simp [derivative, Matches, hp]
  | seq r s ihr ihs =>
    have hseq : ((r.derivative b).seq s).Matches w ↔
        ∃ u v, w = u ++ v ∧ r.Matches (b :: u) ∧ s.Matches v := by
      simp only [Matches, ihr]
    rw [matches_seq_cons, derivative, ← nullable_iff]
    split
    · rename_i hn
      rw [Matches, hseq, ihs]
      simp only [hn, true_and]
      exact or_comm
    · rename_i hn
      simp [hseq, hn]
  | alt r s ihr ihs => simp [derivative, Matches, ihr, ihs]
  | star r ih =>
    rw [matches_star_cons, derivative]
    simp only [Matches, ih]

/-- The derivative matcher decides `Regex.Matches`. -/
theorem accepts_iff (r : Regex) (w : List UInt8) : r.accepts w = true ↔ r.Matches w := by
  induction w generalizing r with
  | nil => exact nullable_iff r
  | cons b w ih => rw [accepts, ih, matches_derivative]

instance (r : Regex) (w : List UInt8) : Decidable (r.Matches w) :=
  decidable_of_iff _ (accepts_iff r w)

/-! ### Runs of one class -/

@[simp]
theorem matches_empty {w : List UInt8} : empty.Matches w ↔ w = [] := Iff.rfl

/-- A class followed by a pattern reads the first byte. -/
theorem matches_byte_seq {p : UInt8 → Bool} {r : Regex} {w : List UInt8} :
    ((byte p).seq r).Matches w ↔ ∃ b v, w = b :: v ∧ p b = true ∧ r.Matches v := by
  constructor
  · rintro ⟨u, v, rfl, ⟨b, hb, rfl⟩, hv⟩
    exact ⟨b, v, rfl, hb, hv⟩
  · rintro ⟨b, v, rfl, hb, hv⟩
    exact ⟨[b], v, rfl, ⟨b, hb, rfl⟩, hv⟩

theorem matches_star_byte {p : UInt8 → Bool} {w : List UInt8} :
    (byte p).star.Matches w ↔ ∀ b ∈ w, p b = true := by
  induction w with
  | nil => simpa [Matches] using ⟨[], by simp⟩
  | cons b w ih =>
    rw [matches_star_cons]
    constructor
    · rintro ⟨u, v, rfl, ⟨c, hc, hu⟩, hv⟩
      obtain ⟨rfl, rfl⟩ : b = c ∧ u = [] := by simpa using hu
      simpa [hc] using ih.mp hv
    · intro h
      exact ⟨[], w, rfl, ⟨b, h b List.mem_cons_self, rfl⟩,
        ih.mpr fun c hc => h c (List.mem_cons_of_mem _ hc)⟩

theorem matches_exactly_byte {p : UInt8 → Bool} {n : Nat} {w : List UInt8} :
    (exactly n (byte p)).Matches w ↔ w.length = n ∧ ∀ b ∈ w, p b = true := by
  induction n generalizing w with
  | zero => cases w <;> simp [exactly]
  | succ n ih =>
    rw [exactly, matches_byte_seq]
    cases w with
    | nil => simp
    | cons b w => simp [ih]; tauto

theorem matches_upTo_byte {p : UInt8 → Bool} {n : Nat} {w : List UInt8} :
    (upTo n (byte p)).Matches w ↔ w.length ≤ n ∧ ∀ b ∈ w, p b = true := by
  induction n generalizing w with
  | zero => cases w <;> simp [upTo]
  | succ n ih =>
    rw [upTo, Matches, matches_byte_seq]
    cases w with
    | nil => simp
    | cons b w => simp [ih]; tauto

theorem matches_literal {l w : List UInt8} : (literal l).Matches w ↔ w = l := by
  induction l generalizing w with
  | nil => simp [literal]
  | cons b l ih => simp [literal, matches_byte_seq, ih]

theorem matches_literal_seq {l w : List UInt8} {r : Regex} :
    ((literal l).seq r).Matches w ↔ ∃ v, w = l ++ v ∧ r.Matches v := by
  simp [Matches, matches_literal]

/-! ### Separated segments -/

/-- Scans `p+(s p+)*`: `start` says that a segment has to begin here. -/
def scanSegments (p s : UInt8 → Bool) : Bool → List UInt8 → Bool
  | start, [] => !start
  | start, b :: w =>
    if s b then !start && scanSegments p s true w
    else p b && scanSegments p s false w

/-- What is scanned consists of the two classes. -/
theorem mem_of_scanSegments {p s : UInt8 → Bool} {start : Bool} {w : List UInt8}
    (h : scanSegments p s start w = true) : ∀ b ∈ w, (p b || s b) = true := by
  induction w generalizing start with
  | nil => simp
  | cons b w ih =>
    rw [scanSegments] at h
    rw [List.forall_mem_cons]
    split_ifs at h with hs
    · rw [Bool.and_eq_true] at h
      exact ⟨by rw [hs, Bool.or_true], ih h.2⟩
    · rw [Bool.and_eq_true] at h
      exact ⟨by rw [h.1, Bool.true_or], ih h.2⟩

/-- `p+(s p+)*`, what remains of it inside a segment. -/
private def tail (p s : UInt8 → Bool) : Regex :=
  (byte p).star.seq ((byte s).seq (plus (byte p))).star

private theorem matches_segments_iff {p s : UInt8 → Bool} (hps : ∀ b, s b = true → p b = false)
    (w : List UInt8) :
    (scanSegments p s true w = true ↔
        ((plus (byte p)).seq ((byte s).seq (plus (byte p))).star).Matches w) ∧
      (scanSegments p s false w = true ↔ (tail p s).Matches w) := by
  -- after a separator a segment has to begin
  have hopen : ∀ w, ((plus (byte p)).seq ((byte s).seq (plus (byte p))).star).Matches w ↔
      ∃ b v, w = b :: v ∧ p b = true ∧ (tail p s).Matches v := by
    intro w
    constructor
    · rintro ⟨_, v, rfl, ⟨_, x, rfl, ⟨b, hb, rfl⟩, hx⟩, hv⟩
      exact ⟨b, x ++ v, rfl, hb, x, v, rfl, hx, hv⟩
    · rintro ⟨b, _, rfl, hb, x, v, rfl, hx, hv⟩
      exact ⟨b :: x, v, rfl, ⟨[b], x, rfl, ⟨b, hb, rfl⟩, hx⟩, hv⟩
  -- within a segment it goes on, or a separator ends it
  have htail : ∀ b w, (tail p s).Matches (b :: w) ↔
      (p b = true ∧ (tail p s).Matches w) ∨
        (s b = true ∧
          ((plus (byte p)).seq ((byte s).seq (plus (byte p))).star).Matches w) := by
    intro b w
    rw [tail, matches_seq_cons]
    constructor
    · rintro (⟨-, h⟩ | ⟨u, v, rfl, h, hv⟩)
      · obtain ⟨u, v, rfl, h, hv⟩ := matches_star_cons.mp h
        obtain ⟨c, x, hc, hs, hx⟩ := matches_byte_seq.mp h
        obtain ⟨rfl, rfl⟩ : b = c ∧ u = x := by simpa using hc
        exact .inr ⟨hs, u, v, rfl, hx, hv⟩
      · obtain ⟨x, y, rfl, ⟨c, hc, hx⟩, hy⟩ := matches_star_cons.mp h
        obtain ⟨rfl, rfl⟩ : b = c ∧ x = [] := by simpa using hx
        exact .inl ⟨hc, y, v, rfl, hy, hv⟩
    · rintro (⟨hp, x, v, rfl, hx, hv⟩ | ⟨hs, x, v, rfl, hx, hv⟩)
      · exact .inr ⟨x, v, rfl, matches_star_cons.mpr ⟨[], x, rfl, ⟨b, hp, rfl⟩, hx⟩, hv⟩
      · exact .inl ⟨⟨[], by simp⟩,
          matches_star_cons.mpr ⟨x, v, rfl, matches_byte_seq.mpr ⟨b, x, rfl, hs, hx⟩, hv⟩⟩
  -- the flag of the scan says which of the two expressions is left to match
  induction w with
  | nil =>
    refine ⟨?_, ?_⟩
    · rw [hopen]
      simp [scanSegments]
    · simpa [scanSegments] using ⟨[], [], rfl, ⟨[], by simp⟩, [], by simp⟩
  | cons b w ih =>
    rw [hopen, htail]
    by_cases hs : s b = true
    · simp [scanSegments, hs, hps b hs, ih.1]
    · by_cases hp : p b = true
      · simp [scanSegments, hs, hp, ih.2]
      · simp [scanSegments, hs, hp]

/-- **Separated segments.** When no byte is both in a segment and a separator, a
left-to-right scan decides `p+(s p+)*`. -/
theorem matches_segments {p s : UInt8 → Bool} (hps : ∀ b, s b = true → p b = false)
    {w : List UInt8} :
    ((plus (byte p)).seq ((byte s).seq (plus (byte p))).star).Matches w ↔
      scanSegments p s true w = true :=
  (matches_segments_iff hps w).1.symm

/-- Inside a segment: what remains of `p+(s p+)*` after a first `p`. -/
theorem matches_segments_tail {p s : UInt8 → Bool} (hps : ∀ b, s b = true → p b = false)
    {w : List UInt8} :
    ((byte p).star.seq ((byte s).seq (plus (byte p))).star).Matches w ↔
      scanSegments p s false w = true :=
  (matches_segments_iff hps w).2.symm

/-- Scanning with fewer separators accepts what holds no other one. -/
theorem scanSegments_of_fewer {p s s' : UInt8 → Bool} (hps : ∀ b, s b = true → p b = false)
    (hs' : ∀ b, s' b = true → s b = true) (start : Bool) (w : List UInt8) :
    scanSegments p s' start w = true ↔
      scanSegments p s start w = true ∧ ∀ b ∈ w, s b = true → s' b = true := by
  induction w generalizing start with
  | nil => simp [scanSegments]
  | cons b w ih =>
    by_cases hb' : s' b = true
    · simp [scanSegments, hb', hs' b hb', ih, and_assoc]
    · by_cases hb : s b = true
      · simp [scanSegments, hb, hb', hps b hb]
      · simp [scanSegments, hb, hb', ih, and_assoc]

end Regex
