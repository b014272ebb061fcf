import Mathlib.Algebra.Order.BigOperators.Group.List
import Mathlib.Algebra.Order.Ring.Nat
import OpenOJ.Foundation.Json

/-!
# JSON objects as maps, and what a JSON library is trusted with

Objects are built by inserting members into a map that keeps them sorted by key (`insert`,
`insertAll`); a document whose objects are such maps and whose numbers are those of the library is
`native`, and one that holds no `null` and is nested no deeper than a reader follows is `plain`.

`Covers` relates a document to what can be rebuilt from a part of it: the same scalars, lists item
by item, and objects of which only some members are kept. Two rules say what it is for:

* `covers_insertAll`: what an object built from fields says is what its fields say;
* `length_le_of_covers`: what is rebuilt is never longer than what it was rebuilt from.

A library is two functions (`JsonText`), one that writes documents and one that reads them. What a
development relies on is stated as laws about them, each for the documents for which a real library
keeps it:

* `Writes`: every native document is written;
* `Prints`: and its text is the compact one;
* `ReadsBack`: a plain native document is read back from its text;
* `Compact`: what was read into a plain native document is no shorter than its compact text.

The laws say nothing about texts with fractions, with exponents, or nested deeper than `readDepth`.
`compactText` is a library that satisfies all four, so none of them is empty.
-/

namespace Json

/-! ### Maps -/

/-- `insert` of a map sorted by key: a value inserted under a key replaces the one before. -/
def insert (members : List (String × Value)) (name : String) (v : Value) :
    List (String × Value) :=
  match members with
  | [] => [(name, v)]
  | (k, w) :: rest =>
    if Text.bytes name < Text.bytes k then (name, v) :: (k, w) :: rest
    else if name = k then (name, v) :: rest
    else (k, w) :: insert rest name v

theorem get?_eq_none {members : List (String × Value)} {name : String} :
    get? members name = none ↔ name ∉ members.map (·.1) := by
  induction members with
  | nil => simp [get?_nil]
  | cons m rest ih =>
    rw [get?_cons, List.map_cons, List.mem_cons, not_or, ← ih]
    split_ifs with h
    · simp [h]
    · simp [Ne.symm h]

/-- Where no name occurs twice, every member is found under its name. -/
theorem get?_of_mem {members : List (String × Value)} (h : (members.map (·.1)).Nodup)
    {name : String} {v : Value} (hmem : (name, v) ∈ members) : get? members name = some v := by
  induction members with
  | nil => cases hmem
  | cons m rest ih =>
    rw [List.map_cons, List.nodup_cons] at h
    rcases List.mem_cons.mp hmem with rfl | hrest
    · rw [get?_cons, if_pos rfl]
    · have hne : m.1 ≠ name := fun heq => h.1 (heq ▸ List.mem_map_of_mem hrest)
      rw [get?_cons, if_neg hne, ih h.2 hrest]

/-- The values an accessor for 64-bit integers answers: those of an unsigned or of a signed
integer. -/
def nativeNumber (n : Int) : Bool := decide (-9223372036854775808 ≤ n ∧ n ≤ Value.u64Max)

mutual
/-- Whether the document is one the library can hold: its integers have 64 bits, and its objects
list their members in strictly increasing key order. -/
def native : Value → Bool
  | .number n => nativeNumber n
  | .array items => nativeItems items
  | .object members => nativeMembers members
  | _ => true

def nativeItems : List Value → Bool
  | [] => true
  | v :: vs => native v && nativeItems vs

def nativeMembers : List (String × Value) → Bool
  | [] => true
  | (k, v) :: ms =>
    native v && (ms.head?.all fun m => decide (Text.bytes k < Text.bytes m.1)) && nativeMembers ms
end

@[simp] theorem native_string (s : String) : native (.string s) = true := rfl

@[simp] theorem native_bool (b : Bool) : native (.bool b) = true := rfl

theorem nativeItems_map {α : Type} {f : α → Value} (h : ∀ a, native (f a) = true) (l : List α) :
    nativeItems (l.map f) = true := by
  induction l with
  | nil => rfl
  | cons a l ih => simp [nativeItems, h, ih]

/-- Inserting keeps the members sorted. -/
theorem nativeMembers_insert {members : List (String × Value)} {name : String} {v : Value}
    (hm : nativeMembers members = true) (hv : native v = true) :
    nativeMembers (insert members name v) = true := by
  induction members with
  | nil => simp [insert, nativeMembers, hv]
  | cons m rest ih =>
    obtain ⟨k, w⟩ := m
    simp only [nativeMembers, Bool.and_eq_true] at hm
    obtain ⟨⟨hw, hhead⟩, hrest⟩ := hm
    unfold insert
    split_ifs with hlt hname
    · simp [nativeMembers, hv, hw, hlt, hhead, hrest]
    · subst hname
      simp [nativeMembers, hv, hhead, hrest]
    · have hgt : Text.bytes k < Text.bytes name := by
        refine Std.lt_of_le_of_ne (List.not_lt.mp hlt) fun h => hname ?_
        exact (Text.bytes_injective h).symm
      have hhead' : ((insert rest name v).head?.all
          fun m => decide (Text.bytes k < Text.bytes m.1)) = true := by
        cases rest with
        | nil => simpa [insert] using hgt
        | cons m rest =>
          obtain ⟨l, u⟩ := m
          have hl : Text.bytes k < Text.bytes l := by simpa using hhead
          unfold insert
          split_ifs <;> simp [hgt, hl]
      simp [nativeMembers, hw, hhead', ih hrest]

theorem native_of_mem_items {vs : List Value} (h : nativeItems vs = true) {v : Value}
    (hv : v ∈ vs) : native v = true := by
  induction vs with
  | nil => cases hv
  | cons w vs ih =>
    rw [nativeItems, Bool.and_eq_true] at h
    rcases List.mem_cons.mp hv with rfl | hv
    · exact h.1
    · exact ih h.2 hv

theorem native_of_mem_members {ms : List (String × Value)} (h : nativeMembers ms = true)
    {m : String × Value} (hm : m ∈ ms) : native m.2 = true := by
  induction ms with
  | nil => cases hm
  | cons l ms ih =>
    simp only [nativeMembers, Bool.and_eq_true] at h
    rcases List.mem_cons.mp hm with rfl | hm
    · exact h.1.1
    · exact ih h.2 hm

/-! ### Plain documents -/

mutual
/-- Whether the document nests its arrays and objects at most this deep, and has no `null` in it. -/
def plain : Nat → Value → Bool
  | _, .null => false
  | 0, .array _ => false
  | 0, .object _ => false
  | depth + 1, .array items => plainItems depth items
  | depth + 1, .object members => plainMembers depth members
  | _, .bool _ => true
  | _, .number _ => true
  | _, .string _ => true

def plainItems : Nat → List Value → Bool
  | _, [] => true
  | depth, v :: vs => plain depth v && plainItems depth vs

def plainMembers : Nat → List (String × Value) → Bool
  | _, [] => true
  | depth, (_, v) :: ms => plain depth v && plainMembers depth ms
end

@[simp]
theorem plain_string (depth : Nat) (s : String) : plain depth (.string s) = true := by
  cases depth <;> rfl

@[simp]
theorem plain_bool (depth : Nat) (b : Bool) : plain depth (.bool b) = true := by
  cases depth <;> rfl

@[simp]
theorem plain_number (depth : Nat) (n : Int) : plain depth (.number n) = true := by
  cases depth <;> rfl

theorem plainItems_map {α : Type} {f : α → Value} {depth : Nat}
    (h : ∀ a, plain depth (f a) = true) (l : List α) : plainItems depth (l.map f) = true := by
  induction l with
  | nil => rfl
  | cons a l ih => rw [List.map_cons, plainItems, h, ih, Bool.and_self]

theorem plainMembers_insert {depth : Nat} {members : List (String × Value)} {name : String}
    {v : Value} (hm : plainMembers depth members = true) (hv : plain depth v = true) :
    plainMembers depth (insert members name v) = true := by
  induction members with
  | nil => rw [insert, plainMembers, hv, plainMembers, Bool.and_self]
  | cons m rest ih =>
    obtain ⟨k, w⟩ := m
    rw [plainMembers, Bool.and_eq_true] at hm
    unfold insert
    split_ifs <;> simp [plainMembers, hv, hm, ih hm.2]

/-- The names of a map are sorted, so that none occurs twice. -/
theorem nodup_of_nativeMembers {ms : List (String × Value)} (h : nativeMembers ms = true) :
    (ms.map (·.1)).Nodup := by
  have hsorted : (ms.map fun m => Text.bytes m.1).IsChain (· < ·) := by
    induction ms with
    | nil => exact .nil
    | cons m ms ih =>
      simp only [nativeMembers, Bool.and_eq_true] at h
      have hrest := ih h.2
      cases ms with
      | nil => exact .singleton _
      | cons l ms => exact .cons_cons (by simpa using h.1.2) hrest
  have hpairwise := List.isChain_iff_pairwise.mp hsorted
  rw [List.pairwise_map] at hpairwise
  rw [List.Nodup, List.pairwise_map]
  refine hpairwise.imp fun hlt heq => ?_
  rw [heq] at hlt
  exact Std.lt_irrefl hlt

/-- The value of a signed 64-bit integer. -/
def Value.asI64? : Value → Option Int
  | .number n =>
    if -9223372036854775808 ≤ n ∧ n ≤ 9223372036854775807 then some n else none
  | _ => none

theorem Value.asI64?_eq_some {v : Value} {n : Int} :
    v.asI64? = some n ↔
      v = .number n ∧ -9223372036854775808 ≤ n ∧ n ≤ 9223372036854775807 := by
  cases v <;> simp only [Value.asI64?, reduceCtorEq, false_and]
  split_ifs with h <;> simp only [Option.some.injEq, Value.number.injEq, false_iff]
  · exact ⟨fun hn => ⟨hn, hn ▸ h⟩, fun hn => hn.1⟩
  · rintro ⟨rfl, hn⟩
    exact h hn

theorem Value.asU64?_eq_some {v : Value} {n : Nat} :
    v.asU64? = some n ↔ v = .number n ∧ n ≤ Value.u64Max := by
  constructor
  · cases v <;> simp only [Value.asU64?, reduceCtorEq, false_imp_iff]
    split_ifs with h
    · rintro ⟨⟩
      refine ⟨?_, ?_⟩
      · rw [Int.toNat_of_nonneg h.1]
      · omega
    · rintro ⟨⟩
  · rintro ⟨rfl, hn⟩
    exact Value.asU64?_number hn

theorem Value.asBool?_eq_some {v : Value} {b : Bool} : v.asBool? = some b ↔ v = .bool b := by
  cases v <;> simp [Value.asBool?]

/-! ### Covering -/

/-- Everything the second document says, the first one says too: it has the same strings,
booleans and integers, the same items, and all of the members. -/
inductive Covers : Value → Value → Prop
  | null : Covers .null .null
  | string (s : String) : Covers (.string s) (.string s)
  | bool (b : Bool) : Covers (.bool b) (.bool b)
  | number (n : Int) : Covers (.number n) (.number n)
  | array {vs ws : List Value} (hlength : vs.length = ws.length)
      (h : ∀ i (hv : i < vs.length) (hw : i < ws.length), Covers vs[i] ws[i]) :
      Covers (.array vs) (.array ws)
  | object {vs ws : List (String × Value)} (hnames : (ws.map (·.1)).Nodup)
      (hmem : ∀ k w, (k, w) ∈ ws → ∃ v, get? vs k = some v)
      (h : ∀ k v w, (k, w) ∈ ws → get? vs k = some v → Covers v w) :
      Covers (.object vs) (.object ws)

/-- The members say this under a name. -/
def Has (members : List (String × Value)) (name : String) (w : Value) : Prop :=
  ∃ v, get? members name = some v ∧ Covers v w

theorem covers_string {v : Value} {s : String} : Covers v (.string s) ↔ v = .string s := by
  constructor
  · rintro ⟨⟩
    rfl
  · rintro rfl
    exact .string s

theorem covers_bool {v : Value} {b : Bool} : Covers v (.bool b) ↔ v = .bool b := by
  constructor
  · rintro ⟨⟩
    rfl
  · rintro rfl
    exact .bool b

theorem covers_number {v : Value} {n : Int} : Covers v (.number n) ↔ v = .number n := by
  constructor
  · rintro ⟨⟩
    rfl
  · rintro rfl
    exact .number n

theorem covers_array {v : Value} {ws : List Value} :
    Covers v (.array ws) ↔ ∃ vs, v = .array vs ∧ List.Forall₂ Covers vs ws := by
  constructor
  · rintro (_ | _ | _ | _ | ⟨hlength, h⟩ | _)
    exact ⟨_, rfl, List.forall₂_iff_get.mpr ⟨hlength, h⟩⟩
  · rintro ⟨vs, rfl, h⟩
    obtain ⟨hlength, h⟩ := List.forall₂_iff_get.mp h
    exact .array hlength h

theorem covers_object {v : Value} {ws : List (String × Value)} :
    Covers v (.object ws) ↔ ∃ vs, v = .object vs ∧ (ws.map (·.1)).Nodup ∧
      ∀ m ∈ ws, Has vs m.1 m.2 := by
  constructor
  · rintro (_ | _ | _ | _ | _ | ⟨hnames, hmem, h⟩)
    refine ⟨_, rfl, hnames, fun m hm => ?_⟩
    obtain ⟨v, hv⟩ := hmem _ _ hm
    exact ⟨v, hv, h _ _ _ hm hv⟩
  · rintro ⟨vs, rfl, hnames, h⟩
    refine .object hnames (fun k w hw => ?_) fun k v w hw hv => ?_
    · obtain ⟨v, hv, -⟩ := h _ hw
      exact ⟨v, hv⟩
    · obtain ⟨u, hu, hcovers⟩ := h _ hw
      obtain rfl : u = v := Option.some.inj (hu.symm.trans hv)
      exact hcovers

/-- A name that is not there is inserted as one more member. -/
theorem insert_perm {members : List (String × Value)} {name : String}
    (h : get? members name = none) (v : Value) :
    (insert members name v).Perm ((name, v) :: members) := by
  induction members with
  | nil => rfl
  | cons m rest ih =>
    obtain ⟨k, w⟩ := m
    rw [get?_cons] at h
    have hk : k ≠ name := fun heq => by simp [heq] at h
    rw [if_neg hk] at h
    unfold insert
    split_ifs with hlt hname
    · rfl
    · exact absurd hname.symm hk
    · exact ((ih h).cons _).trans (.swap _ _ _)

/-- Members with names of their own, inserted one after the other. -/
def insertAll (members fields : List (String × Value)) : List (String × Value) :=
  fields.foldl (fun members field => insert members field.1 field.2) members

theorem insertAll_perm {members fields : List (String × Value)}
    (h : ((fields ++ members).map (·.1)).Nodup) :
    (insertAll members fields).Perm (fields ++ members) := by
  induction fields generalizing members with
  | nil => exact .refl _
  | cons field fields ih =>
    rw [List.cons_append, List.map_cons, List.nodup_cons] at h
    have hnone : get? members field.1 = none := get?_eq_none.mpr fun hmem =>
      h.1 (by simpa using .inr (by simpa using hmem))
    have hperm : (insert members field.1 field.2).Perm (field :: members) := insert_perm hnone _
    -- the other fields find the same names as before, and this one
    have hfront : (fields ++ insert members field.1 field.2).Perm (field :: (fields ++ members)) :=
      (hperm.append_left fields).trans List.perm_middle
    have hnodup : ((fields ++ insert members field.1 field.2).map (·.1)).Nodup := by
      rw [(hfront.map _).nodup_iff, List.map_cons, List.nodup_cons]
      exact h
    exact (ih hnodup).trans hfront

theorem nativeMembers_insertAll {members fields : List (String × Value)}
    (hm : nativeMembers members = true) (h : ∀ field ∈ fields, native field.2 = true) :
    nativeMembers (insertAll members fields) = true := by
  induction fields generalizing members with
  | nil => exact hm
  | cons field fields ih =>
    have hfirst := @nativeMembers_insert _ field.1 _ hm (h field List.mem_cons_self)
    exact ih hfirst fun f hf => h f (List.mem_cons_of_mem _ hf)

theorem plainMembers_insertAll {depth : Nat} {members fields : List (String × Value)}
    (hm : plainMembers depth members = true) (h : ∀ field ∈ fields, plain depth field.2 = true) :
    plainMembers depth (insertAll members fields) = true := by
  induction fields generalizing members with
  | nil => exact hm
  | cons field fields ih =>
    have hfirst := @plainMembers_insert _ _ field.1 _ hm (h field List.mem_cons_self)
    exact ih hfirst fun f hf => h f (List.mem_cons_of_mem _ hf)

/-- **What an object built from fields says** is what its fields say. -/
theorem covers_insertAll {v : Value} {fields : List (String × Value)}
    (h : (fields.map (·.1)).Nodup) :
    Covers v (.object (insertAll [] fields)) ↔
      ∃ vs, v = .object vs ∧ ∀ field ∈ fields, Has vs field.1 field.2 := by
  have hperm : (insertAll [] fields).Perm fields := by
    simpa using @insertAll_perm [] fields (by simpa using h)
  simp only [covers_object, (hperm.map _).nodup_iff, hperm.mem_iff, h, true_and]

/-- A document says what it says itself. -/
theorem covers_self (v : Value) (h : native v = true) : Covers v v := by
  match v with
  | .null => exact .null
  | .bool b => exact .bool b
  | .number n => exact .number n
  | .string s => exact .string s
  | .array vs =>
    refine covers_array.mpr ⟨vs, rfl, List.forall₂_same.mpr fun v hv => ?_⟩
    exact covers_self v (native_of_mem_items h hv)
  | .object ms =>
    have hnames := nodup_of_nativeMembers h
    refine covers_object.mpr ⟨ms, rfl, hnames, fun m hm => ?_⟩
    exact ⟨m.2, get?_of_mem hnames hm, covers_self m.2 (native_of_mem_members h hm)⟩
termination_by sizeOf v
decreasing_by
  · have := List.sizeOf_lt_of_mem hv
    simp only [Value.array.sizeOf_spec]
    omega
  · have := List.sizeOf_lt_of_mem hm
    obtain ⟨k, w⟩ := m
    simp only [Value.object.sizeOf_spec, Prod.mk.sizeOf_spec] at *
    omega

/-- Members that are among others, each at most as long, are together at most as long. -/
private theorem sum_memberLength_le {vs ws : List (String × Value)}
    (hnames : (ws.map (·.1)).Nodup)
    (h : ∀ k w, (k, w) ∈ ws → ∃ v, (k, v) ∈ vs ∧ (toBytes w).length ≤ (toBytes v).length) :
    (ws.map memberLength).sum + ws.length ≤ (vs.map memberLength).sum + vs.length := by
  induction ws generalizing vs with
  | nil => simp
  | cons m ws ih =>
    obtain ⟨k, w⟩ := m
    rw [List.map_cons, List.nodup_cons] at hnames
    obtain ⟨v, hmem, hle⟩ := h k w List.mem_cons_self
    obtain ⟨before, after, rfl⟩ := List.append_of_mem hmem
    -- the other members are among what is left, because their keys are others
    have hrest := @ih (before ++ after) hnames.2 fun l u hu => by
      obtain ⟨v', hv', hle'⟩ := h l u (List.mem_cons_of_mem _ hu)
      have hl : (l, v') ≠ (k, v) := fun heq =>
        hnames.1 (List.mem_map.mpr ⟨(l, u), hu, (Prod.mk.inj heq).1⟩)
      refine ⟨v', ?_, hle'⟩
      simp only [List.mem_append, List.mem_cons] at hv' ⊢
      tauto
    simp only [List.map_append, List.map_cons, List.sum_append, List.sum_cons, List.length_append,
      List.length_cons, memberLength] at hrest ⊢
    omega

/-- **Covered documents are no longer.** -/
theorem length_le_of_covers {v w : Value} (h : Covers v w) :
    (toBytes w).length ≤ (toBytes v).length := by
  induction h with
  | null => exact Nat.le_refl _
  | string s => exact Nat.le_refl _
  | bool b => exact Nat.le_refl _
  | number n => exact Nat.le_refl _
  | @array vs ws hlength _ ih =>
    have hle : List.Forall₂ (fun w v => (toBytes w).length ≤ (toBytes v).length) ws vs :=
      List.forall₂_iff_get.mpr ⟨hlength.symm, fun i hw hv => ih i hv hw⟩
    rw [length_toBytes_array, length_toBytes_array, hlength]
    have hsum := List.Forall₂.sum_le_sum ((List.forall₂_map_left_iff.mpr
      (List.forall₂_map_right_iff.mpr hle)))
    omega
  | @object vs ws hnames hmem _ ih =>
    have hsum := @sum_memberLength_le vs ws hnames fun k w hw => by
      obtain ⟨v, hv⟩ := hmem k w hw
      exact ⟨v, mem_of_get? hv, ih k v w hw hv⟩
    rw [length_toBytes_object, length_toBytes_object]
    rcases ws with _ | ⟨m, ws⟩
    · simp
    · simp only [List.length_cons] at hsum ⊢
      omega

/-! ### Libraries -/

/-- The two functions of a JSON library: `to_vec` and `from_slice`. A number that is no 64-bit
integer reads as `null`, since no accessor for integers answers for either. -/
class JsonText where
  toVec : Value → Option (List UInt8)
  fromSlice : List UInt8 → Option Value

/-- How deep a text may nest arrays and objects to be read: at 128 levels the library gives up. -/
def readDepth : Nat := 127

section Laws

variable [JsonText]

/-- Every document is written. -/
def Writes : Prop := ∀ v, native v = true → ∃ text, JsonText.toVec v = some text

/-- Documents are written as compact text. -/
def Prints : Prop := ∀ v, native v = true → JsonText.toVec v = some (toBytes v)

/-- What was written reads back as it, unless it is nested too deep. -/
def ReadsBack : Prop :=
  ∀ v text, native v = true → plain readDepth v = true → JsonText.toVec v = some text →
    JsonText.fromSlice text = some v

/-- Texts are compact: a document without `null`, which any number may have been read as, takes no
more bytes than a text from a part of which it is rebuilt. -/
def Compact : Prop :=
  ∀ body v w text, native w = true → plain readDepth w = true → JsonText.fromSlice body = some v →
    Covers v w → JsonText.toVec w = some text → text.length ≤ body.length

end Laws

/-- The library that reads compact texts only. -/
@[reducible]
def compactText : JsonText where
  toVec v := some (toBytes v)
  fromSlice body := (ofBytes body).filter fun v => toBytes v = body

theorem compactText_writes : @Writes compactText := fun v _ => ⟨toBytes v, rfl⟩

theorem compactText_prints : @Prints compactText := fun _ _ => rfl

theorem compactText_readsBack : @ReadsBack compactText := by
  rintro v _ - - ⟨⟩
  exact Option.filter_eq_some_iff.mpr ⟨ofBytes_toBytes v, decide_eq_true rfl⟩

theorem compactText_compact : @Compact compactText := by
  rintro body v w _ - - hread hcovers ⟨⟩
  obtain ⟨-, hbody⟩ := Option.filter_eq_some_iff.mp hread
  have hbody : toBytes v = body := of_decide_eq_true hbody
  exact hbody ▸ length_le_of_covers hcovers

end Json
