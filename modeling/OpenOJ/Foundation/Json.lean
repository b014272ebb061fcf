import OpenOJ.Foundation.Text
import Mathlib.Algebra.GroupWithZero.Nat

/-!
# JSON documents

A document is a `Json.Value`. Numbers are integers: the documents of interest carry no others. An
object lists its members in key order, which is how a sorted map holds them (`ordered`), and the
views `asObject?`, `asArray?`, `asStr?`, `asBool?` and `asU64?` are those of a library.

`print` is the compact text of a document (no blanks, the short escapes, `\u00xx` for the other
control characters) and `toBytes` its UTF-8. `read` reads compact text back, and `ofBytes` bytes:

* `read_print`: reading the printed text of a document gives the document; it is proved along the
  mutual recursion of the printer, with one lemma for each of its functions, and `ofBytes_toBytes`
  is the same fact of bytes;
* a reader knows where a number ends because no digit follows it in a text (`NoDigit`).

The second half measures texts. `length_toBytes_le` bounds the text of a document by the bytes of
its strings, at most six for each byte and quotes around them (`sizeBound`). The equations
`length_toBytes_array`, `length_toBytes_object`, `length_toBytes_string` and `length_toBytes_number`
say exactly how long each kind of text is, from the `stringSize` of its strings and the digits of
its numbers.
-/

namespace Json

/-- A JSON document. -/
inductive Value where
  | null
  | bool (b : Bool)
  | number (n : Int)
  | string (s : String)
  | array (items : List Value)
  | object (members : List (String × Value))

/-! ### Members and typed views -/

namespace Value

/-- `as_object`. -/
def asObject? : Value → Option (List (String × Value))
  | object members => some members
  | _ => none

/-- `as_array`. -/
def asArray? : Value → Option (List Value)
  | array items => some items
  | _ => none

/-- `as_str`. -/
def asStr? : Value → Option String
  | string s => some s
  | _ => none

/-- `as_bool`. -/
def asBool? : Value → Option Bool
  | bool b => some b
  | _ => none

/-- `u64::MAX`. -/
def u64Max : Nat := 18446744073709551615

/-- `as_u64`. -/
def asU64? : Value → Option Nat
  | number n => if 0 ≤ n ∧ n ≤ u64Max then some n.toNat else none
  | _ => none

@[simp] theorem asObject?_object (members : List (String × Value)) :
    (object members).asObject? = some members := rfl

@[simp] theorem asArray?_array (items : List Value) : (array items).asArray? = some items := rfl

@[simp] theorem asStr?_string (s : String) : (string s).asStr? = some s := rfl

@[simp] theorem asBool?_bool (b : Bool) : (bool b).asBool? = some b := rfl

theorem asObject?_eq_some {v : Value} {members : List (String × Value)} :
    v.asObject? = some members ↔ v = object members := by
  cases v <;> simp [asObject?]

theorem asArray?_eq_some {v : Value} {items : List Value} :
    v.asArray? = some items ↔ v = array items := by
  cases v <;> simp [asArray?]

theorem asStr?_eq_some {v : Value} {s : String} : v.asStr? = some s ↔ v = string s := by
  cases v <;> simp [asStr?]

theorem asU64?_number {n : Nat} (h : n ≤ u64Max) : (number n).asU64? = some n := by
  simp only [asU64?]
  rw [if_pos ⟨by omega, by omega⟩, Int.toNat_natCast]

end Value

/-- The value of an object's member. -/
def get? (members : List (String × Value)) (name : String) : Option Value :=
  (members.find? fun m => m.1 == name).map Prod.snd

theorem get?_nil (name : String) : get? [] name = none := rfl

theorem get?_cons (k : String) (v : Value) (ms : List (String × Value)) (name : String) :
    get? ((k, v) :: ms) name = if k = name then some v else get? ms name := by
  by_cases h : k = name
  · simp [get?, h]
  · have hb : (k == name) = false := by simpa using h
    simp [get?, h, hb]

theorem mem_of_get? {ms : List (String × Value)} {name : String} {v : Value}
    (h : get? ms name = some v) : (name, v) ∈ ms := by
  obtain ⟨m, hm, rfl⟩ := Option.map_eq_some_iff.mp h
  have hname : m.1 = name := by simpa using List.find?_some hm
  exact hname ▸ List.mem_of_find?_eq_some hm

mutual
/-- Whether every object lists its members in strictly increasing key order. -/
def ordered : Value → Bool
  | .array items => orderedItems items
  | .object members => orderedMembers members
  | _ => true

def orderedItems : List Value → Bool
  | [] => true
  | v :: vs => ordered v && orderedItems vs

def orderedMembers : List (String × Value) → Bool
  | [] => true
  | (k, v) :: ms =>
    ordered v && (ms.head?.all fun m => decide (Text.bytes k < Text.bytes m.1)) &&
      orderedMembers ms
end

/-! ### Printing -/

/-- One hexadecimal digit, in lower case. -/
def hexDigit (n : Nat) : Char := Nat.digitChar n

/-- A character inside a string literal. -/
def escape (c : Char) : List Char :=
  if c = '"' then ['\\', '"']
  else if c = '\\' then ['\\', '\\']
  else if c = '\x08' then ['\\', 'b']
  else if c = '\x0c' then ['\\', 'f']
  else if c = '\n' then ['\\', 'n']
  else if c = '\r' then ['\\', 'r']
  else if c = '\t' then ['\\', 't']
  else if c.toNat < 32 then ['\\', 'u', '0', '0', hexDigit (c.toNat / 16), hexDigit (c.toNat % 16)]
  else [c]

/-- A string literal. -/
def printString (s : String) : List Char := '"' :: s.toList.flatMap escape ++ ['"']

/-- An integer literal. -/
def printNumber : Int → List Char
  | .ofNat n => Nat.toDigits 10 n
  | .negSucc n => '-' :: Nat.toDigits 10 (n + 1)

mutual
/-- The compact text of a document. -/
def print : Value → List Char
  | .null => ['n', 'u', 'l', 'l']
  | .bool true => ['t', 'r', 'u', 'e']
  | .bool false => ['f', 'a', 'l', 's', 'e']
  | .number n => printNumber n
  | .string s => printString s
  | .array items => '[' :: printItems items
  | .object members => '{' :: printMembers members

/-- The items of an array and its closing bracket. -/
def printItems : List Value → List Char
  | [] => [']']
  | v :: vs => print v ++ printMoreItems vs

/-- The items after the first. -/
def printMoreItems : List Value → List Char
  | [] => [']']
  | v :: vs => ',' :: (print v ++ printMoreItems vs)

/-- The members of an object and its closing brace. -/
def printMembers : List (String × Value) → List Char
  | [] => ['}']
  | (k, v) :: ms => printString k ++ ':' :: (print v ++ printMoreMembers ms)

/-- The members after the first. -/
def printMoreMembers : List (String × Value) → List Char
  | [] => ['}']
  | (k, v) :: ms => ',' :: (printString k ++ ':' :: (print v ++ printMoreMembers ms))
end

/-- The compact text of a document, as bytes. -/
def toBytes (v : Value) : List UInt8 := Text.utf8 (print v)

/-! ### Reading -/

/-- The value of a hexadecimal digit in lower case. -/
def hexValue (c : Char) : Option Nat :=
  if '0' ≤ c ∧ c ≤ '9' then some (c.toNat - 48)
  else if 'a' ≤ c ∧ c ≤ 'f' then some (c.toNat - 87)
  else none

/-- Reads the rest of a string literal, up to its closing quote. -/
def readChars : List Char → Option (List Char × List Char)
  | '"' :: cs => some ([], cs)
  | '\\' :: '"' :: cs => (readChars cs).map fun (s, r) => ('"' :: s, r)
  | '\\' :: '\\' :: cs => (readChars cs).map fun (s, r) => ('\\' :: s, r)
  | '\\' :: 'b' :: cs => (readChars cs).map fun (s, r) => ('\x08' :: s, r)
  | '\\' :: 'f' :: cs => (readChars cs).map fun (s, r) => ('\x0c' :: s, r)
  | '\\' :: 'n' :: cs => (readChars cs).map fun (s, r) => ('\n' :: s, r)
  | '\\' :: 'r' :: cs => (readChars cs).map fun (s, r) => ('\r' :: s, r)
  | '\\' :: 't' :: cs => (readChars cs).map fun (s, r) => ('\t' :: s, r)
  | '\\' :: 'u' :: '0' :: '0' :: h :: l :: cs =>
    match hexValue h, hexValue l with
    | some h, some l => (readChars cs).map fun (s, r) => (Char.ofNat (16 * h + l) :: s, r)
    | _, _ => none
  | '\\' :: _ => none
  | c :: cs => if c.toNat < 32 then none else (readChars cs).map fun (s, r) => (c :: s, r)
  | [] => none

/-- Reads a string literal. -/
def readString : List Char → Option (String × List Char)
  | '"' :: cs => (readChars cs).map fun (s, r) => (String.ofList s, r)
  | _ => none

/-- Reads a run of decimal digits. -/
def readNat (cs : List Char) : Option (Nat × List Char) :=
  let digits := cs.takeWhile Char.isDigit
  if digits = [] then none else some (Nat.ofDigitChars 10 digits 0, cs.dropWhile Char.isDigit)

mutual
/-- Reads one document. The first argument bounds the nesting. -/
def readValue : Nat → List Char → Option (Value × List Char)
  | 0, _ => none
  | n + 1, cs =>
    match cs with
    | 'n' :: 'u' :: 'l' :: 'l' :: r => some (.null, r)
    | 't' :: 'r' :: 'u' :: 'e' :: r => some (.bool true, r)
    | 'f' :: 'a' :: 'l' :: 's' :: 'e' :: r => some (.bool false, r)
    | '[' :: r => (readItems n r).map fun (vs, r) => (.array vs, r)
    | '{' :: r => (readMembers n r).map fun (ms, r) => (.object ms, r)
    | '-' :: r => (readNat r).map fun (k, r) => (.number (-k), r)
    | c :: r =>
      if c = '"' then (readString (c :: r)).map fun (s, r) => (.string s, r)
      else (readNat (c :: r)).map fun (k, r) => (.number k, r)
    | [] => none

/-- Reads the items of an array and its closing bracket. -/
def readItems : Nat → List Char → Option (List Value × List Char)
  | 0, _ => none
  | n + 1, cs =>
    match cs with
    | ']' :: r => some ([], r)
    | cs => do
      let (v, r) ← readValue n cs
      let (vs, r) ← readMoreItems n r
      some (v :: vs, r)

/-- Reads the items after the first. -/
def readMoreItems : Nat → List Char → Option (List Value × List Char)
  | 0, _ => none
  | n + 1, cs =>
    match cs with
    | ']' :: r => some ([], r)
    | ',' :: r => do
      let (v, r) ← readValue n r
      let (vs, r) ← readMoreItems n r
      some (v :: vs, r)
    | _ => none

/-- Reads one member of an object. -/
def readMember : Nat → List Char → Option ((String × Value) × List Char)
  | 0, _ => none
  | n + 1, cs => do
    let (k, r) ← readString cs
    match r with
    | ':' :: r =>
      let (v, r) ← readValue n r
      some ((k, v), r)
    | _ => none

/-- Reads the members of an object and its closing brace. -/
def readMembers : Nat → List Char → Option (List (String × Value) × List Char)
  | 0, _ => none
  | n + 1, cs =>
    match cs with
    | '}' :: r => some ([], r)
    | cs => do
      let (m, r) ← readMember n cs
      let (ms, r) ← readMoreMembers n r
      some (m :: ms, r)

/-- Reads the members after the first. -/
def readMoreMembers : Nat → List Char → Option (List (String × Value) × List Char)
  | 0, _ => none
  | n + 1, cs =>
    match cs with
    | '}' :: r => some ([], r)
    | ',' :: r => do
      let (m, r) ← readMember n r
      let (ms, r) ← readMoreMembers n r
      some (m :: ms, r)
    | _ => none
end

/-- Reads a whole text as one document. -/
def read (cs : List Char) : Option Value :=
  match readValue (2 * cs.length + 2) cs with
  | some (v, []) => some v
  | _ => none

/-- Reads bytes as one document. -/
def ofBytes (bs : List UInt8) : Option Value := (Text.readUtf8 bs).bind read

/-! ### The round trip -/

private theorem hexValue_hexDigit : ∀ n < 16, hexValue (hexDigit n) = some n := by decide

theorem readChars_escape (c : Char) (cs : List Char) :
    readChars (escape c ++ cs) = (readChars cs).map fun (s, r) => (c :: s, r) := by
  unfold escape
  split_ifs with h₁ h₂ h₃ h₄ h₅ h₆ h₇ h₈
  · subst h₁; simp [readChars]
  · subst h₂; simp [readChars]
  · subst h₃; simp [readChars]
  · subst h₄; simp [readChars]
  · subst h₅; simp [readChars]
  · subst h₆; simp [readChars]
  · subst h₇; simp [readChars]
  · have hc : Char.ofNat (16 * (c.toNat / 16) + c.toNat % 16) = c := by
      rw [Nat.div_add_mod]
      exact Char.ofNat_toNat c
    simp [readChars, hexValue_hexDigit (c.toNat / 16) (by omega),
      hexValue_hexDigit (c.toNat % 16) (by omega), hc]
  · simp [readChars, h₂, h₈]

theorem readString_print (s : String) (rest : List Char) :
    readString (printString s ++ rest) = some (s, rest) := by
  have h : ∀ l : List Char, readChars (l.flatMap escape ++ '"' :: rest) = some (l, rest) := by
    intro l
    induction l with
    | nil => simp [readChars]
    | cons c l ih => simp [List.append_assoc, readChars_escape, ih]
  simp [printString, readString, h]

/-- Text that does not continue a number. -/
def NoDigit (rest : List Char) : Prop := ∀ c ∈ rest.head?, c.isDigit = false

theorem readNat_toDigits (n : Nat) {rest : List Char} (h : NoDigit rest) :
    readNat (Nat.toDigits 10 n ++ rest) = some (n, rest) := by
  have hd : ∀ c ∈ Nat.toDigits 10 n, c.isDigit = true := fun c hc =>
    Nat.isDigit_of_mem_toDigits (by omega) (by omega) hc
  have ht : rest.takeWhile Char.isDigit = [] ∧ rest.dropWhile Char.isDigit = rest := by
    cases rest with
    | nil => simp
    | cons c rest => simp [h c (by simp)]
  simp [readNat, List.takeWhile_append_of_pos hd, List.dropWhile_append_of_pos hd, ht,
    Nat.ofDigitChars_ten_toDigits]

theorem readValue_printNumber (n : Int) {fuel : Nat} {rest : List Char} (h : NoDigit rest)  :
    readValue (fuel + 1) (printNumber n ++ rest) = some (.number n, rest) := by
  cases n with
  | ofNat n =>
    obtain ⟨c, cs, hcs⟩ := List.exists_cons_of_ne_nil (Nat.toDigits_ne_nil (n := n) (b := 10))
    have hc : c.isDigit = true := Nat.isDigit_of_mem_toDigits (b := 10) (n := n)
      (by omega) (by omega) (by simp [hcs])
    have hread := readNat_toDigits n h
    simp only [printNumber, hcs, List.cons_append] at hread ⊢
    have : c ≠ 'n' ∧ c ≠ 't' ∧ c ≠ 'f' ∧ c ≠ '[' ∧ c ≠ '{' ∧ c ≠ '-' ∧ c ≠ '"' := by
      refine ⟨?_, ?_, ?_, ?_, ?_, ?_, ?_⟩ <;> (rintro rfl; revert hc; decide)
    simp [readValue, this, hread]
  | negSucc n =>
    simp [printNumber, readValue, readNat_toDigits _ h, Int.negSucc_eq]

private theorem printString_append (s : String) (rest : List Char) :
    printString s ++ rest = '"' :: (s.toList.flatMap escape ++ '"' :: rest) := by
  simp [printString]

private theorem readMember_print (k : String) {v : Value} {fuel : Nat} {cs rest : List Char}
    (hv : readValue fuel cs = some (v, rest)) :
    readMember (fuel + 1) (printString k ++ ':' :: cs) = some ((k, v), rest) := by
  simp [readMember, readString_print, hv]

private theorem noDigit_of_head {c : Char} {cs : List Char} (h : c.isDigit = false) :
    NoDigit (c :: cs) := by
  rintro d hd
  obtain rfl : c = d := by simpa using hd
  exact h

private theorem noDigit_more (vs : List Value) (rest : List Char) :
    NoDigit (printMoreItems vs ++ rest) := by
  cases vs <;> exact noDigit_of_head (by decide)

private theorem noDigit_moreMembers (ms : List (String × Value)) (rest : List Char) :
    NoDigit (printMoreMembers ms ++ rest) := by
  cases ms <;> exact noDigit_of_head (by decide)

/-- No document's text is empty or looks like a closing bracket. -/
private theorem print_head (v : Value) : ∃ c cs, print v = c :: cs ∧ c ≠ ']' := by
  cases v with
  | null => exact ⟨_, _, rfl, by decide⟩
  | bool b => cases b <;> exact ⟨_, _, rfl, by decide⟩
  | number n =>
    cases n with
    | ofNat n =>
      obtain ⟨c, cs, hcs⟩ := List.exists_cons_of_ne_nil (Nat.toDigits_ne_nil (n := n) (b := 10))
      refine ⟨c, cs, hcs, ?_⟩
      rintro rfl
      have hc : (']').isDigit = true := Nat.isDigit_of_mem_toDigits (b := 10) (n := n)
        (by omega) (by omega) (by simp [hcs])
      exact absurd hc (by decide)
    | negSucc n => exact ⟨_, _, rfl, by decide⟩
  | string s => exact ⟨_, _, rfl, by decide⟩
  | array items => exact ⟨_, _, rfl, by decide⟩
  | object members => exact ⟨_, _, rfl, by decide⟩

/-- No document's text is empty. -/
theorem length_toBytes_pos (v : Value) : 1 ≤ (toBytes v).length := by
  obtain ⟨c, cs, hcs, -⟩ := print_head v
  have hc := c.utf8Size_pos
  rw [toBytes, hcs, Text.utf8_cons, List.length_append, Text.length_utf8EncodeChar]
  omega

mutual
theorem readValue_print (v : Value) (fuel : Nat) (rest : List Char)
    (hf : 2 * (print v).length ≤ fuel) (hr : NoDigit rest) :
    readValue fuel (print v ++ rest) = some (v, rest) := by
  obtain ⟨fuel, rfl⟩ : ∃ n, fuel = n + 1 := by
    obtain ⟨c, cs, hcs, -⟩ := print_head v
    rw [hcs, List.length_cons] at hf
    exact ⟨fuel - 1, by omega⟩
  cases v with
  | null => simp [print, readValue]
  | bool b => cases b <;> simp [print, readValue]
  | number n => rw [print]; exact readValue_printNumber n hr
  | string s =>
    have h := readString_print s rest
    rw [printString_append] at h
    rw [print, printString_append]
    simp [readValue, h]
  | array items =>
    rw [print, List.length_cons] at hf
    simp [print, readValue, readItems_print items fuel rest (by omega)]
  | object members =>
    rw [print, List.length_cons] at hf
    simp [print, readValue, readMembers_print members fuel rest (by omega)]

theorem readItems_print (vs : List Value) (fuel : Nat) (rest : List Char)
    (hf : 2 * (printItems vs).length + 1 ≤ fuel) :
    readItems fuel (printItems vs ++ rest) = some (vs, rest) := by
  obtain ⟨fuel, rfl⟩ : ∃ n, fuel = n + 1 := ⟨fuel - 1, by omega⟩
  cases vs with
  | nil => simp [printItems, readItems]
  | cons v vs =>
    rw [printItems, List.length_append] at hf
    have hv := readValue_print v fuel (printMoreItems vs ++ rest) (by omega) (noDigit_more vs rest)
    obtain ⟨c, cs, hcs, hc⟩ := print_head v
    have hm := readMoreItems_print vs fuel rest (by rw [hcs, List.length_cons] at hf; omega)
    rw [hcs] at hv
    simp only [List.cons_append] at hv
    simp [printItems, hcs, readItems, hc, hv, hm]

theorem readMoreItems_print (vs : List Value) (fuel : Nat) (rest : List Char)
    (hf : 2 * (printMoreItems vs).length ≤ fuel) :
    readMoreItems fuel (printMoreItems vs ++ rest) = some (vs, rest) := by
  cases vs with
  | nil =>
    rw [printMoreItems, List.length_singleton] at hf
    obtain ⟨fuel, rfl⟩ : ∃ n, fuel = n + 1 := ⟨fuel - 1, by omega⟩
    simp [printMoreItems, readMoreItems]
  | cons v vs =>
    rw [printMoreItems, List.length_cons, List.length_append] at hf
    obtain ⟨fuel, rfl⟩ : ∃ n, fuel = n + 1 := ⟨fuel - 1, by omega⟩
    have hv := readValue_print v fuel (printMoreItems vs ++ rest) (by omega) (noDigit_more vs rest)
    have hm := readMoreItems_print vs fuel rest (by omega)
    simp [printMoreItems, readMoreItems, hv, hm]

theorem readMembers_print (ms : List (String × Value)) (fuel : Nat) (rest : List Char)
    (hf : 2 * (printMembers ms).length + 1 ≤ fuel) :
    readMembers fuel (printMembers ms ++ rest) = some (ms, rest) := by
  obtain ⟨fuel, rfl⟩ : ∃ n, fuel = n + 1 := ⟨fuel - 1, by omega⟩
  cases ms with
  | nil => simp [printMembers, readMembers]
  | cons m ms =>
    obtain ⟨k, v⟩ := m
    rw [printMembers, List.length_append, List.length_cons, List.length_append] at hf
    obtain ⟨fuel, rfl⟩ : ∃ n, fuel = n + 1 := ⟨fuel - 1, by omega⟩
    have hv := readValue_print v fuel (printMoreMembers ms ++ rest) (by omega)
      (noDigit_moreMembers ms rest)
    have hk := readMember_print k hv
    have hm := readMoreMembers_print ms (fuel + 1) rest (by omega)
    rw [printString_append] at hk
    simp only [printMembers, List.append_assoc, List.cons_append, printString_append]
    rw [readMembers]
    · simp only [hk, hm, Option.bind_eq_bind, Option.bind_some]
    · simp

theorem readMoreMembers_print (ms : List (String × Value)) (fuel : Nat) (rest : List Char)
    (hf : 2 * (printMoreMembers ms).length ≤ fuel) :
    readMoreMembers fuel (printMoreMembers ms ++ rest) = some (ms, rest) := by
  cases ms with
  | nil =>
    rw [printMoreMembers, List.length_singleton] at hf
    obtain ⟨fuel, rfl⟩ : ∃ n, fuel = n + 1 := ⟨fuel - 1, by omega⟩
    simp [printMoreMembers, readMoreMembers]
  | cons m ms =>
    obtain ⟨k, v⟩ := m
    rw [printMoreMembers, List.length_cons, List.length_append, List.length_cons,
      List.length_append] at hf
    obtain ⟨fuel, rfl⟩ : ∃ n, fuel = n + 2 := ⟨fuel - 2, by omega⟩
    have hv := readValue_print v fuel (printMoreMembers ms ++ rest) (by omega)
      (noDigit_moreMembers ms rest)
    have hk := readMember_print k hv
    have hm := readMoreMembers_print ms (fuel + 1) rest (by omega)
    simp only [printMoreMembers, List.append_assoc, List.cons_append]
    rw [readMoreMembers]
    simp only [hk, hm, Option.bind_eq_bind, Option.bind_some]
end

/-- **Round trip.** Reading the printed text of a document gives the document. -/
theorem read_print (v : Value) : read (print v) = some v := by
  have h := readValue_print v (2 * (print v).length + 2) [] (by omega) (by simp [NoDigit])
  rw [List.append_nil] at h
  simp [read, h]

theorem ofBytes_toBytes (v : Value) : ofBytes (toBytes v) = some v := by
  simp [ofBytes, toBytes, Text.readUtf8_utf8, read_print]

/-! ### Length of the text -/

mutual
/-- A bound on the length of a document's text, from the bytes of its strings. -/
def sizeBound : Value → Nat
  | .null => 4
  | .bool _ => 5
  | .number n => (printNumber n).length
  | .string s => 6 * (Text.bytes s).length + 2
  | .array items => sizeBoundItems items + 2
  | .object members => sizeBoundMembers members + 2

/-- The items of an array, each with the comma before it. -/
def sizeBoundItems : List Value → Nat
  | [] => 0
  | v :: vs => sizeBound v + sizeBoundItems vs + 1

/-- The members of an object, each with its colon and the comma before it. -/
def sizeBoundMembers : List (String × Value) → Nat
  | [] => 0
  | (k, v) :: ms => 6 * (Text.bytes k).length + sizeBound v + sizeBoundMembers ms + 4
end

private theorem length_utf8_ascii {cs : List Char} (h : ∀ c ∈ cs, c.toNat < 128) :
    (Text.utf8 cs).length = cs.length := by
  induction cs with
  | nil => rfl
  | cons c cs ih =>
    have hcs := ih fun d hd => h d (List.mem_cons_of_mem _ hd)
    simp [Text.utf8EncodeChar_of_lt (h c List.mem_cons_self), hcs]

private theorem hexDigit_lt : ∀ n < 16, (hexDigit n).toNat < 128 := by decide

/-- The bytes of a character inside a string literal. -/
def escapedSize (c : Char) : Nat :=
  if c = '"' ∨ c = '\\' ∨ c = '\x08' ∨ c = '\x0c' ∨ c = '\n' ∨ c = '\r' ∨ c = '\t' then 2
  else if c.toNat < 32 then 6
  else c.utf8Size

theorem length_escape (c : Char) : (Text.utf8 (escape c)).length = escapedSize c := by
  by_cases hshort : c = '"' ∨ c = '\\' ∨ c = '\x08' ∨ c = '\x0c' ∨ c = '\n' ∨ c = '\r' ∨ c = '\t'
  · rw [escapedSize, if_pos hshort]
    rcases hshort with rfl | rfl | rfl | rfl | rfl | rfl | rfl <;> decide
  rw [escapedSize, if_neg hshort]
  simp only [not_or] at hshort
  obtain ⟨h₁, h₂, h₃, h₄, h₅, h₆, h₇⟩ := hshort
  rw [escape, if_neg h₁, if_neg h₂, if_neg h₃, if_neg h₄, if_neg h₅, if_neg h₆, if_neg h₇]
  split_ifs with hcontrol
  · -- two hexadecimal digits end the escape
    have hhigh := hexDigit_lt (c.toNat / 16) (by omega)
    have hlow := hexDigit_lt (c.toNat % 16) (by omega)
    rw [length_utf8_ascii]
    · rfl
    · intro d hd
      simp only [List.mem_cons, List.not_mem_nil, or_false] at hd
      rcases hd with rfl | rfl | rfl | rfl | rfl | rfl
      all_goals first | assumption | decide
  · simp

theorem escapedSize_le (c : Char) : escapedSize c ≤ 6 * c.utf8Size := by
  have hpos := c.utf8Size_pos
  unfold escapedSize
  split_ifs <;> omega

/-- The bytes of a string literal. -/
def stringSize (s : String) : Nat := (s.toList.map escapedSize).sum + 2

theorem length_printString (s : String) : (Text.utf8 (printString s)).length = stringSize s := by
  have hchars (cs : List Char) :
      (Text.utf8 (cs.flatMap escape)).length = (cs.map escapedSize).sum := by
    induction cs with
    | nil => rfl
    | cons c cs ih =>
      rw [List.flatMap_cons, Text.utf8_append, List.length_append, ih, length_escape, List.map_cons,
        List.sum_cons]
  have hquote : (Text.utf8 ['"']).length = 1 := by decide
  have hsplit : printString s = ['"'] ++ (s.toList.flatMap escape ++ ['"']) := by
    simp [printString]
  rw [hsplit, Text.utf8_append, Text.utf8_append, List.length_append, List.length_append, hquote,
    hchars, stringSize]
  omega

theorem stringSize_le (s : String) : stringSize s ≤ 6 * (Text.bytes s).length + 2 := by
  have hchars (cs : List Char) : (cs.map escapedSize).sum ≤ 6 * (Text.utf8 cs).length := by
    induction cs with
    | nil => exact Nat.le_refl 0
    | cons c cs ih =>
      have hc := escapedSize_le c
      rw [List.map_cons, List.sum_cons, Text.utf8_cons, List.length_append,
        Text.length_utf8EncodeChar]
      omega
  exact Nat.add_le_add_right (hchars s.toList) 2

theorem length_printString_le (s : String) :
    (Text.utf8 (printString s)).length ≤ 6 * (Text.bytes s).length + 2 :=
  Nat.le_trans (Nat.le_of_eq (length_printString s)) (stringSize_le s)

theorem length_printNumber (n : Int) :
    (Text.utf8 (printNumber n)).length = (printNumber n).length := by
  refine length_utf8_ascii fun c hc => ?_
  have hdigit : ∀ k, ∀ c ∈ Nat.toDigits 10 k, c.toNat < 128 := by
    intro k c hc
    have h : c.isDigit = true := Nat.isDigit_of_mem_toDigits (by omega) (by omega) hc
    simp only [Char.isDigit, Bool.and_eq_true, decide_eq_true_eq] at h
    have h57 : c.val.toNat ≤ 57 := h.2
    have : c.toNat = c.val.toNat := rfl
    omega
  cases n with
  | ofNat n => exact hdigit n c hc
  | negSucc n =>
    rcases List.mem_cons.mp hc with rfl | hc
    · decide
    · exact hdigit _ c hc

theorem length_printNumber_le {n k : Nat} (hk : 0 < k) (h : n < 10 ^ k) :
    (printNumber n).length ≤ k :=
  (Nat.length_toDigits_le_iff (by omega) hk).mpr h

private theorem length_utf8_cons {c : Char} (h : c.toNat < 128) (cs : List Char) :
    (Text.utf8 (c :: cs)).length = (Text.utf8 cs).length + 1 := by
  simp [Text.utf8EncodeChar_of_lt h, Nat.add_comm]

private theorem length_utf8_append (cs ds : List Char) :
    (Text.utf8 (cs ++ ds)).length = (Text.utf8 cs).length + (Text.utf8 ds).length := by
  simp

mutual
/-- **Length.** The text of a document is within its bound. -/
theorem length_toBytes_le (v : Value) : (toBytes v).length ≤ sizeBound v := by
  unfold toBytes
  cases v with
  | null => decide
  | bool b => cases b <;> decide
  | number n => exact Nat.le_of_eq (length_printNumber n)
  | string s => exact length_printString_le s
  | array items =>
    have h := length_printItems_le items
    rw [print, sizeBound, length_utf8_cons (by decide)]
    omega
  | object members =>
    have h := length_printMembers_le members
    rw [print, sizeBound, length_utf8_cons (by decide)]
    omega

private theorem length_printItems_le (vs : List Value) :
    (Text.utf8 (printItems vs)).length ≤ sizeBoundItems vs + 1 := by
  cases vs with
  | nil => decide
  | cons v vs =>
    have hv := length_toBytes_le v
    have hvs := length_printMoreItems_le vs
    rw [toBytes] at hv
    rw [printItems, sizeBoundItems, length_utf8_append]
    omega

private theorem length_printMoreItems_le (vs : List Value) :
    (Text.utf8 (printMoreItems vs)).length ≤ sizeBoundItems vs + 1 := by
  cases vs with
  | nil => decide
  | cons v vs =>
    have hv := length_toBytes_le v
    have hvs := length_printMoreItems_le vs
    rw [toBytes] at hv
    rw [printMoreItems, sizeBoundItems, length_utf8_cons (by decide), length_utf8_append]
    omega

private theorem length_printMembers_le (ms : List (String × Value)) :
    (Text.utf8 (printMembers ms)).length ≤ sizeBoundMembers ms + 1 := by
  cases ms with
  | nil => decide
  | cons m ms =>
    obtain ⟨k, v⟩ := m
    have hk := length_printString_le k
    have hv := length_toBytes_le v
    have hms := length_printMoreMembers_le ms
    rw [toBytes] at hv
    rw [printMembers, sizeBoundMembers, length_utf8_append, length_utf8_cons (by decide),
      length_utf8_append]
    omega

private theorem length_printMoreMembers_le (ms : List (String × Value)) :
    (Text.utf8 (printMoreMembers ms)).length ≤ sizeBoundMembers ms + 1 := by
  cases ms with
  | nil => decide
  | cons m ms =>
    obtain ⟨k, v⟩ := m
    have hk := length_printString_le k
    have hv := length_toBytes_le v
    have hms := length_printMoreMembers_le ms
    rw [toBytes] at hv
    rw [printMoreMembers, sizeBoundMembers, length_utf8_cons (by decide), length_utf8_append,
      length_utf8_cons (by decide), length_utf8_append]
    omega
end

/-! The exact length of a composite document. -/

private theorem length_printMoreItems (vs : List Value) :
    (Text.utf8 (printMoreItems vs)).length =
      (vs.map fun v => (toBytes v).length).sum + vs.length + 1 := by
  induction vs with
  | nil => decide
  | cons v vs ih =>
    rw [printMoreItems, length_utf8_cons (by decide), length_utf8_append, ih, List.map_cons,
      List.sum_cons, List.length_cons, toBytes]
    omega

theorem length_toBytes_array (vs : List Value) :
    (toBytes (.array vs)).length =
      (vs.map fun v => (toBytes v).length).sum + (vs.length - 1) + 2 := by
  rw [toBytes, print, length_utf8_cons (by decide)]
  cases vs with
  | nil => decide
  | cons v vs =>
    rw [printItems, length_utf8_append, length_printMoreItems, List.map_cons, List.sum_cons,
      List.length_cons, toBytes]
    omega

/-- The length of a member of an object: its key, a colon and its value. -/
def memberLength : String × Value → Nat
  | (k, v) => (Text.utf8 (printString k)).length + 1 + (toBytes v).length

private theorem length_printMoreMembers (ms : List (String × Value)) :
    (Text.utf8 (printMoreMembers ms)).length = (ms.map memberLength).sum + ms.length + 1 := by
  induction ms with
  | nil => decide
  | cons m ms ih =>
    obtain ⟨k, v⟩ := m
    rw [printMoreMembers, length_utf8_cons (by decide), length_utf8_append,
      length_utf8_cons (by decide), length_utf8_append, ih, List.map_cons, List.sum_cons,
      List.length_cons, memberLength, toBytes]
    omega

theorem length_toBytes_object (ms : List (String × Value)) :
    (toBytes (.object ms)).length = (ms.map memberLength).sum + (ms.length - 1) + 2 := by
  rw [toBytes, print, length_utf8_cons (by decide)]
  cases ms with
  | nil => decide
  | cons m ms =>
    obtain ⟨k, v⟩ := m
    rw [printMembers, length_utf8_append, length_utf8_cons (by decide), length_utf8_append,
      length_printMoreMembers, List.map_cons, List.sum_cons, List.length_cons, memberLength,
      toBytes]
    omega

theorem length_toBytes_string (s : String) : (toBytes (.string s)).length = stringSize s :=
  length_printString s

theorem length_toBytes_number (n : Int) : (toBytes (.number n)).length = (printNumber n).length :=
  length_printNumber n

end Json
