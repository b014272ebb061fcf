import Mathlib.Data.List.Forall2
import Mathlib.Data.List.ReduceOption
import OpenOJ.Foundation.JsonText

/-!
# Typed documents

A type that documents are read into has a *shape*: text, integers, booleans, lists of a shape and
structures of named fields, some of them optional. `Shape.typed` says that a document is of the type
the shape names at every place, and `Shape.reads` what a value that was read is written as, wherever
this is so: scalars as they were, lists item by item, and structures field by field. An optional
field that is absent or `null` is not written, and no member may be unknown or there twice
(`Known`).

What a reader makes of a part of another type (a list in place of a structure, say) is left open;
`Shape.read` is the reader that refuses those.

The shapes are put together by

* `Shape.scalar`, with `string`, `integer` and `boolean`;
* `array`, a list of one shape;
* `struct`, a structure of fields that are always there (`Field.always`) or may be (`Field.maybe`).

`Field.reads_of_read` carries a read of a single field to what its shape says about it, and the
equation of each shape follows from it by the recursion of the shape. A schema that refuses `null`
where a shape reads it as an absent field is what the module serves to tell apart from its types.
-/

namespace Json

/-- What can be read as a type of a program. -/
structure Shape where
  /-- The document is of the types that the shape names, all the way down. -/
  typed : Value → Bool
  /-- What was read from the first document may be written as the second one. -/
  reads : Value → Value → Prop
  /-- A strict reader, and what it writes of what it read. -/
  read : Value → Option Value
  typed_null : typed .null = false
  read_reads : ∀ {v w}, read v = some w → reads v w

/-! ### Scalars -/

/-- A type of documents without parts. -/
def Shape.scalar (p : Value → Bool) (h : p .null = false) : Shape where
  typed := p
  reads v w := p v = true → w = v
  read v := if p v then some v else none
  typed_null := h
  read_reads {v w} hread _ := by
    split_ifs at hread
    exact (Option.some.inj hread).symm

def isString : Value → Bool
  | .string _ => true
  | _ => false

def isInteger : Value → Bool
  | .number _ => true
  | _ => false

def isBool : Value → Bool
  | .bool _ => true
  | _ => false

namespace Shape

def string : Shape := .scalar isString rfl

def integer : Shape := .scalar isInteger rfl

def boolean : Shape := .scalar isBool rfl

/-! ### Lists -/

private theorem mapM_eq_some {α β : Type} {f : α → Option β} {as : List α} {bs : List β} :
    as.mapM f = some bs ↔ List.Forall₂ (fun a b => f a = some b) as bs := by
  induction as generalizing bs with
  | nil => simp [eq_comm]
  | cons a as ih =>
    simp only [List.mapM_cons, Option.bind_eq_bind, Option.bind_eq_some_iff, ih,
      List.forall₂_cons_left_iff, pure, Option.some.injEq]
    constructor
    · rintro ⟨b, hb, bs, hbs, rfl⟩
      exact ⟨b, bs, hb, hbs, rfl⟩
    · rintro ⟨b, bs, hb, hbs, rfl⟩
      exact ⟨b, hb, bs, hbs, rfl⟩

/-- A list of a shape. -/
def array (items : Shape) : Shape where
  typed
    | .array vs => vs.all items.typed
    | _ => false
  reads v w := ∀ vs, v = .array vs → ∃ ws, w = .array ws ∧ List.Forall₂ items.reads vs ws
  read
    | .array vs => (vs.mapM items.read).map .array
    | _ => none
  typed_null := rfl
  read_reads {v w} hread vs hv := by
    subst hv
    obtain ⟨ws, hws, rfl⟩ := Option.map_eq_some_iff.mp hread
    exact ⟨ws, rfl, (mapM_eq_some.mp hws).imp fun _ _ => items.read_reads⟩

/-! ### Structures -/

/-- A field of a structure. -/
structure Field where
  name : String
  required : Bool
  shape : Shape

def Field.always (name : String) (shape : Shape) : Field := ⟨name, true, shape⟩

def Field.maybe (name : String) (shape : Shape) : Field := ⟨name, false, shape⟩

/-- What is written of a field, for what the document has under its name. -/
inductive Field.Reads (field : Field) : Option Value → Option Value → Prop
  | present {v w : Value} (hv : v ≠ .null ∨ field.required = true) (h : field.shape.reads v w) :
    field.Reads (some v) (some w)
  | absent (h : field.required = false) : field.Reads none none
  | null (h : field.required = false) : field.Reads (some .null) none

def isNull : Value → Bool
  | .null => true
  | _ => false

/-- The member that is written for a field, if any. -/
def Field.read (field : Field) (members : List (String × Value)) :
    Option (Option (String × Value)) :=
  match get? members field.name with
  | none => if field.required then none else some none
  | some v =>
    if isNull v && !field.required then some none
    else (field.shape.read v).map fun w => some (field.name, w)

/-- All members belong to a field. -/
def Known (fields : List Field) (members : List (String × Value)) : Prop :=
  ∀ m ∈ members, m.1 ∈ fields.map (·.name)

instance (fields : List Field) (members : List (String × Value)) :
    Decidable (Known fields members) := inferInstanceAs (Decidable (∀ m ∈ members, _))

theorem Field.reads_of_read {field : Field} {members : List (String × Value)}
    {member : Option (String × Value)} (h : field.read members = some member) :
    (∀ m ∈ member, m.1 = field.name) ∧
      field.Reads (get? members field.name) (member.map (·.2)) := by
  unfold Field.read at h
  split at h
  · rename_i hget
    split_ifs at h with hrequired
    obtain rfl := Option.some.inj h
    rw [hget]
    exact ⟨nofun, .absent (Bool.not_eq_true _ ▸ hrequired)⟩
  · rename_i v hget
    rw [hget]
    split_ifs at h with hnull
    · obtain rfl := Option.some.inj h
      rw [Bool.and_eq_true, Bool.not_eq_true'] at hnull
      cases v with
      | null => exact ⟨nofun, .null hnull.2⟩
      | _ => exact absurd hnull.1 (by simp [isNull])
    · obtain ⟨w, hw, rfl⟩ := Option.map_eq_some_iff.mp h
      refine ⟨fun m hm => by rw [← Option.some.inj hm], .present ?_ (field.shape.read_reads hw)⟩
      cases hrequired : field.required with
      | true => exact .inr rfl
      | false =>
        refine .inl fun hv => hnull ?_
        rw [hv, hrequired]
        rfl

/-- The members that were written have the names of their fields. -/
private theorem names_of_read {members : List (String × Value)} {fields : List Field}
    {written : List (Option (String × Value))}
    (h : List.Forall₂ (fun field member => Field.read field members = some member) fields written) :
    List.Sublist (written.reduceOption.map (·.1)) (fields.map (·.name)) := by
  induction h with
  | nil => exact .slnil
  | @cons field member fields written hread _ ih =>
    cases member with
    | none =>
      rw [List.reduceOption_cons_of_none]
      exact ih.cons _
    | some m =>
      have hname : m.1 = field.name := (Field.reads_of_read hread).1 m rfl
      rw [List.reduceOption_cons_of_some, List.map_cons, List.map_cons, hname]
      exact ih.cons_cons _

/-- Each field is written as it was read. -/
private theorem reads_of_mapM {members : List (String × Value)} {fields : List Field}
    {written : List (Option (String × Value))} (hnames : (fields.map (·.name)).Nodup)
    (h : List.Forall₂ (fun field member => Field.read field members = some member) fields written) :
    ∀ field ∈ fields,
      field.Reads (get? members field.name) (get? written.reduceOption field.name) := by
  induction h with
  | nil => nofun
  | @cons field member fields written hread hrest ih =>
    rw [List.map_cons, List.nodup_cons] at hnames
    obtain ⟨hname, hreads⟩ := Field.reads_of_read hread
    have hfresh : get? written.reduceOption field.name = none :=
      get?_eq_none.mpr fun hmem => hnames.1 ((names_of_read hrest).subset hmem)
    intro other hother
    rcases List.mem_cons.mp hother with rfl | hother
    · cases member with
      | none => rwa [List.reduceOption_cons_of_none, hfresh]
      | some m =>
        rwa [List.reduceOption_cons_of_some, get?_cons, if_pos (hname m rfl)]
    · cases member with
      | none =>
        rw [List.reduceOption_cons_of_none]
        exact ih hnames.2 other hother
      | some m =>
        have hne : m.1 ≠ other.name := by
          rw [hname m rfl]
          exact fun heq => hnames.1 (heq ▸ List.mem_map_of_mem hother)
        rw [List.reduceOption_cons_of_some, get?_cons, if_neg hne]
        exact ih hnames.2 other hother

/-- A structure of fields. -/
def struct (fields : List Field) (hnames : (fields.map (·.name)).Nodup) : Shape where
  typed
    | .object members => fields.all fun field => (get? members field.name).all field.shape.typed
    | _ => false
  reads v w := ∀ members, v = .object members → (members.map (·.1)).Nodup ∧ Known fields members ∧
    ∃ written, w = .object written ∧ Known fields written ∧
      ∀ field ∈ fields, field.Reads (get? members field.name) (get? written field.name)
  read
    | .object members =>
      if (members.map (·.1)).Nodup ∧ Known fields members then
        (fields.mapM fun field => Field.read field members).map fun written =>
          .object written.reduceOption
      else none
    | _ => none
  typed_null := rfl
  read_reads {v w} hread members hv := by
    subst hv
    dsimp only at hread
    split_ifs at hread with hmembers
    obtain ⟨written, hwritten, rfl⟩ := Option.map_eq_some_iff.mp hread
    have hall := mapM_eq_some.mp hwritten
    refine ⟨hmembers.1, hmembers.2, _, rfl, fun m hm => ?_, reads_of_mapM hnames hall⟩
    exact (names_of_read hall).subset (List.mem_map_of_mem hm)

end Shape
end Json
