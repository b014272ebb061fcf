import OpenOJ.Foundation.Outcome
import Mathlib.Data.List.Pairwise
import Mathlib.Logic.Function.Basic

/-!
# Relational tables

A row type declares its primary key, its `CHECK` constraints and what `PRIMARY KEY` and `UNIQUE` ask
of two rows (`Relation`). A `Table` carries these as fields, so a table that violates one of them
cannot be built; `Table.insert` and `Table.update` are the two write statements, each refused with
the constraint it would break (`Violation`).

Reasoning never looks at the list of rows: a table is its lookup function `Table.find?`, and each
write is one `Function.update` of it (`Table.find?_insert`, `Table.find?_update`). What the
constraints give is read off the lookup:

* `Table.check_of_find?`: a row that is found satisfies its `CHECK` constraints;
* `Table.eq_of_key`, `Table.apart_of_ne`: rows of one key are one row, and rows of different keys
  keep their `UNIQUE` constraints apart;
* `Table.mem_rows`: the rows are those that are found.

In the other direction, `Table.exists_insert` and `Table.exists_update` say when a write succeeds:
when the row satisfies its checks and is apart from all others. `Table.insert_unique` and
`Table.insert_check` say which violation is reported when it does not.
-/

universe u v

/-- What refuses a statement: a `CHECK`, a `PRIMARY KEY` or `UNIQUE` (SQLSTATE 23505), or
a `FOREIGN KEY`. -/
inductive Violation where
  | check
  | unique
  | foreignKey
  deriving DecidableEq, Repr

/-- What a row type declares. `Apart r s` is what `PRIMARY KEY` and `UNIQUE` ask of two
different rows of one table. -/
class Relation (ρ : Type u) where
  /-- The primary key's type. -/
  Key : Type v
  key : ρ → Key
  Check : ρ → Prop
  Apart : ρ → ρ → Prop
  [decEq : DecidableEq Key]
  [decCheck : DecidablePred Check]
  [decApart : DecidableRel Apart]
  apart_symm : ∀ {r s}, Apart r s → Apart s r
  apart_key : ∀ {r s}, Apart r s → key r ≠ key s

attribute [reducible, instance] Relation.decEq Relation.decCheck Relation.decApart

/-- A table: rows that pass their checks and are pairwise apart. -/
structure Table (ρ : Type u) [Relation.{u, v} ρ] where
  rows : List ρ
  checked : ∀ r ∈ rows, Relation.Check r
  apart : rows.Pairwise Relation.Apart

namespace Table

open Relation

variable {ρ : Type u} [Relation.{u, v} ρ]

private instance : Std.Symm (@Apart ρ _) := ⟨fun _ _ => apart_symm⟩

/-- The table without rows. -/
def empty : Table ρ := ⟨[], by simp, .nil⟩

/-- The row with a given primary key. -/
def find? (t : Table ρ) (k : Key ρ) : Option ρ := t.rows.find? fun r => key r = k

/-- `INSERT`. Checks are evaluated before the unique indexes are consulted. -/
def insert (t : Table ρ) (r : ρ) : Except Violation (Table ρ) :=
  if hc : Check r then
    if ha : ∀ s ∈ t.rows, Apart s r then
      .ok ⟨t.rows ++ [r], by
        intro s hs
        rcases List.mem_append.mp hs with hs | hs
        · exact t.checked s hs
        · exact List.mem_singleton.mp hs ▸ hc, by
        refine List.pairwise_append.mpr ⟨t.apart, List.pairwise_singleton _ _, ?_⟩
        intro s hs s' hs'
        exact List.mem_singleton.mp hs' ▸ ha s hs⟩
    else .error .unique
  else .error .check

/-- The rows of a keyed update: the row with key `k` becomes `f` of itself. -/
private def mapAt (k : Key ρ) (f : ρ → ρ) (rows : List ρ) : List ρ :=
  rows.map fun r => if key r = k then f r else r

private theorem pairwise_mapAt {k : Key ρ} {f : ρ → ρ} {rows : List ρ}
    (h : rows.Pairwise Apart)
    (hf : ∀ r ∈ rows, key r = k → ∀ s ∈ rows, key s ≠ k → Apart s (f r)) :
    (mapAt k f rows).Pairwise Apart := by
  rw [mapAt, List.pairwise_map]
  refine h.imp_of_mem ?_
  intro r s hr hs hrs
  by_cases hrk : key r = k
  · have hsk : key s ≠ k := fun hsk => apart_key hrs (hrk.trans hsk.symm)
    simpa [hrk, hsk] using apart_symm (hf r hr hrk s hs hsk)
  · by_cases hsk : key s = k
    · simpa [hrk, hsk] using hf s hs hsk r hr hrk
    · simpa [hrk, hsk] using hrs

/-- `UPDATE … WHERE key = k`: the row's new value is checked like an inserted one; a key
that no row has updates nothing. -/
def update (t : Table ρ) (k : Key ρ) (f : ρ → ρ) : Except Violation (Table ρ) :=
  if hc : ∀ r ∈ t.rows, key r = k → Check (f r) then
    if ha : ∀ r ∈ t.rows, key r = k → ∀ s ∈ t.rows, key s ≠ k → Apart s (f r) then
      .ok ⟨mapAt k f t.rows, by
        intro r hr
        obtain ⟨s, hs, rfl⟩ := List.mem_map.mp hr
        split
        · exact hc s hs ‹_›
        · exact t.checked s hs, pairwise_mapAt t.apart ha⟩
    else .error .unique
  else .error .check

/-! ### Lookup -/

@[simp]
theorem find?_empty (k : Key ρ) : (empty : Table ρ).find? k = none := rfl

theorem mem_of_find? {t : Table ρ} {k : Key ρ} {r : ρ} (h : t.find? k = some r) :
    r ∈ t.rows := List.mem_of_find?_eq_some h

theorem key_of_find? {t : Table ρ} {k : Key ρ} {r : ρ} (h : t.find? k = some r) :
    key r = k := by
  simpa using List.find?_some h

theorem find?_eq_none {t : Table ρ} {k : Key ρ} :
    t.find? k = none ↔ ∀ r ∈ t.rows, key r ≠ k := by
  simp [find?]

/-- Two rows of a table with one key are one row. -/
theorem eq_of_key {t : Table ρ} {r s : ρ} (hr : r ∈ t.rows) (hs : s ∈ t.rows)
    (h : key r = key s) : r = s := by
  by_contra hne
  exact apart_key (t.apart.forall hr hs hne) h

/-- Two rows with different keys are apart. -/
theorem apart_of_ne {t : Table ρ} {r s : ρ} (hr : r ∈ t.rows) (hs : s ∈ t.rows)
    (h : r ≠ s) : Apart r s :=
  t.apart.forall hr hs h

/-- A table holds a row exactly when its lookup finds it. -/
theorem mem_rows {t : Table ρ} {r : ρ} : r ∈ t.rows ↔ t.find? (key r) = some r := by
  refine ⟨fun h => ?_, mem_of_find?⟩
  cases hf : t.find? (key r) with
  | none => exact absurd rfl (find?_eq_none.mp hf r h)
  | some s => rw [eq_of_key (mem_of_find? hf) h (key_of_find? hf)]

theorem check_of_find? {t : Table ρ} {k : Key ρ} {r : ρ} (h : t.find? k = some r) :
    Check r := t.checked r (mem_of_find? h)

/-! ### Insert -/

theorem insert_eq_ok {t t' : Table ρ} {r : ρ} :
    t.insert r = .ok t' ↔
      Check r ∧ (∀ s ∈ t.rows, Apart s r) ∧ t'.rows = t.rows ++ [r] := by
  constructor
  · intro h
    unfold insert at h
    split at h
    · split at h
      · cases h
        exact ⟨‹_›, ‹_›, rfl⟩
      · cases h
    · cases h
  · rintro ⟨hc, ha, h⟩
    rw [insert, dif_pos hc, dif_pos ha]
    cases t'
    simp_all

/-- An accepted row is new, and lookup finds it from then on. -/
theorem find?_insert {t t' : Table ρ} {r : ρ} (h : t.insert r = .ok t') :
    t.find? (key r) = none ∧ t'.find? = Function.update t.find? (key r) (some r) := by
  obtain ⟨-, ha, hrows⟩ := insert_eq_ok.mp h
  have hnew : t.find? (key r) = none := find?_eq_none.mpr fun s hs => apart_key (ha s hs)
  refine ⟨hnew, funext fun k => ?_⟩
  by_cases hk : k = key r
  · subst hk
    have hr : r ∈ t'.rows := by simp [hrows]
    simpa using mem_rows.mp hr
  · have hk' : key r ≠ k := fun h => hk h.symm
    simp [find?, hrows, List.find?_append, hk, hk']

/-- A row that passes its checks and is apart from every stored row is accepted. -/
theorem exists_insert {t : Table ρ} {r : ρ} (hc : Check r) (ha : ∀ s ∈ t.rows, Apart s r) :
    ∃ t', t.insert r = .ok t' :=
  ⟨_, by rw [insert, dif_pos hc, dif_pos ha]⟩

/-- A row that collides with a stored one is refused as a unique violation. -/
theorem insert_unique {t : Table ρ} {r s : ρ} (hc : Check r) (hs : s ∈ t.rows)
    (h : ¬Apart s r) : t.insert r = .error .unique := by
  have ha : ¬∀ s ∈ t.rows, Apart s r := fun ha => h (ha s hs)
  simp only [insert, hc, ha, dite_true, dite_false]

/-- A row that fails a check is refused. -/
theorem insert_check {t : Table ρ} {r : ρ} (hc : ¬Check r) : t.insert r = .error .check := by
  simp [insert, hc]

/-! ### Update -/

private theorem rows_of_update {t t' : Table ρ} {k : Key ρ} {f : ρ → ρ}
    (h : t.update k f = .ok t') : t'.rows = mapAt k f t.rows := by
  unfold update at h
  split at h
  · split at h
    · cases h
      rfl
    · cases h
  · cases h

/-- A keyed update rewrites the one row it names. -/
theorem find?_update {t t' : Table ρ} {k : Key ρ} {f : ρ → ρ} (hf : ∀ r, key (f r) = key r)
    (h : t.update k f = .ok t') :
    t'.find? = Function.update t.find? k ((t.find? k).map f) := by
  have hrows := rows_of_update h
  have hkey : ∀ r, key (if key r = k then f r else r) = key r := fun r => by
    split
    · exact hf r
    · rfl
  funext k'
  have hmap : t'.find? k' = (t.find? k').map fun r => if key r = k then f r else r := by
    simp only [find?, hrows, mapAt, List.find?_map]
    congr 2
    funext r
    simp [hkey]
  rw [hmap]
  by_cases hk : k' = k
  · subst hk
    cases hfind : t.find? k' with
    | none => simp
    | some r => simp [key_of_find? hfind]
  · rw [Function.update_of_ne hk]
    cases hfind : t.find? k' with
    | none => rfl
    | some r => simp [key_of_find? hfind, hk]

/-- An accepted update leaves a row that passes its checks. -/
theorem check_of_update {t t' : Table ρ} {k : Key ρ} {f : ρ → ρ} {r : ρ}
    (h : t.update k f = .ok t') (hr : t.find? k = some r) : Check (f r) := by
  unfold update at h
  split at h
  · exact ‹∀ r ∈ t.rows, key r = k → Check (f r)› r (mem_of_find? hr) (key_of_find? hr)
  · cases h

/-- An accepted update leaves a row apart from every other one. -/
theorem apart_of_update {t t' : Table ρ} {k : Key ρ} {f : ρ → ρ} {r s : ρ}
    (h : t.update k f = .ok t') (hr : t.find? k = some r) (hs : s ∈ t.rows)
    (hk : key s ≠ k) : Apart s (f r) := by
  unfold update at h
  split at h
  · split at h
    · exact ‹∀ r ∈ t.rows, key r = k → ∀ s ∈ t.rows, key s ≠ k → Apart s (f r)› r
        (mem_of_find? hr) (key_of_find? hr) s hs hk
    · cases h
  · cases h

/-- An update whose new row passes its checks and stays apart is accepted. -/
theorem exists_update {t : Table ρ} {k : Key ρ} {f : ρ → ρ} {r : ρ} (hr : t.find? k = some r)
    (hc : Check (f r)) (ha : ∀ s ∈ t.rows, key s ≠ k → Apart s (f r)) :
    ∃ t', t.update k f = .ok t' := by
  have hone : ∀ s ∈ t.rows, key s = k → s = r := fun s hs hk =>
    eq_of_key hs (mem_of_find? hr) (hk.trans (key_of_find? hr).symm)
  have hc' : ∀ s ∈ t.rows, key s = k → Check (f s) := fun s hs hk => hone s hs hk ▸ hc
  have ha' : ∀ s ∈ t.rows, key s = k → ∀ s' ∈ t.rows, key s' ≠ k → Apart s' (f s) :=
    fun s hs hk => hone s hs hk ▸ ha
  exact ⟨_, by rw [update, dif_pos hc', dif_pos ha']⟩

end Table
