import Mathlib.Data.List.Nodup
import Mathlib.Data.List.Perm.Basic

/-!
# Keyed tables

A table with a primary key: rows in insertion order, no two of which have equal
keys. The key discipline is a field of the type, so a table that stores a row
twice cannot be built and every operation carries its own proof that it keeps
the key unique.

The operations are the statements a relational store offers on such a table. A
plain insert fails on a taken key, `insertOrIgnore` leaves the table as it was,
`put` replaces the row that holds the key, `update` rewrites the rows in place
and `delete` removes the rows a predicate selects.

## Main definitions

* `Table key`: rows with pairwise distinct keys.
* `Table.find?`: the row of a key.
* `Table.insert?`, `Table.insertOrIgnore`, `Table.put`, `Table.update`,
  `Table.delete`: the statements.
-/

namespace Argmax.Lib

variable {κ ρ : Type*}

/-- Rows with pairwise distinct keys. -/
structure Table (key : ρ → κ) where
  /-- The stored rows, oldest first. -/
  rows : List ρ
  /-- The primary key is unique. -/
  unique : (rows.map key).Nodup

variable {r r' : ρ} {k : κ} {p : ρ → Bool}

namespace Table

variable {key : ρ → κ}

@[ext] theorem ext {t u : Table key} (h : t.rows = u.rows) : t = u := by
  cases t; cases u; cases h; rfl

instance [DecidableEq ρ] : DecidableEq (Table key) := fun t u =>
  decidable_of_iff (t.rows = u.rows) ⟨ext, fun h => h ▸ rfl⟩

/-- A row is in the table when it is among its rows. -/
instance : Membership ρ (Table key) := ⟨fun t r => r ∈ t.rows⟩

theorem mem_def {t : Table key} : r ∈ t ↔ r ∈ t.rows := Iff.rfl

instance [DecidableEq ρ] (t : Table key) (r : ρ) : Decidable (r ∈ t) :=
  inferInstanceAs (Decidable (r ∈ t.rows))

/-- Rows of one table with equal keys are the same row. -/
theorem eq_of_key {t : Table key} (hr : r ∈ t) (hr' : r' ∈ t) (h : key r = key r') : r = r' :=
  List.inj_on_of_nodup_map t.unique hr hr' h

/-- The table without rows. -/
def empty : Table key := ⟨[], List.nodup_nil⟩

instance : Inhabited (Table key) := ⟨empty⟩

@[simp] theorem rows_empty : (empty : Table key).rows = [] := rfl

@[simp] theorem not_mem_empty (r : ρ) : ¬ r ∈ (empty : Table key) := List.not_mem_nil

/-! ## Lookup -/

section Lookup

variable [DecidableEq κ]

/-- The row that holds a key. -/
def find? (t : Table key) (k : κ) : Option ρ :=
  t.rows.find? fun r => decide (key r = k)

/-- **Lookup is membership.** The key determines the row. -/
theorem find?_eq_some {t : Table key} : t.find? k = some r ↔ r ∈ t ∧ key r = k := by
  refine ⟨fun h => ⟨List.mem_of_find?_eq_some h, by simpa using List.find?_some h⟩, ?_⟩
  rintro ⟨hr, hk⟩
  have hsome : (t.find? k).isSome := by
    rw [find?, List.find?_isSome]
    exact ⟨r, hr, by simp [hk]⟩
  obtain ⟨r', hr'⟩ := Option.isSome_iff_exists.mp hsome
  have hk' : key r' = k := by simpa using List.find?_some hr'
  rw [hr', eq_of_key (List.mem_of_find?_eq_some hr') hr (hk'.trans hk.symm)]

theorem find?_eq_none {t : Table key} : t.find? k = none ↔ ∀ r ∈ t, key r ≠ k := by
  simp [find?, mem_def]

theorem mem_of_find? {t : Table key} (h : t.find? k = some r) : r ∈ t :=
  (find?_eq_some.mp h).1

theorem key_of_find? {t : Table key} (h : t.find? k = some r) : key r = k :=
  (find?_eq_some.mp h).2

theorem find?_of_mem {t : Table key} (h : r ∈ t) : t.find? (key r) = some r :=
  find?_eq_some.mpr ⟨h, rfl⟩

@[simp] theorem find?_empty (k : κ) : (empty : Table key).find? k = none := rfl

end Lookup

/-! ## Insertion -/

section Insert

variable [DecidableEq κ]

/-- Append a row whose key is free. -/
def push (t : Table key) (r : ρ) (h : t.find? (key r) = none) : Table key where
  rows := t.rows ++ [r]
  unique := by
    simp only [List.map_append, List.map_cons, List.map_nil]
    refine List.Nodup.append t.unique (List.nodup_singleton _) ?_
    intro k hk hk'
    rw [List.mem_singleton] at hk'
    obtain ⟨r', hr', rfl⟩ := List.mem_map.mp hk
    exact find?_eq_none.mp h r' hr' hk'

@[simp] theorem mem_push {t : Table key} {r r' : ρ} {h : t.find? (key r) = none} :
    r' ∈ t.push r h ↔ r' ∈ t ∨ r' = r := by
  simp [push, mem_def]

theorem mem_push_of_mem {t : Table key} (h : t.find? (key r) = none) (hr' : r' ∈ t) :
    r' ∈ t.push r h := mem_push.mpr (.inl hr')

theorem mem_push_self {t : Table key} (h : t.find? (key r) = none) :
    r ∈ t.push r h := mem_push.mpr (.inr rfl)

theorem find?_push {t : Table key} {h : t.find? (key r) = none} (k : κ) :
    (t.push r h).find? k = if key r = k then some r else t.find? k := by
  by_cases hk : key r = k
  · simp [hk, find?_eq_some]
  · ext r'
    simp only [hk, if_false, find?_eq_some, mem_push]
    constructor
    · rintro ⟨hr' | rfl, hkey⟩
      · exact ⟨hr', hkey⟩
      · exact absurd hkey hk
    · rintro ⟨hr', hkey⟩
      exact ⟨.inl hr', hkey⟩

/-- `INSERT`: fails when the key is taken. -/
def insert? (t : Table key) (r : ρ) : Option (Table key) :=
  if h : t.find? (key r) = none then some (t.push r h) else none

theorem insert?_eq_some {t u : Table key} :
    t.insert? r = some u ↔ ∃ h : t.find? (key r) = none, u = t.push r h := by
  unfold insert?
  split
  · rename_i h
    simp [h, eq_comm]
  · rename_i h
    simp [h]

/-- A successful insert adds exactly its row. -/
theorem mem_insert? {t u : Table key} {r r' : ρ} (h : t.insert? r = some u) :
    r' ∈ u ↔ r' ∈ t ∨ r' = r := by
  obtain ⟨hfree, rfl⟩ := insert?_eq_some.mp h
  exact mem_push

/-- `INSERT OR IGNORE`: a taken key leaves the table as it was. -/
def insertOrIgnore (t : Table key) (r : ρ) : Table key :=
  (t.insert? r).getD t

theorem insertOrIgnore_of_free {t : Table key} (h : t.find? (key r) = none) :
    t.insertOrIgnore r = t.push r h := by
  simp [insertOrIgnore, insert?, h]

theorem insertOrIgnore_of_taken {t : Table key} (h : t.find? (key r) = some r') :
    t.insertOrIgnore r = t := by
  simp [insertOrIgnore, insert?, h]

theorem mem_of_mem_insertOrIgnore {t : Table key} (h : r' ∈ t.insertOrIgnore r) :
    r' ∈ t ∨ r' = r := by
  cases hfree : t.find? (key r) with
  | none => rwa [insertOrIgnore_of_free hfree, mem_push] at h
  | some r₀ =>
    rw [insertOrIgnore_of_taken hfree] at h
    exact .inl h

theorem mem_insertOrIgnore_of_mem {t : Table key} (h : r' ∈ t) : r' ∈ t.insertOrIgnore r := by
  cases hfree : t.find? (key r) with
  | none =>
    rw [insertOrIgnore_of_free hfree]
    exact mem_push_of_mem hfree h
  | some r₀ => rwa [insertOrIgnore_of_taken hfree]

/-- Some row has the key afterwards. -/
theorem exists_mem_insertOrIgnore {t : Table key} (r : ρ) :
    ∃ r' ∈ t.insertOrIgnore r, key r' = key r := by
  cases hfree : t.find? (key r) with
  | none =>
    rw [insertOrIgnore_of_free hfree]
    exact ⟨r, mem_push_self hfree, rfl⟩
  | some r₀ =>
    rw [insertOrIgnore_of_taken hfree]
    exact ⟨r₀, mem_of_find? hfree, key_of_find? hfree⟩

end Insert

/-! ## Update in place -/

/-- `UPDATE`: rewrite the rows by a function that keeps their keys. -/
def update (t : Table key) (f : ρ → ρ) (hf : ∀ r, key (f r) = key r) : Table key where
  rows := t.rows.map f
  unique := by
    rw [List.map_map, show key ∘ f = key from funext hf]
    exact t.unique

@[simp] theorem mem_update {t : Table key} {f : ρ → ρ} {hf : ∀ r, key (f r) = key r}
    {r : ρ} : r ∈ t.update f hf ↔ ∃ r' ∈ t, f r' = r := by
  simp [update, mem_def]

theorem mem_update_of_mem {t : Table key} {f : ρ → ρ} (hf : ∀ r, key (f r) = key r) (hr : r ∈ t) :
    f r ∈ t.update f hf := mem_update.mpr ⟨r, hr, rfl⟩

@[simp] theorem find?_update [DecidableEq κ] {t : Table key} {f : ρ → ρ}
    {hf : ∀ r, key (f r) = key r} (k : κ) :
    (t.update f hf).find? k = (t.find? k).map f := by
  ext r
  simp only [find?_eq_some, mem_update, Option.map_eq_some_iff]
  constructor
  · rintro ⟨⟨r', hr', rfl⟩, hkey⟩
    exact ⟨r', ⟨hr', (hf r').symm.trans hkey⟩, rfl⟩
  · rintro ⟨r', ⟨hr', hkey⟩, rfl⟩
    exact ⟨⟨r', hr', rfl⟩, (hf r').trans hkey⟩

/-! ## Deletion -/

/-- `DELETE`: remove the rows a predicate selects. -/
def delete (t : Table key) (p : ρ → Bool) : Table key where
  rows := t.rows.filter fun r => !p r
  unique := t.unique.sublist (List.filter_sublist.map key)

@[simp] theorem mem_delete {t : Table key} : r ∈ t.delete p ↔ r ∈ t ∧ p r = false := by
  simp [delete, mem_def]

theorem find?_delete [DecidableEq κ] {t : Table key} (k : κ) :
    (t.delete p).find? k = (t.find? k).filter fun r => !p r := by
  ext r
  simp only [find?_eq_some, mem_delete, Option.filter_eq_some_iff, Bool.not_eq_true']
  tauto

/-- One deletion after another. -/
theorem delete_delete (t : Table key) (p q : ρ → Bool) :
    (t.delete p).delete q = t.delete fun r => p r || q r := by
  ext1
  simp only [delete, List.filter_filter]
  refine List.filter_congr fun r _ => ?_
  cases p r <;> simp

/-- A deletion leaves the table when it selects nothing. -/
theorem delete_eq_self {t : Table key} : t.delete p = t ↔ ∀ r ∈ t, p r = false := by
  rw [Table.ext_iff, delete]
  simp [mem_def]

/-- A deletion does not disturb a selection it takes nothing from. -/
theorem filter_delete {t : Table key} {q : ρ → Bool} (h : ∀ r ∈ t, p r = true → q r = false) :
    (t.delete p).rows.filter q = t.rows.filter q := by
  rw [delete, List.filter_filter]
  refine List.filter_congr fun r hr => ?_
  cases hp : p r with
  | false => simp
  | true => simp [h r hr hp]

/-- Deleting one row after another keeps the rows that no deletion selects. -/
theorem mem_foldl_delete {ι : Type*} (p : ι → ρ → Bool) {t : Table key} (xs : List ι) :
    r ∈ xs.foldl (fun t x => t.delete (p x)) t ↔ r ∈ t ∧ ∀ x ∈ xs, p x r = false := by
  induction xs generalizing t with
  | nil => simp
  | cons x xs ih =>
    rw [List.foldl_cons, ih, mem_delete, List.forall_mem_cons, and_assoc]

/-! ## Upsert -/

section Put

variable [DecidableEq κ]

/-- `INSERT … ON CONFLICT DO UPDATE`: the row takes its key over. -/
def put (t : Table key) (r : ρ) : Table key :=
  if h : t.find? (key r) = none then t.push r h
  else
    ⟨t.rows.map fun r' => if key r' = key r then r else r', by
      have hkey : ∀ r', key (if key r' = key r then r else r') = key r' := by
        intro r'
        by_cases h' : key r' = key r <;> simp [h']
      rw [List.map_map, show key ∘ (fun r' => if key r' = key r then r else r') = key from
        funext hkey]
      exact t.unique⟩

theorem put_of_free {t : Table key} (h : t.find? (key r) = none) : t.put r = t.push r h := dif_pos h

@[simp] theorem mem_put {t : Table key} : r' ∈ t.put r ↔ r' = r ∨ (r' ∈ t ∧ key r' ≠ key r) := by
  unfold put
  split
  · rename_i h
    rw [mem_push]
    constructor
    · rintro (hr' | rfl)
      · exact .inr ⟨hr', find?_eq_none.mp h r' hr'⟩
      · exact .inl rfl
    · rintro (rfl | ⟨hr', -⟩)
      · exact .inr rfl
      · exact .inl hr'
  · rename_i h
    obtain ⟨r₀, h₀⟩ := Option.ne_none_iff_exists'.mp h
    simp only [mem_def, List.mem_map]
    constructor
    · rintro ⟨r₁, h₁, rfl⟩
      by_cases hk : key r₁ = key r
      · simp [hk]
      · rw [if_neg hk]
        exact .inr ⟨h₁, hk⟩
    · rintro (rfl | ⟨hr', hk⟩)
      · exact ⟨r₀, mem_of_find? h₀, by simp [key_of_find? h₀]⟩
      · exact ⟨r', hr', by simp [hk]⟩

@[simp] theorem find?_put {t : Table key} (k : κ) :
    (t.put r).find? k = if key r = k then some r else t.find? k := by
  by_cases hk : key r = k
  · simp [hk, find?_eq_some]
  · ext r'
    simp only [hk, if_false, find?_eq_some, mem_put]
    constructor
    · rintro ⟨rfl | ⟨hr', -⟩, hkey⟩
      · exact absurd hkey hk
      · exact ⟨hr', hkey⟩
    · rintro ⟨hr', hkey⟩
      exact ⟨.inr ⟨hr', fun h => hk (h.symm.trans hkey)⟩, hkey⟩

/-- Upserting the rows of another table one after another makes the keys among them
read as they do there. -/
theorem find?_foldl_put {t u : Table key} {rows : List ρ} (h : ∀ r ∈ rows, r ∈ u) (k : κ) :
    (rows.foldl put t).find? k = if k ∈ rows.map key then u.find? k else t.find? k := by
  induction rows generalizing t with
  | nil => simp
  | cons r rows ih =>
    obtain ⟨hr, hrows⟩ := List.forall_mem_cons.mp h
    rw [List.foldl_cons, ih hrows]
    by_cases hk : k ∈ rows.map key
    · simp [hk]
    · by_cases hkey : key r = k
      · subst hkey
        simp [find?_of_mem hr]
      · have hkey' : k ≠ key r := fun heq => hkey heq.symm
        simp [hkey, hkey']

/-- An upsert does not disturb a selection that leaves its key out. -/
theorem filter_put {t : Table key} {q : ρ → Bool} (h : ∀ r', key r' = key r → q r' = false) :
    (t.put r).rows.filter q = t.rows.filter q := by
  unfold put
  split
  · simp [push, h r rfl]
  · dsimp only
    induction t.rows with
    | nil => rfl
    | cons r' rows ih =>
      rw [List.map_cons, List.filter_cons, List.filter_cons, ih]
      by_cases hk : key r' = key r
      · simp [hk, h r rfl, h r' hk]
      · simp [hk]

end Put

end Table

end Argmax.Lib
