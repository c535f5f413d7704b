import Mathlib.Data.List.Sort
import Mathlib.Order.Defs.LinearOrder

/-!
# Keyed tables

The rows of a table have distinct keys and are kept in the order of their keys, which is the
order a query meets them in. Writing a row replaces the one with its key.

## Main results

* `Table.mem_set` — the rows after a write.
* `Table.get?_eq_some_iff` — the row with a key.
* `Table.find?_set` — a query that only the written row answers finds it.
* `Table.filter_length_le_one` — where an attribute is unique, a query by it has one answer.
-/

/-- Rows of type `α` with the keys `key`. -/
structure Table {α κ : Type*} [LinearOrder κ] (key : α → κ) where
  rows : List α
  sorted : (rows.map key).Pairwise (· < ·)

namespace Table

variable {α β κ : Type*} [LinearOrder κ] {key : α → κ} {x y : α} {t : Table key}

def empty : Table key := ⟨[], List.Pairwise.nil⟩

/-- Inserting a new key in its place keeps the keys in order. -/
theorem sorted_orderedInsert {l : List α} (h : (l.map key).Pairwise (· < ·))
    (hx : ∀ y ∈ l, key y ≠ key x) :
    ((l.orderedInsert (fun a b => key a ≤ key b) x).map key).Pairwise (· < ·) := by
  induction l with
  | nil => exact List.pairwise_singleton _ _
  | cons y l ih =>
    obtain ⟨hy, hl⟩ := List.pairwise_cons.1 h
    obtain ⟨hne, hrest⟩ := List.forall_mem_cons.1 hx
    rw [List.orderedInsert_cons]
    split_ifs with hle
    · have hlt : key x < key y := lt_of_le_of_ne hle hne.symm
      refine List.pairwise_cons.2 ⟨?_, h⟩
      intro k hk
      rcases List.mem_cons.1 hk with rfl | hk
      · exact hlt
      · exact hlt.trans (hy k hk)
    · refine List.pairwise_cons.2 ⟨?_, ih hl hrest⟩
      intro k hk
      obtain ⟨z, hz, rfl⟩ := List.mem_map.1 hk
      rcases (List.mem_orderedInsert _).1 hz with rfl | hz
      · exact not_le.1 hle
      · exact hy _ (List.mem_map_of_mem hz)

/-- Write a row. -/
def set (x : α) (t : Table key) : Table key where
  rows := (t.rows.filter fun y => key y ≠ key x).orderedInsert (fun a b => key a ≤ key b) x
  sorted := sorted_orderedInsert (t.sorted.sublist (List.filter_sublist.map key))
    fun _ hy => of_decide_eq_true (List.mem_filter.1 hy).2

theorem mem_set : y ∈ (t.set x).rows ↔ y = x ∨ y ∈ t.rows ∧ key y ≠ key x := by
  simp [set, List.mem_orderedInsert]

/-- A row with a new key joins the others. -/
theorem perm_set (h : ∀ y ∈ t.rows, key y ≠ key x) : (t.set x).rows.Perm (x :: t.rows) := by
  have hall : (t.rows.filter fun y => key y ≠ key x) = t.rows :=
    List.filter_eq_self.2 fun y hy => by simpa using h y hy
  have hperm : (t.set x).rows.Perm (x :: t.rows.filter fun y => key y ≠ key x) :=
    List.perm_orderedInsert _ _ _
  rwa [hall] at hperm

theorem find?_set {p : α → Bool} (hx : p x) (h : ∀ y ∈ t.rows, key y ≠ key x → p y = false) :
    (t.set x).rows.find? p = some x := by
  have hsome : ((t.set x).rows.find? p).isSome :=
    List.find?_isSome.2 ⟨x, mem_set.2 (.inl rfl), hx⟩
  obtain ⟨y, hy⟩ := Option.isSome_iff_exists.1 hsome
  rcases mem_set.1 (List.mem_of_find?_eq_some hy) with rfl | ⟨hmem, hne⟩
  · exact hy
  · have hfalse := h y hmem hne
    rw [List.find?_some hy] at hfalse
    cases hfalse

/-- Remove the row with a key. -/
def erase (k : κ) (t : Table key) : Table key where
  rows := t.rows.filter fun y => key y ≠ k
  sorted := t.sorted.sublist (List.filter_sublist.map key)

theorem mem_erase {k : κ} : y ∈ (t.erase k).rows ↔ y ∈ t.rows ∧ key y ≠ k := by
  simp [erase]

/-- The row with a key. -/
def get? (k : κ) (t : Table key) : Option α := t.rows.find? fun y => key y = k

theorem mem_of_get? {k : κ} (h : t.get? k = some x) : x ∈ t.rows ∧ key x = k :=
  ⟨List.mem_of_find?_eq_some h, by simpa using List.find?_some h⟩

/-- Rows with one key are one row. -/
theorem eq_of_key_eq (hx : x ∈ t.rows) (hy : y ∈ t.rows) (h : key x = key y) : x = y := by
  have hnodup : (t.rows.map key).Nodup := t.sorted.imp ne_of_lt
  exact List.inj_on_of_nodup_map hnodup hx hy h

theorem get?_eq_some_iff {k : κ} : t.get? k = some x ↔ x ∈ t.rows ∧ key x = k := by
  refine ⟨mem_of_get?, fun ⟨hx, hk⟩ => ?_⟩
  cases hy : t.get? k with
  | none => exact absurd hk (by simpa using List.find?_eq_none.1 hy x hx)
  | some y =>
    obtain ⟨hmem, hkey⟩ := mem_of_get? hy
    rw [eq_of_key_eq hmem hx (hkey.trans hk.symm)]

theorem get?_eq_of_mem_iff {t' : Table key} {k : κ}
    (h : ∀ y, key y = k → (y ∈ t'.rows ↔ y ∈ t.rows)) : t'.get? k = t.get? k := by
  ext y
  simp only [get?_eq_some_iff]
  exact and_congr_left (h y)

theorem get?_set (k : κ) : (t.set x).get? k = if key x = k then some x else t.get? k := by
  split_ifs with hk
  · exact get?_eq_some_iff.2 ⟨mem_set.2 (.inl rfl), hk⟩
  · refine get?_eq_of_mem_iff fun y hy => ?_
    rw [mem_set]
    grind

theorem get?_erase (k j : κ) : (t.erase j).get? k = if j = k then none else t.get? k := by
  split_ifs with hk
  · refine Option.eq_none_iff_forall_not_mem.2 fun y hy => ?_
    obtain ⟨hmem, hkey⟩ := mem_of_get? hy
    exact (mem_erase.1 hmem).2 (hkey.trans hk.symm)
  · refine get?_eq_of_mem_iff fun y hy => ?_
    rw [mem_erase]
    grind

/-- At most one row has a given value of an attribute that no two rows share. -/
theorem filter_length_le_one [DecidableEq β] {g : α → β} {l : List α} (h : (l.map g).Nodup)
    (b : β) : (l.filter fun x => g x = b).length ≤ 1 := by
  rw [← List.countP_eq_length_filter]
  calc l.countP (fun x => decide (g x = b)) = (l.map g).count b := by
        rw [List.count, List.countP_map]
        rfl
    _ ≤ 1 := List.nodup_iff_count_le_one.1 h b

end Table
