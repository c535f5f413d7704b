import Mathlib.Data.List.Basic

/-!
# Shared cells

A heap of cells that several holders may refer to. A holder remembers, as a ghost, what its
cell held when it took the reference, and is intact while the cell still holds that.

## Main results

* `Held.intact_write_iff` — the writes an intact holder survives.
-/

/-- Reference `r` is the `r`-th cell. -/
structure Heap (α : Type*) where
  cells : List α

/-- A reference and what its cell held when it was taken. -/
structure Held (α : Type*) where
  ref : ℕ
  saved : α

namespace Heap

variable {α : Type*}

def size (h : Heap α) : ℕ := h.cells.length

def read [Inhabited α] (h : Heap α) (r : ℕ) : α := h.cells.getD r default

def write (h : Heap α) (r : ℕ) (a : α) : Heap α := ⟨h.cells.set r a⟩

/-- A new cell. -/
def alloc (h : Heap α) (a : α) : ℕ × Heap α := (h.size, ⟨h.cells ++ [a]⟩)

variable {h : Heap α} {r r' : ℕ} {a : α}

@[simp] theorem size_write : (h.write r a).size = h.size := List.length_set

@[simp] theorem fst_alloc : (h.alloc a).1 = h.size := rfl

@[simp] theorem size_alloc : (h.alloc a).2.size = h.size + 1 := by
  simp [size, alloc]

variable [Inhabited α]

theorem read_write_self (hr : r < h.size) : (h.write r a).read r = a := by
  unfold size at hr
  simp [read, write, List.getD_eq_getElem?_getD, hr]

theorem read_write_of_ne (hr : r' ≠ r) : (h.write r a).read r' = h.read r' := by
  simp [read, write, List.getD_eq_getElem?_getD, List.getElem?_set_ne hr.symm]

@[simp] theorem read_alloc_self : (h.alloc a).2.read h.size = a := by
  simp [read, alloc, size, List.getD_eq_getElem?_getD]

theorem read_alloc_of_lt (hr : r < h.size) : (h.alloc a).2.read r = h.read r := by
  unfold size at hr
  simp [read, alloc, List.getD_eq_getElem?_getD, List.getElem?_append_left hr]

end Heap

namespace Held

variable {α : Type*} [Inhabited α]

def Intact (h : Heap α) (x : Held α) : Prop := h.read x.ref = x.saved

variable {h : Heap α} {x : Held α} {r : ℕ} {a : α}

theorem Intact.alloc (hx : x.Intact h) (hlt : x.ref < h.size) : x.Intact (h.alloc a).2 :=
  (Heap.read_alloc_of_lt hlt).trans hx

/-- A write spares a holder exactly if it goes to another cell or changes nothing. -/
theorem intact_write_iff (hx : x.Intact h) (hlt : x.ref < h.size) :
    x.Intact (h.write r a) ↔ (x.ref = r → a = h.read r) := by
  unfold Intact at hx ⊢
  by_cases hr : x.ref = r
  · subst hr
    rw [Heap.read_write_self hlt, hx]
    simp
  · rw [Heap.read_write_of_ne hr]
    exact iff_of_true hx fun h => absurd h hr

end Held
