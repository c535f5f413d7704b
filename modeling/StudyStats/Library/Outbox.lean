import Mathlib.Data.List.Basic

/-!
# Outboxes

A replica changes its own copy of a value at once and puts the write into a queue, whose writes
reach the stored values one after the other. What a stored value will be once the queue is empty
changes with every write that is sent just as the copy does, and a delivery leaves it as it is.

## Main results

* `drain_send`, `drain_cons` — sending and delivering.
* `drain_of_forall_ne` — a queue without writes to a value has left it as it was.
-/

namespace Outbox

variable {W κ V : Type*} [DecidableEq κ] {key : W → κ} {write : W → V → V}

/-- The value under `k` once the queue is delivered, if `v` is stored now. -/
def drain (key : W → κ) (write : W → V → V) (k : κ) (queue : List W) (v : V) : V :=
  queue.foldl (fun v x => if key x = k then write x v else v) v

variable {k : κ} {queue : List W} {x : W} {v : V}

@[simp] theorem drain_nil : drain key write k [] v = v := rfl

theorem drain_cons : drain key write k (x :: queue) v =
    drain key write k queue (if key x = k then write x v else v) := rfl

theorem drain_send : drain key write k (queue ++ [x]) v =
    if key x = k then write x (drain key write k queue v) else drain key write k queue v :=
  List.foldl_concat _ v x queue

theorem drain_of_forall_ne (h : ∀ x ∈ queue, key x ≠ k) : drain key write k queue v = v := by
  induction queue with
  | nil => rfl
  | cons x queue ih =>
    obtain ⟨hx, hrest⟩ := List.forall_mem_cons.1 h
    rw [drain_cons, if_neg hx]
    exact ih hrest

/-- A value that no write changes stays. -/
theorem drain_of_forall_eq (h : ∀ x, write x v = v) : drain key write k queue v = v := by
  induction queue with
  | nil => rfl
  | cons x queue ih =>
    rw [drain_cons, h, ite_self]
    exact ih

end Outbox
