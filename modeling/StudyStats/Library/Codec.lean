import Mathlib.Data.List.Basic

/-!
# Writers and readers

A codec writes a value as symbols at the end of a stream and reads one from the front. Not every
value has to survive this: `Fits` says which do.

## Main results

* `readMany_flatMap` — values written one after the other are read back.
-/

/-- What fits comes back as it was written, and what follows it is left. -/
structure Codec (B α : Type*) where
  write : α → List B
  read : List B → Option (α × List B)
  Fits : α → Prop
  read_write : ∀ x, Fits x → ∀ rest, read (write x ++ rest) = some (x, rest)

namespace Codec

variable {B α β : Type*}

/-- Read `n` values. -/
def readMany (codec : Codec B α) : ℕ → List B → Option (List α × List B)
  | 0, stream => some ([], stream)
  | n + 1, stream =>
    (codec.read stream).bind fun (x, stream) =>
      (codec.readMany n stream).map fun (l, rest) => (x :: l, rest)

theorem readMany_flatMap (codec : Codec B α) {l : List α} (hfits : ∀ x ∈ l, codec.Fits x)
    (rest : List B) :
    codec.readMany l.length (l.flatMap codec.write ++ rest) = some (l, rest) := by
  induction l with
  | nil => rfl
  | cons x l ih =>
    obtain ⟨hx, hl⟩ := List.forall_mem_cons.1 hfits
    rw [List.flatMap_cons, List.append_assoc, List.length_cons, readMany, codec.read_write x hx,
      Option.bind_some]
    simp only [ih hl, Option.map_some]

/-- One value after the other. -/
def pair (first : Codec B α) (second : Codec B β) : Codec B (α × β) where
  write p := first.write p.1 ++ second.write p.2
  read stream :=
    (first.read stream).bind fun (x, stream) =>
      (second.read stream).map fun (y, rest) => ((x, y), rest)
  Fits p := first.Fits p.1 ∧ second.Fits p.2
  read_write := by
    rintro ⟨x, y⟩ ⟨hx, hy⟩ rest
    rw [List.append_assoc, first.read_write x hx, Option.bind_some]
    simp only [second.read_write y hy, Option.map_some]

/-- A list after its length. -/
def counted (length : Codec B ℕ) (codec : Codec B α) : Codec B (List α) where
  write l := length.write l.length ++ l.flatMap codec.write
  read stream := (length.read stream).bind fun (n, stream) => codec.readMany n stream
  Fits l := length.Fits l.length ∧ ∀ x ∈ l, codec.Fits x
  read_write := by
    rintro l ⟨hlength, hl⟩ rest
    rw [List.append_assoc, length.read_write _ hlength, Option.bind_some]
    exact codec.readMany_flatMap hl rest

end Codec
