import Mathlib.Data.List.Nodup
import StudyStats.Library.Codec

/-!
# Records of tagged fields

A record is written as the number of its fields and then every field with its tag before it. It
is read back from the last value under each tag, so the order of the fields does not matter, and
neither do fields that the reader does not ask for. A field that is null may as well be missing.

## Main results

* `RecordFormat.codec` — what was written is read back, and what follows it is left.
* `RecordFormat.read_of_perm` — so is any other writing of the same fields.
-/

namespace TaggedRecord

variable {B V α : Type*}

/-- Fields with their tags. -/
abbrev Fields (V : Type*) := List (ℕ × V)

/-- Their number, and every field after its tag. -/
def fieldsCodec (byte : Codec B ℕ) (value : Codec B V) : Codec B (Fields V) :=
  .counted byte (.pair byte value)

/-- The tags are the first bytes. -/
theorem fieldsCodec_fits {byte : Codec B ℕ} {value : Codec B V} {fields : Fields V} {n : ℕ}
    (hbyte : ∀ m ≤ n, byte.Fits m) (htags : fields.map Prod.fst = List.range n)
    (hvalue : ∀ f ∈ fields, value.Fits f.2) : (fieldsCodec byte value).Fits fields := by
  have hlength : fields.length = n := by
    rw [← List.length_map (f := Prod.fst), htags, List.length_range]
  refine ⟨hbyte _ (Nat.le_of_eq hlength), fun f hf => ⟨hbyte _ ?_, hvalue f hf⟩⟩
  have hmem : f.1 ∈ List.range n := htags ▸ List.mem_map_of_mem hf
  exact Nat.le_of_lt (List.mem_range.1 hmem)

/-- The value under a tag, if there is one: a later one replaces an earlier one. -/
def get? (fields : Fields V) (tag : ℕ) : Option V := fields.reverse.lookup tag

def get (null : V) (fields : Fields V) (tag : ℕ) : V := (get? fields tag).getD null

theorem lookup_eq_some_of_mem {l : Fields V} (h : (l.map Prod.fst).Nodup) {tag : ℕ} {v : V}
    (hmem : (tag, v) ∈ l) : l.lookup tag = some v := by
  induction l with
  | nil => cases hmem
  | cons f l ih =>
    obtain ⟨hf, hrest⟩ := List.nodup_cons.1 h
    rcases List.mem_cons.1 hmem with rfl | hmem
    · simp
    · have hne : tag ≠ f.1 := fun heq => hf (heq ▸ List.mem_map_of_mem hmem)
      rw [List.lookup_cons, beq_false_of_ne hne]
      exact ih hrest hmem

/-- Where every tag is used once, its field is the one found. -/
theorem get?_eq_some_of_mem {fields : Fields V} (h : (fields.map Prod.fst).Nodup) {tag : ℕ} {v : V}
    (hmem : (tag, v) ∈ fields) : get? fields tag = some v := by
  refine lookup_eq_some_of_mem ?_ (List.mem_reverse.2 hmem)
  rw [List.map_reverse, List.nodup_reverse]
  exact h

theorem get?_eq_none_of_forall_ne {fields : Fields V} {tag : ℕ} (h : ∀ f ∈ fields, f.1 ≠ tag) :
    get? fields tag = none := by
  unfold get?
  rw [List.lookup_eq_none_iff]
  intro f hf
  exact bne_iff_ne.2 (h f (List.mem_reverse.1 hf)).symm

/-- How a type is written and read: its fields, and what is built from those that are there. The
reader only asks for the fields that are written, and takes a missing one for null. -/
structure RecordFormat (V α : Type*) where
  null : V
  fields : α → Fields V
  build : (ℕ → V) → Option α
  nodup : ∀ x, ((fields x).map Prod.fst).Nodup
  build_fields : ∀ x, build (get null (fields x)) = some x
  build_congr : ∀ x (f g : ℕ → V), (∀ tag ∈ (fields x).map Prod.fst, f tag = g tag) →
    build f = build g

namespace RecordFormat

variable (format : RecordFormat V α) (byte : Codec B ℕ) (value : Codec B V)

def read (stream : List B) : Option (α × List B) :=
  ((fieldsCodec byte value).read stream).bind fun (fields, rest) =>
    (format.build (get format.null fields)).map fun x => (x, rest)

/-- Any fields with the same values under the tags of the format make the same record. -/
theorem read_of_same (x : α) {fields : Fields V} (hfits : (fieldsCodec byte value).Fits fields)
    (h : ∀ tag ∈ (format.fields x).map Prod.fst,
      get format.null fields tag = get format.null (format.fields x) tag)
    (rest : List B) :
    format.read byte value ((fieldsCodec byte value).write fields ++ rest) = some (x, rest) := by
  have hbuild : format.build (get format.null fields) = some x := by
    rw [format.build_congr x _ _ h, format.build_fields]
  rw [read, (fieldsCodec byte value).read_write fields hfits, Option.bind_some]
  simp only [hbuild, Option.map_some]

/-- Records by their fields. -/
def codec : Codec B α where
  write x := (fieldsCodec byte value).write (format.fields x)
  read := format.read byte value
  Fits x := (fieldsCodec byte value).Fits (format.fields x)
  read_write x hfits := format.read_of_same byte value x hfits fun _ _ => rfl

/-- Fields in another order, without some that are null and with others between them. -/
theorem read_of_perm {x : α} {fields kept others : Fields V}
    (hperm : fields.Perm (kept ++ others)) (hnodup : (fields.map Prod.fst).Nodup)
    (hkept : ∀ f ∈ kept, f ∈ format.fields x)
    (hall : ∀ f ∈ format.fields x, f.2 ≠ format.null → f ∈ kept)
    (hothers : ∀ f ∈ others, f.1 ∉ (format.fields x).map Prod.fst)
    (hfits : (fieldsCodec byte value).Fits fields) (rest : List B) :
    format.read byte value ((fieldsCodec byte value).write fields ++ rest) = some (x, rest) := by
  refine format.read_of_same byte value x hfits (fun tag htag => ?_) rest
  obtain ⟨⟨k, v⟩, hmem, rfl⟩ := List.mem_map.1 htag
  rw [get, get, get?_eq_some_of_mem (format.nodup x) hmem]
  by_cases hin : (k, v) ∈ kept
  · rw [get?_eq_some_of_mem hnodup (hperm.mem_iff.2 (List.mem_append_left _ hin))]
  · have hnull : v = format.null := by
      by_contra hne
      exact hin (hall _ hmem hne)
    -- no other field has the tag of the one left out
    have hnone : get? fields k = none := by
      refine get?_eq_none_of_forall_ne fun f hf hfk => ?_
      rcases List.mem_append.1 (hperm.mem_iff.1 hf) with hf | hf
      · have hsame : f = (k, v) := List.inj_on_of_nodup_map (format.nodup x) (hkept f hf) hmem hfk
        exact hin (hsame ▸ hf)
      · exact hothers f hf (hfk ▸ htag)
    rw [hnone, Option.getD_none, Option.getD_some, hnull]

end RecordFormat

end TaggedRecord
