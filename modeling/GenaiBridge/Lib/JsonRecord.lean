/-
Records as JSON objects, with fields that are left out when they are empty.

A record is written slot by slot.  Names are matched up to case when it is read, so a
record is read as it was written if the names of its slots differ by more than case:
a slot that was left out keeps the empty value its field starts with.
-/
import GenaiBridge.Lib.Json

namespace Lib.Json

/-- A field of a record: its name, whether it is left out when empty, and its value. -/
structure Slot where
  name : List Char
  omitEmpty : Bool
  value : Scalar

/-- The values that count as empty. -/
def Scalar.isEmpty : Scalar → Bool
  | .text s => s.isEmpty
  | .int i => i == 0

/-- What is written of a slot. -/
def Slot.written (s : Slot) : List (List Char × Scalar) :=
  if s.omitEmpty && s.value.isEmpty then [] else [(s.name, s.value)]

/-- The text of a record. -/
def encodeRecord (slots : List Slot) : List Char := encode (slots.flatMap Slot.written)

/-- A written record is read as the members written. -/
theorem parse_encodeRecord (slots : List Slot) :
    parse (encodeRecord slots) = some (.obj ((slots.flatMap Slot.written).map member)) := by
  unfold encodeRecord
  by_cases h : slots.flatMap Slot.written = []
  · rw [h]
    rfl
  · exact parse_encode h

section Fields

variable {α : Type} {read : Json → Option α}

/-- Members of other names leave a field alone. -/
theorem field_of_forall_ne {name : List Char} {ms : List (List Char × Scalar)}
    (h : ∀ m ∈ ms, name.map foldCase ≠ m.1.map foldCase) (a : α) :
    field read name a (ms.map member) = some a := by
  induction ms with
  | nil => rfl
  | cons m ms ih =>
    rw [List.map_cons, ← List.singleton_append, field_append,
      field_member_ne name m.1 (h m (List.mem_cons_self ..)) a m.2]
    exact ih fun m' hm' => h m' (List.mem_cons_of_mem _ hm')

private theorem ne_of_written {s t : Slot} (h : s.name.map foldCase ≠ t.name.map foldCase) :
    ∀ m ∈ t.written, s.name.map foldCase ≠ m.1.map foldCase := by
  intro m hm
  unfold Slot.written at hm
  split at hm
  · cases hm
  · rw [List.mem_singleton.mp hm]
    exact h

/-- **A field is read as it was written**, if its name is not the name of another slot. -/
theorem field_slot {slots : List Slot} (hnames : (slots.map fun s => s.name.map foldCase).Nodup)
    {s : Slot} (hmem : s ∈ slots) {a zero : α}
    (hread : ∀ z, field read s.name z [member (s.name, s.value)] = some a)
    (hempty : s.value.isEmpty = true → a = zero) :
    field read s.name zero ((slots.flatMap Slot.written).map member) = some a := by
  induction slots with
  | nil => cases hmem
  | cons t slots ih =>
    rw [List.map_cons, List.nodup_cons] at hnames
    rw [List.flatMap_cons, List.map_append, field_append]
    rcases List.mem_cons.mp hmem with rfl | hmem
    · -- the slots behind it have other names
      have hrest : ∀ m ∈ slots.flatMap Slot.written, s.name.map foldCase ≠ m.1.map foldCase := by
        intro m hm
        obtain ⟨t, ht, hm⟩ := List.mem_flatMap.mp hm
        refine ne_of_written (fun heq => hnames.1 ?_) m hm
        exact List.mem_map.mpr ⟨t, ht, heq.symm⟩
      have hhead : field read s.name zero (s.written.map member) = some a := by
        unfold Slot.written
        split
        · rename_i hnone
          rw [hempty (by simp_all)]
          rfl
        · exact hread zero
      rw [hhead]
      exact field_of_forall_ne hrest a
    · have hne : s.name.map foldCase ≠ t.name.map foldCase := fun heq =>
        hnames.1 (List.mem_map.mpr ⟨s, hmem, heq⟩)
      rw [field_of_forall_ne (ne_of_written hne) zero]
      exact ih hnames.2 hmem

theorem field_text_slot {slots : List Slot}
    (hnames : (slots.map fun s => s.name.map foldCase).Nodup) {name text : List Char}
    {omitEmpty : Bool} (hmem : ⟨name, omitEmpty, .text text⟩ ∈ slots) :
    field readText name [] ((slots.flatMap Slot.written).map member) = some text := by
  refine field_slot hnames hmem (fun z => field_member_text z text) fun h => ?_
  simpa [Scalar.isEmpty] using h

theorem field_int_slot {slots : List Slot}
    (hnames : (slots.map fun s => s.name.map foldCase).Nodup) {name : List Char} {i lo hi : Int}
    {omitEmpty : Bool} (hmem : ⟨name, omitEmpty, .int i⟩ ∈ slots) (hlo : lo ≤ i) (hhi : i ≤ hi) :
    field (readInteger lo hi) name 0 ((slots.flatMap Slot.written).map member) = some i := by
  refine field_slot hnames hmem (fun z => field_member_int name hlo hhi z) fun h => ?_
  simpa [Scalar.isEmpty] using h

/-- What holds of the value a field starts with and of every value read holds of the field. -/
theorem field_of_read {P : α → Prop} (hread : ∀ v a, read v = some a → P a) {name : List Char}
    {ms : List (List Char × Json)} {a b : α} (ha : P a) (h : field read name a ms = some b) :
    P b := by
  induction ms generalizing a with
  | nil => exact Option.some.inj h ▸ ha
  | cons m ms ih =>
    obtain ⟨k, v⟩ := m
    simp only [field] at h
    split at h
    · split at h
      · exact ih ha h
      · obtain ⟨c, hc, h⟩ := Option.bind_eq_some_iff.mp h
        exact ih (hread _ _ hc) h
    · exact ih ha h

end Fields

end Lib.Json
