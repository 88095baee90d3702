/-
Reading a listing page by page.

A client fetches one page after another, keeps the items whose key it has not seen, stops
at a cap, and may stop after any page for a reason of its own.  `Drain` is that loop as a
relation: the pages it asks for and what it returns.  Whatever the pages hold, the items
have different keys and are no more than the cap, and a page that cannot be read leaves
nothing; if the pages are slices of one list, the items are the first ones of that list,
provided the client's own reason does not stop it early.
-/
import Mathlib.Data.List.Nodup
import Mathlib.Data.List.TakeDrop
import Mathlib.Order.Nat

namespace Lib

variable {α κ ι : Type}

section

variable [DecidableEq κ] (key : α → κ) (cap : Nat)

/-- The items of a page whose key is new, up to a cap: all so far, and whether it was reached. -/
def takeNew : List α → List α → List α × Bool
  | acc, [] => (acc, false)
  | acc, x :: page =>
    if key x ∈ acc.map key then takeNew acc page
    else if cap ≤ (acc ++ [x]).length then (acc ++ [x], true)
    else takeNew (acc ++ [x]) page

variable {key cap}

/-- What is kept: different keys, and the cap is reached just if the flag says so. -/
theorem takeNew_spec : ∀ {page acc acc' : List α} {full : Bool},
    takeNew key cap acc page = (acc', full) → acc.length < cap → (acc.map key).Nodup →
    (acc'.map key).Nodup ∧ acc.length ≤ acc'.length ∧
      if full then acc'.length = cap else acc'.length < cap := by
  intro page
  induction page with
  | nil =>
    intro acc acc' full h hlt hnodup
    obtain ⟨rfl, rfl⟩ := Prod.mk.inj h
    exact ⟨hnodup, le_refl _, hlt⟩
  | cons x page ih =>
    intro acc acc' full h hlt hnodup
    unfold takeNew at h
    by_cases hseen : key x ∈ acc.map key
    · rw [if_pos hseen] at h
      exact ih h hlt hnodup
    · rw [if_neg hseen] at h
      have hnodup' : ((acc ++ [x]).map key).Nodup := by
        rw [List.map_append]
        exact List.nodup_append.mpr ⟨hnodup, List.nodup_singleton _,
          fun a ha b hb hab => hseen (List.mem_singleton.mp hb ▸ hab ▸ ha)⟩
      have hlength : (acc ++ [x]).length = acc.length + 1 := by simp
      by_cases hfull : cap ≤ (acc ++ [x]).length
      · rw [if_pos hfull] at h
        obtain ⟨rfl, rfl⟩ := Prod.mk.inj h
        refine ⟨hnodup', by omega, ?_⟩
        rw [if_pos rfl]
        omega
      · rw [if_neg hfull] at h
        obtain ⟨hkeys, hle, hend⟩ := ih h (not_le.mp hfull) hnodup'
        exact ⟨hkeys, by omega, hend⟩

/-- A page of new items is kept whole, or up to the cap. -/
theorem takeNew_of_nodup : ∀ {page acc : List α}, ((acc ++ page).map key).Nodup →
    acc.length < cap → takeNew key cap acc page =
      if cap ≤ (acc ++ page).length then ((acc ++ page).take cap, true)
      else (acc ++ page, false) := by
  intro page
  induction page with
  | nil =>
    intro acc _ hlt
    rw [List.append_nil, if_neg (not_le.mpr hlt)]
    rfl
  | cons x page ih =>
    intro acc hnodup hlt
    have hsplit : acc ++ x :: page = (acc ++ [x]) ++ page := by simp
    have hnew : key x ∉ acc.map key := by
      rw [List.map_append, List.nodup_append] at hnodup
      intro hmem
      exact hnodup.2.2 _ hmem _ List.mem_cons_self rfl
    unfold takeNew
    rw [if_neg hnew]
    by_cases hfull : cap ≤ (acc ++ [x]).length
    · have hexact : (acc ++ [x]).length = cap := by
        rw [List.length_append, List.length_singleton] at hfull ⊢
        omega
      have hle : cap ≤ (acc ++ x :: page).length := by
        rw [hsplit, List.length_append]
        omega
      rw [if_pos hfull, if_pos hle, hsplit, ← hexact, List.take_left]
    · rw [if_neg hfull, hsplit]
      rw [hsplit] at hnodup
      exact ih hnodup (not_le.mp hfull)

/-- A slice of a list after what comes before it. -/
theorem takeNew_slice {xs : List α} (hnodup : (xs.map key).Nodup) {offset limit : Nat}
    (hlt : (xs.take offset).length < cap) :
    takeNew key cap (xs.take offset) ((xs.drop offset).take limit) =
      if cap ≤ (xs.take (offset + limit)).length then (xs.take cap, true)
      else (xs.take (offset + limit), false) := by
  have hjoin : xs.take offset ++ (xs.drop offset).take limit = xs.take (offset + limit) :=
    List.take_add.symm
  have hkeys : ((xs.take (offset + limit)).map key).Nodup := by
    rw [List.map_take]
    exact hnodup.sublist (List.take_sublist _ _)
  rw [takeNew_of_nodup (by rw [hjoin]; exact hkeys) hlt, hjoin]
  by_cases hfull : cap ≤ (xs.take (offset + limit)).length
  · have hcap : cap ≤ offset + limit := hfull.trans (List.length_take_le _ _)
    rw [if_pos hfull, if_pos hfull, List.take_take, Nat.min_eq_left hcap]
  · rw [if_neg hfull, if_neg hfull]

end

/-! ### The loop -/

section

variable [DecidableEq κ] (key : α → κ) (cap : Nat) (next : ι → ι) (fetch : ι → Option (List α))
  (stop : ι → List α → List α → List α → Prop)

/-- The loop from a page on, with the items so far: the pages asked for and the result.  `stop` is
the client's own reason to end after a page, from the items before and after it. -/
inductive Drain : ι → List α → List ι → Option (List α) → Prop
  | failed {i : ι} {acc : List α} (h : fetch i = none) : Drain i acc [i] none
  | capped {i : ι} {acc acc' page : List α} (h : fetch i = some page)
      (hadd : takeNew key cap acc page = (acc', true)) : Drain i acc [i] (some acc')
  | last {i : ι} {acc acc' page : List α} (h : fetch i = some page)
      (hadd : takeNew key cap acc page = (acc', false)) (hstop : stop i page acc acc') :
      Drain i acc [i] (some acc')
  | more {i : ι} {acc acc' page : List α} {asked : List ι} {r : Option (List α)}
      (h : fetch i = some page) (hadd : takeNew key cap acc page = (acc', false))
      (hgo : ¬stop i page acc acc') (rest : Drain (next i) acc' asked r) :
      Drain i acc (i :: asked) r

variable {key cap next fetch stop} {i : ι} {acc : List α} {asked : List ι} {r : Option (List α)}

theorem Drain.kept (h : Drain key cap next fetch stop i acc asked r) (hlt : acc.length < cap)
    (hnodup : (acc.map key).Nodup) {ys : List α} (hr : r = some ys) :
    (ys.map key).Nodup ∧ ys.length ≤ cap := by
  induction h with
  | failed => cases hr
  | capped _ hadd =>
    obtain rfl := Option.some.inj hr
    obtain ⟨hkeys, -, hend⟩ := takeNew_spec hadd hlt hnodup
    exact ⟨hkeys, le_of_eq hend⟩
  | last _ hadd _ =>
    obtain rfl := Option.some.inj hr
    obtain ⟨hkeys, -, hend⟩ := takeNew_spec hadd hlt hnodup
    exact ⟨hkeys, le_of_lt hend⟩
  | more _ hadd _ _ ih =>
    obtain ⟨hkeys, -, hend⟩ := takeNew_spec hadd hlt hnodup
    exact ih hend hkeys hr

/-- One page that cannot be read, and nothing is returned. -/
theorem Drain.all_or_nothing (h : Drain key cap next fetch stop i acc asked r) {j : ι}
    (hj : j ∈ asked) (hfail : fetch j = none) : r = none := by
  induction h with
  | failed => rfl
  | capped h =>
    rw [List.mem_singleton.mp hj, h] at hfail
    cases hfail
  | last h =>
    rw [List.mem_singleton.mp hj, h] at hfail
    cases hfail
  | more h _ _ _ ih =>
    rcases List.mem_cons.mp hj with rfl | hj
    · rw [h] at hfail
      cases hfail
    · exact ih hj

/-- A measure that every turn lowers bounds the pages asked for. -/
theorem Drain.asked_le (μ : ι → List α → Nat)
    (hdown : ∀ i page acc acc', fetch i = some page → takeNew key cap acc page = (acc', false) →
      ¬stop i page acc acc' → acc.length < cap → (acc.map key).Nodup → μ (next i) acc' < μ i acc)
    (h : Drain key cap next fetch stop i acc asked r) (hlt : acc.length < cap)
    (hnodup : (acc.map key).Nodup) : asked.length ≤ μ i acc + 1 := by
  induction h with
  | failed => simp
  | capped => simp
  | last => simp
  | more h hadd hgo _ ih =>
    obtain ⟨hkeys, -, hend⟩ := takeNew_spec hadd hlt hnodup
    have hrest := ih hend hkeys
    have hmeasure := hdown _ _ _ _ h hadd hgo hlt hnodup
    rw [List.length_cons]
    omega

/-- A loop that ends at a page without anything new asks for no more pages than the cap. -/
theorem Drain.asked_le_cap (hcap : 0 < cap)
    (hprogress : ∀ i page acc acc', fetch i = some page → ¬stop i page acc acc' →
      acc'.length ≠ acc.length)
    (h : Drain key cap next fetch stop i [] asked r) : asked.length ≤ cap := by
  have hasked := h.asked_le (fun _ acc => cap - 1 - acc.length)
    (fun i page acc acc' hfetch hadd hgo hlt hnodup => by
      obtain ⟨-, hle, hend⟩ := takeNew_spec hadd hlt hnodup
      have hnew := hprogress i page acc acc' hfetch hgo
      have hfits : acc'.length < cap := hend
      omega) hcap List.nodup_nil
  change asked.length ≤ cap - 1 - 0 + 1 at hasked
  omega

/-- **Slices of one list are read completely**, if the client's own reason ends the loop only where
the list has ended.  `starts` says at which offset a page starts. -/
theorem Drain.complete {xs : List α} (limit : Nat) (starts : ι → Nat → Prop)
    (hnext : ∀ i offset, starts i offset → starts (next i) (offset + limit))
    (hnodup : (xs.map key).Nodup)
    (hserves : ∀ i offset, starts i offset → fetch i = some ((xs.drop offset).take limit))
    (hstop : ∀ i offset, starts i offset → (xs.take (offset + limit)).length < cap →
      stop i ((xs.drop offset).take limit) (xs.take offset) (xs.take (offset + limit)) →
      xs.length ≤ offset + limit)
    (h : Drain key cap next fetch stop i acc asked r) {offset : Nat} (hi : starts i offset)
    (hacc : acc = xs.take offset) (hlt : acc.length < cap) : r = some (xs.take cap) := by
  induction h generalizing offset with
  | failed h =>
    rw [hserves _ _ hi] at h
    cases h
  | capped h hadd =>
    rw [hserves _ _ hi] at h
    obtain rfl := Option.some.inj h
    rw [hacc] at hadd hlt
    rw [takeNew_slice hnodup hlt] at hadd
    split at hadd
    · rw [(Prod.mk.inj hadd).1]
    · cases (Prod.mk.inj hadd).2
  | last h hadd hend =>
    rw [hserves _ _ hi] at h
    obtain rfl := Option.some.inj h
    rw [hacc] at hadd hlt hend
    rw [takeNew_slice hnodup hlt] at hadd
    split at hadd
    · cases (Prod.mk.inj hadd).2
    · rename_i hfits
      obtain ⟨rfl, -⟩ := Prod.mk.inj hadd
      have hall := hstop _ _ hi (not_le.mp hfits) hend
      rw [List.take_of_length_le hall] at hfits ⊢
      rw [List.take_of_length_le (le_of_lt (not_le.mp hfits))]
  | more h hadd _ _ ih =>
    rw [hserves _ _ hi] at h
    obtain rfl := Option.some.inj h
    rw [hacc] at hadd hlt
    rw [takeNew_slice hnodup hlt] at hadd
    split at hadd
    · cases (Prod.mk.inj hadd).2
    · rename_i hfits
      obtain ⟨rfl, -⟩ := Prod.mk.inj hadd
      exact ih (hnext _ _ hi) rfl (not_le.mp hfits)

end

end Lib
