/-
A finite map kept as an association list in key order.

The order is what makes the representation canonical: two maps with the same
entries are the same list, so equality of maps is equality of values, and walking
the entries is walking the sorted keys.  The invariant is a field, so no operation
can produce a list that is out of order or holds a key twice.
-/
import Mathlib.Order.Defs.LinearOrder
import Mathlib.Order.Lattice

namespace Lib

/-- A map from `κ` to `α`: its entries, in strictly ascending key order. -/
structure SortedMap (κ α : Type) [LT κ] where
  entries : List (κ × α)
  /-- Ascending, hence every key once. -/
  sorted : entries.Pairwise fun a b => a.1 < b.1
deriving DecidableEq

namespace SortedMap

variable {κ α : Type} [LinearOrder κ]

/-- The map with no entries. -/
def empty : SortedMap κ α := ⟨[], List.Pairwise.nil⟩

/-- The keys, in ascending order. -/
def keys (m : SortedMap κ α) : List κ := m.entries.map Prod.fst

/-- Put `v` under `k` in an ascending list, replacing what was there. -/
def insertEntry (k : κ) (v : α) : List (κ × α) → List (κ × α)
  | [] => [(k, v)]
  | (k', v') :: rest =>
    if k < k' then (k, v) :: (k', v') :: rest
    else if k' < k then (k', v') :: insertEntry k v rest
    else (k, v) :: rest

theorem mem_insertEntry {k : κ} {v : α} {l : List (κ × α)} {p : κ × α}
    (h : p ∈ insertEntry k v l) : p = (k, v) ∨ p ∈ l := by
  induction l with
  | nil => exact Or.inl (by simpa [insertEntry] using h)
  | cons q rest ih =>
    obtain ⟨k', v'⟩ := q
    unfold insertEntry at h
    split at h
    · exact List.mem_cons.mp h
    · split at h
      · rcases List.mem_cons.mp h with h | h
        · exact Or.inr (by simp [h])
        · rcases ih h with h | h
          · exact Or.inl h
          · exact Or.inr (List.mem_cons_of_mem _ h)
      · rcases List.mem_cons.mp h with h | h
        · exact Or.inl h
        · exact Or.inr (List.mem_cons_of_mem _ h)

theorem sorted_insertEntry (k : κ) (v : α) {l : List (κ × α)}
    (h : l.Pairwise fun a b => a.1 < b.1) :
    (insertEntry k v l).Pairwise fun a b => a.1 < b.1 := by
  induction l with
  | nil => simp [insertEntry]
  | cons q rest ih =>
    obtain ⟨k', v'⟩ := q
    obtain ⟨hhead, hrest⟩ := List.pairwise_cons.mp h
    unfold insertEntry
    split
    · rename_i hlt
      refine List.pairwise_cons.mpr ⟨?_, h⟩
      intro p hp
      rcases List.mem_cons.mp hp with rfl | hp
      · exact hlt
      · exact lt_trans hlt (hhead p hp)
    · rename_i hnlt
      split
      · rename_i hgt
        refine List.pairwise_cons.mpr ⟨?_, ih hrest⟩
        intro p hp
        rcases mem_insertEntry hp with rfl | hp
        · exact hgt
        · exact hhead p hp
      · rename_i hngt
        have heq : k = k' := le_antisymm (not_lt.mp hngt) (not_lt.mp hnlt)
        subst heq
        exact List.pairwise_cons.mpr ⟨hhead, hrest⟩

/-- Put `v` under `k`, replacing what was there. -/
def insert (m : SortedMap κ α) (k : κ) (v : α) : SortedMap κ α :=
  ⟨insertEntry k v m.entries, sorted_insertEntry k v m.sorted⟩

/-- The entries that pass `keep`. -/
def filter (keep : κ × α → Bool) (m : SortedMap κ α) : SortedMap κ α :=
  ⟨m.entries.filter keep, m.sorted.filter keep⟩

/-- What is stored under `k`. -/
def get? (m : SortedMap κ α) (k : κ) : Option α := (m.entries.find? fun p => p.1 = k).map Prod.snd

theorem get?_insert_self (m : SortedMap κ α) (k : κ) (v : α) : (m.insert k v).get? k = some v := by
  suffices h : ∀ l : List (κ × α), (insertEntry k v l).find? (fun p => p.1 = k) = some (k, v) by
    simp [get?, insert, h]
  intro l
  induction l with
  | nil => simp [insertEntry]
  | cons q rest ih =>
    obtain ⟨k', v'⟩ := q
    unfold insertEntry
    split
    · simp
    · split
      · rename_i hgt
        simp [ne_of_lt hgt, ih]
      · simp

theorem get?_insert_of_ne (m : SortedMap κ α) {k j : κ} (v : α) (h : j ≠ k) :
    (m.insert k v).get? j = m.get? j := by
  suffices h : ∀ l : List (κ × α),
      (insertEntry k v l).find? (fun p => p.1 = j) = l.find? (fun p => p.1 = j) by
    simp [get?, insert, h]
  intro l
  induction l with
  | nil => simp [insertEntry, Ne.symm h]
  | cons q rest ih =>
    obtain ⟨k', v'⟩ := q
    unfold insertEntry
    split
    · simp [Ne.symm h]
    · rename_i hnlt
      split
      · simp [List.find?_cons, ih]
      · rename_i hngt
        have heq : k = k' := le_antisymm (not_lt.mp hngt) (not_lt.mp hnlt)
        subst heq
        simp [Ne.symm h]

theorem get?_insert (m : SortedMap κ α) (k j : κ) (v : α) :
    (m.insert k v).get? j = if j = k then some v else m.get? j := by
  split_ifs with h
  · rw [h, get?_insert_self]
  · exact get?_insert_of_ne m v h

theorem get?_insert_eq_none {m : SortedMap κ α} {k j : κ} {v : α} :
    (m.insert k v).get? j = none ↔ j ≠ k ∧ m.get? j = none := by
  rw [get?_insert]
  split_ifs with h <;> simp [h]

@[simp] theorem get?_empty (k : κ) : (empty : SortedMap κ α).get? k = none := rfl

/-! ### Entries -/

theorem get?_eq_some {m : SortedMap κ α} {k : κ} {v : α} :
    m.get? k = some v ↔ (k, v) ∈ m.entries := by
  constructor
  · intro h
    obtain ⟨p, hp, rfl⟩ := Option.map_eq_some_iff.mp h
    have hkey : p.1 = k := by simpa using List.find?_some hp
    exact hkey ▸ List.mem_of_find?_eq_some hp
  · intro h
    obtain ⟨l⟩ := m
    rename_i hsorted
    simp only [get?] at h ⊢
    induction l with
    | nil => cases h
    | cons q rest ih =>
      obtain ⟨hhead, hrest⟩ := List.pairwise_cons.mp hsorted
      rcases List.mem_cons.mp h with rfl | h
      · simp
      · have hne : q.1 ≠ k := ne_of_lt (hhead _ h)
        simpa [List.find?_cons, hne] using ih hrest h

theorem mem_keys {m : SortedMap κ α} {k : κ} : k ∈ m.keys ↔ ∃ v, m.get? k = some v := by
  simp [keys, get?_eq_some]

theorem mem_keys_insert {m : SortedMap κ α} {k j : κ} {v : α} :
    j ∈ (m.insert k v).keys ↔ j = k ∨ j ∈ m.keys := by
  simp only [mem_keys, get?_insert]
  split_ifs with h <;> simp [h]

theorem nodup_keys (m : SortedMap κ α) : m.keys.Nodup :=
  List.pairwise_map.mpr (m.sorted.imp ne_of_lt)

private theorem nodup_entries (m : SortedMap κ α) : m.entries.Nodup :=
  (List.pairwise_map.mp m.nodup_keys).imp fun h heq => h (congrArg Prod.fst heq)

/-- Two maps with the same lookups are the same. -/
theorem ext_get? {m m' : SortedMap κ α} (h : ∀ k, m.get? k = m'.get? k) : m = m' := by
  have hperm : m.entries.Perm m'.entries := by
    refine (List.perm_ext_iff_of_nodup m.nodup_entries m'.nodup_entries).mpr fun p => ?_
    rw [← get?_eq_some, ← get?_eq_some, h]
  have hentries := hperm.eq_of_pairwise
    (fun a b _ _ hab hba => absurd (lt_trans hab hba) (lt_irrefl _)) m.sorted m'.sorted
  cases m
  cases m'
  cases hentries
  rfl

/-- The map without what is stored under `k`. -/
def erase (m : SortedMap κ α) (k : κ) : SortedMap κ α := m.filter fun e => e.1 ≠ k

theorem get?_erase (m : SortedMap κ α) (k j : κ) :
    (m.erase k).get? j = if j = k then none else m.get? j := by
  ext v
  rw [get?_eq_some]
  simp only [erase, filter, List.mem_filter, decide_eq_true_eq]
  split_ifs with h
  · simp [h]
  · simp [h, get?_eq_some]

/-- What was stored under a key, put back. -/
theorem insert_insert_of_get? {m : SortedMap κ α} {k : κ} {v : α} (h : m.get? k = some v) (v' : α) :
    (m.insert k v').insert k v = m := by
  refine ext_get? fun j => ?_
  rw [get?_insert, get?_insert]
  split_ifs with hj
  · rw [hj, h]
  · rfl

theorem erase_insert_of_get? {m : SortedMap κ α} {k : κ} (h : m.get? k = none) (v : α) :
    (m.insert k v).erase k = m := by
  refine ext_get? fun j => ?_
  rw [get?_erase, get?_insert]
  split_ifs with hj
  · rw [hj, h]
  · rfl

/-- The map with every value changed by `f`. -/
def map {β : Type} (f : α → β) (m : SortedMap κ α) : SortedMap κ β :=
  ⟨m.entries.map fun e => (e.1, f e.2), List.pairwise_map.mpr m.sorted⟩

theorem get?_map {β : Type} (f : α → β) (m : SortedMap κ α) (k : κ) :
    (m.map f).get? k = (m.get? k).map f := by
  ext b
  simp only [get?_eq_some, Option.map_eq_some_iff, map, List.mem_map, Prod.mk.injEq]
  constructor
  · rintro ⟨e, he, rfl, rfl⟩
    exact ⟨e.2, he, rfl⟩
  · rintro ⟨a, ha, rfl⟩
    exact ⟨(k, a), ha, rfl, rfl⟩

/-- Two maps that have something under the same keys have the same keys, in the same order. -/
theorem keys_eq_of_get? {β : Type} {m : SortedMap κ α} {m' : SortedMap κ β}
    (h : ∀ k, (m.get? k).isSome = (m'.get? k).isSome) : m.keys = m'.keys := by
  have hkeys : ∀ {γ : Type} (m : SortedMap κ γ), (m.map fun _ => ()).keys = m.keys :=
    fun m => List.map_map
  have hmap : m.map (fun _ => ()) = m'.map fun _ => () := by
    refine ext_get? fun k => ?_
    have hk := h k
    rw [get?_map, get?_map]
    cases hm : m.get? k with
    | none =>
      rw [hm] at hk
      cases hm' : m'.get? k with
      | none => rfl
      | some b => rw [hm'] at hk; cases hk
    | some a =>
      rw [hm] at hk
      cases hm' : m'.get? k with
      | none => rw [hm'] at hk; cases hk
      | some b => rfl
  rw [← hkeys m, hmap, hkeys]

/-! ### Folds over the entries -/

/-- One turn of a loop that collects what `f` makes of the entries. -/
def collectStep {β : Type} (f : κ → α → Option β) (out : SortedMap κ β) (e : κ × α) :
    SortedMap κ β :=
  match f e.1 e.2 with
  | some b => out.insert e.1 b
  | none => out

private theorem get?_foldl_collectStep {β : Type} (f : κ → α → Option β) {l : List (κ × α)}
    (hl : l.Pairwise fun a b => a.1 < b.1) (out : SortedMap κ β) (k : κ) :
    (l.foldl (collectStep f) out).get? k =
      (((l.find? fun p => p.1 = k).map Prod.snd).bind (f k)).or (out.get? k) := by
  induction l generalizing out with
  | nil => simp
  | cons q rest ih =>
    obtain ⟨hhead, hrest⟩ := List.pairwise_cons.mp hl
    rw [List.foldl_cons, ih hrest]
    by_cases hq : q.1 = k
    · -- no other entry has this key
      have hnone : rest.find? (fun p => p.1 = k) = none :=
        List.find?_eq_none.mpr fun p hp => by simpa using ne_of_gt (hq ▸ hhead p hp)
      rw [hnone, List.find?_cons_of_pos (by simpa using hq)]
      simp only [Option.map_none, Option.bind_none, Option.none_or, Option.map_some,
        Option.bind_some]
      unfold collectStep
      cases hf : f q.1 q.2 <;> simp [← hq, hf, get?_insert]
    · have hstep : (collectStep f out q).get? k = out.get? k := by
        unfold collectStep
        split
        · exact get?_insert_of_ne _ _ (Ne.symm hq)
        · rfl
      rw [hstep, List.find?_cons_of_neg (by simpa using hq)]

/-- What such a loop has collected under a key. -/
theorem get?_collect {β : Type} (f : κ → α → Option β) (m : SortedMap κ α) (k : κ) :
    (m.entries.foldl (collectStep f) empty).get? k = (m.get? k).bind (f k) := by
  rw [get?_foldl_collectStep f m.sorted, get?_empty, Option.or_none]
  rfl

/-- A loop over the entries that changes a part of its state at one key only. -/
theorem foldl_at_key {σ β : Type} {step : σ → κ × α → σ} {π : σ → β} {key : κ}
    {set : α → β → β} (hset : ∀ s v, π (step s (key, v)) = set v (π s))
    (hkeep : ∀ s k v, k ≠ key → π (step s (k, v)) = π s) (m : SortedMap κ α) (s : σ) :
    π (m.entries.foldl step s) = (m.get? key).elim (π s) fun v => set v (π s) := by
  suffices h : ∀ (l : List (κ × α)), (l.Pairwise fun a b => a.1 < b.1) → ∀ s,
      π (l.foldl step s) =
        ((l.find? fun p => p.1 = key).map Prod.snd).elim (π s) fun v => set v (π s) from
    h m.entries m.sorted s
  intro l
  induction l with
  | nil => exact fun _ _ => rfl
  | cons q rest ih =>
    intro hl s
    obtain ⟨hhead, hrest⟩ := List.pairwise_cons.mp hl
    rw [List.foldl_cons, ih hrest]
    by_cases hq : q.1 = key
    · have hnone : rest.find? (fun p => p.1 = key) = none :=
        List.find?_eq_none.mpr fun p hp => by simpa using ne_of_gt (hq ▸ hhead p hp)
      rw [hnone, List.find?_cons_of_pos (by simpa using hq)]
      subst hq
      exact hset s q.2
    · rw [List.find?_cons_of_neg (by simpa using hq), hkeep s q.1 q.2 hq]

/-- The same of a loop that may fail and sets that part afresh. -/
theorem foldlM_at_key {σ β ε : Type} {step : σ → κ × α → Except ε σ} {π : σ → β} {key : κ}
    {set : α → β} (hset : ∀ s v s', step s (key, v) = .ok s' → π s' = set v)
    (hkeep : ∀ s k v s', k ≠ key → step s (k, v) = .ok s' → π s' = π s) (m : SortedMap κ α)
    {s s' : σ} (h : m.entries.foldlM step s = .ok s') : π s' = (m.get? key).elim (π s) set := by
  suffices hl : ∀ (l : List (κ × α)), (l.Pairwise fun a b => a.1 < b.1) → ∀ s,
      l.foldlM step s = .ok s' →
      π s' = ((l.find? fun p => p.1 = key).map Prod.snd).elim (π s) set from
    hl m.entries m.sorted s h
  intro l
  induction l with
  | nil =>
    intro _ s h
    cases h
    rfl
  | cons q rest ih =>
    intro hl s h
    obtain ⟨hhead, hrest⟩ := List.pairwise_cons.mp hl
    rw [List.foldlM_cons] at h
    cases hstep : step s q with
    | error e =>
      rw [hstep] at h
      cases h
    | ok next =>
      rw [hstep] at h
      rw [ih hrest next h]
      by_cases hq : q.1 = key
      · have hnone : rest.find? (fun p => p.1 = key) = none :=
          List.find?_eq_none.mpr fun p hp => by simpa using ne_of_gt (hq ▸ hhead p hp)
        rw [hnone, List.find?_cons_of_pos (by simpa using hq)]
        subst hq
        exact hset s q.2 next hstep
      · rw [List.find?_cons_of_neg (by simpa using hq), hkeep s q.1 q.2 next hq hstep]

/-- A loop that fills a map, with one value for a key. -/
theorem get?_foldl_insert {γ : Type} {key : γ → κ} {val : γ → α} {l : List γ} {k : κ} {v : α}
    (hval : ∀ x ∈ l, key x = k → val x = v) (m : SortedMap κ α)
    (h : m.get? k = some v ∨ ∃ x ∈ l, key x = k) :
    (l.foldl (fun out x => out.insert (key x) (val x)) m).get? k = some v := by
  induction l generalizing m with
  | nil => simpa using h
  | cons x l ih =>
    rw [List.foldl_cons]
    refine ih (fun y hy => hval y (List.mem_cons_of_mem _ hy)) _ ?_
    by_cases hx : key x = k
    · left
      rw [get?_insert, if_pos hx.symm, hval x (by simp) hx]
    · rw [get?_insert_of_ne _ _ (Ne.symm hx)]
      rcases h with h | ⟨y, hy, hkey⟩
      · exact Or.inl h
      · rcases List.mem_cons.mp hy with rfl | hy
        · exact absurd hkey hx
        · exact Or.inr ⟨y, hy, hkey⟩

/-- Nothing is put under a key that is not there. -/
theorem get?_foldl_insert_of_ne {γ : Type} {key : γ → κ} {val : γ → α} {l : List γ} {k : κ}
    (hne : ∀ x ∈ l, key x ≠ k) (m : SortedMap κ α) :
    (l.foldl (fun out x => out.insert (key x) (val x)) m).get? k = m.get? k := by
  induction l generalizing m with
  | nil => rfl
  | cons x l ih =>
    rw [List.foldl_cons, ih fun y hy => hne y (List.mem_cons_of_mem _ hy)]
    exact get?_insert_of_ne m _ (Ne.symm (hne x (by simp)))

/-- **Copying a map over another**, its entries in any order: its own values win. -/
theorem get?_copy {m : SortedMap κ α} {l : List (κ × α)} (hperm : l.Perm m.entries)
    (out : SortedMap κ α) (k : κ) :
    (l.foldl (fun out e => out.insert e.1 e.2) out).get? k = (m.get? k).or (out.get? k) := by
  cases hk : m.get? k with
  | some v =>
    refine get?_foldl_insert (fun e he hkey => ?_) out
      (Or.inr ⟨(k, v), hperm.symm.subset (get?_eq_some.mp hk), rfl⟩)
    have hmem : (k, e.2) ∈ m.entries := hkey ▸ hperm.subset he
    exact Option.some.inj ((get?_eq_some.mpr hmem).symm.trans hk)
  | none =>
    refine get?_foldl_insert_of_ne (fun e he hkey => ?_) out
    have hmem : (k, e.2) ∈ m.entries := hkey ▸ hperm.subset he
    rw [get?_eq_some.mpr hmem] at hk
    cases hk

end SortedMap

end Lib
