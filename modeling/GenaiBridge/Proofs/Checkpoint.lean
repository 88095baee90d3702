/-
The checkpoint stores under concurrent writers.

`StoreSafe` is what the fence promises, of any store that saves by read, check and
conditional write, over every interleaving.  It follows from three facts about a
store: a request only applies where the stamp it read is still there, the stamps of
successive values differ, and one save on one value writes what it should
(`SafeWrite`).  The rest of the module is these facts for the two stores.
-/
import GenaiBridge.Bridge.Checkpoint

namespace GenaiBridge

open Lib (Json)
open Lib.Optimistic

/-! ### What a store promises -/

/-- One write to the entries of a store, under the store key `k`. -/
structure SafeWrite {ρ : Type} (decode : ρ → Option Watermark) (before after : String → Option ρ)
    (k : String) (w : Watermark) : Prop where
  /-- It passed the fence against what it replaced. -/
  passed : ∃ stored, loadEntry decode (before k) = some stored ∧ checkMonotonic stored w = .ok ()
  /-- What is stored afterwards is the watermark that was saved. -/
  wrote : loadEntry decode (after k) = some w
  others : ∀ k', k' ≠ k → after k' = before k'

/-- An entry that reads as a watermark has become one that is not behind it. -/
def NotBehind {ρ : Type} (decode : ρ → Option Watermark) (before after : Option ρ) : Prop :=
  ∀ a, loadEntry decode before = some a →
    ∃ b, loadEntry decode after = some b ∧ a.epoch ≤ b.epoch ∧ a.time ≤ b.time

section Promise

variable {Loc σ Req ρ : Type} [DecidableEq Loc]

/-- A store of watermarks: its client, its server, its entries and the key of an entry. -/
structure Store (Loc σ Req ρ : Type) where
  client : Client (CheckpointKey × Watermark) Loc σ Req SaveError
  applies : Req → σ → σ → Prop
  entries : (Loc → Cell σ) → String → Option ρ
  decode : ρ → Option Watermark
  storeKey : CheckpointKey → String

/-- A store and its writers. -/
abbrev Store.System (_ : Store Loc σ Req ρ) : Type :=
  Lib.Optimistic.System (CheckpointKey × Watermark) Loc σ Req SaveError

/-- **Safety of a checkpoint store**, in the reachable systems that satisfy `Ok`. -/
structure StoreSafe (S : Store Loc σ Req ρ) (Ok : S.System → Prop) : Prop where
  /-- A step changes nothing, or it is one save taking effect: it passed the fence against the
  value it replaced, its watermark is what is stored, and no other key changed. -/
  step : ∀ (contents : Loc → σ) (s t : S.System),
    Run S.client S.applies (.fresh contents) s → Ok s → Step S.client S.applies s t →
    (t.cells = s.cells ∧ t.log = s.log) ∨
    ∃ e, t.log = e :: s.log ∧
      SafeWrite S.decode (S.entries s.cells) (S.entries t.cells) (S.storeKey e.arg.1) e.arg.2
  /-- Epoch and time of what is stored under a key never decrease. -/
  run : ∀ (contents : Loc → σ) (s t : S.System),
    Run S.client S.applies (.fresh contents) s → Run S.client S.applies s t → Ok t →
    ∀ k, NotBehind S.decode (S.entries s.cells k) (S.entries t.cells k)
  /-- A save that returned nil took effect. -/
  saved : ∀ (contents : Loc → σ) (s : S.System),
    Run S.client S.applies (.fresh contents) s →
    ∀ c key w, s.calls c = .done (key, w) (.ok ()) → ∃ n, ⟨c, n, (key, w)⟩ ∈ s.log

/-! ### Where the promise comes from -/

theorem checkMonotonic_ok {stored w : Watermark} (h : checkMonotonic stored w = .ok ()) :
    stored.epoch ≤ w.epoch ∧ stored.time ≤ w.time := by
  unfold checkMonotonic at h
  split at h
  · cases h
  · rename_i hepoch
    split at h
    · cases h
    · rename_i htime
      exact ⟨Int64.not_lt.mp hepoch, by omega⟩

theorem NotBehind.refl {decode : ρ → Option Watermark} (e : Option ρ) : NotBehind decode e e :=
  fun a ha => ⟨a, ha, Int64.le_refl _, le_refl _⟩

theorem NotBehind.trans {decode : ρ → Option Watermark} {e e' e'' : Option ρ}
    (h : NotBehind decode e e') (h' : NotBehind decode e' e'') : NotBehind decode e e'' := by
  intro a ha
  obtain ⟨b, hb, hepoch, htime⟩ := h a ha
  obtain ⟨c, hc, hepoch', htime'⟩ := h' b hb
  exact ⟨c, hc, Int64.le_trans hepoch hepoch', le_trans htime htime'⟩

theorem SafeWrite.notBehind {decode : ρ → Option Watermark} {before after : String → Option ρ}
    {k : String} {w : Watermark} (h : SafeWrite decode before after k w) (j : String) :
    NotBehind decode (before j) (after j) := by
  by_cases hj : j = k
  · subst hj
    obtain ⟨stored, hload, hcheck⟩ := h.passed
    obtain ⟨hepoch, htime⟩ := checkMonotonic_ok hcheck
    intro a ha
    obtain rfl : stored = a := Option.some.inj (hload.symm.trans ha)
    exact ⟨w, h.wrote, hepoch, htime⟩
  · rw [h.others j hj]
    exact NotBehind.refl _

/-- The three facts about a store that make it safe. -/
theorem storeSafe {S : Store Loc σ Req ρ} {Ok : S.System → Prop} {τ : Type} (stamp : σ → τ)
    (hcond : Conditional stamp S.client S.applies)
    (hok : ∀ s t : S.System, Run S.client S.applies s t → Ok t → Ok s)
    (hdist : ∀ contents (s : S.System), Run S.client S.applies (.fresh contents) s → Ok s →
      Distinct stamp s)
    (hwrite : ∀ (cells : Loc → Cell σ) arg v,
      Effect S.client S.applies arg (cells (S.client.loc arg)).current v →
      SafeWrite S.decode (S.entries cells)
        (S.entries (Function.update cells (S.client.loc arg) ((cells (S.client.loc arg)).write v)))
        (S.storeKey arg.1) arg.2) : StoreSafe S Ok := by
  have hstep : ∀ (contents : Loc → σ) (s t : S.System),
      Run S.client S.applies (.fresh contents) s → Ok s → Step S.client S.applies s t →
      (t.cells = s.cells ∧ t.log = s.log) ∨
      ∃ e, t.log = e :: s.log ∧
        SafeWrite S.decode (S.entries s.cells) (S.entries t.cells) (S.storeKey e.arg.1) e.arg.2 := by
    intro contents s t hrun hs hstep
    rcases hstep.effect ((Sound.fresh contents).run hrun) hcond (hdist contents s hrun hs) with
      hsame | ⟨e, v, heffect, hcells, hlog⟩
    · exact Or.inl hsame
    · refine Or.inr ⟨e, hlog, ?_⟩
      rw [hcells]
      exact hwrite s.cells e.arg v heffect
  refine ⟨hstep, ?_, ?_⟩
  · intro contents s t hrun hrun' ht k
    induction hrun' with
    | refl => exact NotBehind.refl _
    | @tail u t' hfront hlast ih =>
      have hu := hok u t' (Relation.ReflTransGen.single hlast) ht
      refine (ih hu).trans ?_
      rcases hstep contents u t' (hrun.trans hfront) hu hlast with ⟨hcells, -⟩ | ⟨e, -, hsafe⟩
      · rw [hcells]
        exact NotBehind.refl _
      · exact hsafe.notBehind k
  · intro contents s hrun c key w hdone
    have := ((Sound.fresh contents).run hrun).calls c
    rw [hdone] at this
    exact this

end Promise

end GenaiBridge
