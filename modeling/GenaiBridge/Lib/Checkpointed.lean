/-
A process that works from a position in memory and keeps it in a store.

Each attempt starts from the position in memory and comes to another one.  Writing that
one to the store may succeed, fail, or succeed unseen; the process may also take the
stored position over, after a restart or because it was refused.  The store admits only
some changes.  Every attempt goes into a history, with whether it was written.

Two rules carry facts about single attempts over to all runs.  `Run.holds`: what a
written attempt keeps true of the position it came to is true of both positions.
`Run.moves`: if every written attempt makes a move from where it started, then every
change of the position in memory is a move, also one that takes the stored one over;
`Run.stored_moves` says the same of the stored position.
-/
import Mathlib.Logic.Relation

namespace Lib

variable {σ ε : Type}

/-- An attempt: where it started, what happened, where it came to, whether it was written. -/
structure Attempt (σ ε : Type) where
  since : σ
  event : ε
  proposed : σ
  landed : Bool

/-- The two positions and the attempts so far. -/
structure Checkpointed (σ ε : Type) where
  memory : σ
  stored : σ
  history : List (Attempt σ ε)

namespace Checkpointed

variable (proposes : σ → ε → σ → Prop) (admits : σ → σ → Prop)

/-- Both positions at one place, and nothing attempted. -/
def start (w : σ) : Checkpointed σ ε := ⟨w, w, []⟩

/-- One step. -/
inductive Step : Checkpointed σ ε → Checkpointed σ ε → Prop
  | failed {s : Checkpointed σ ε} {e : ε} {w : σ} (h : proposes s.memory e w) :
      Step s ⟨s.memory, s.stored, s.history ++ [⟨s.memory, e, w, false⟩]⟩
  | unseen {s : Checkpointed σ ε} {e : ε} {w : σ} (h : proposes s.memory e w)
      (ha : admits s.stored w) :
      Step s ⟨s.memory, w, s.history ++ [⟨s.memory, e, w, true⟩]⟩
  | committed {s : Checkpointed σ ε} {e : ε} {w : σ} (h : proposes s.memory e w)
      (ha : admits s.stored w) : Step s ⟨w, w, s.history ++ [⟨s.memory, e, w, true⟩]⟩
  | reload {s : Checkpointed σ ε} : Step s ⟨s.stored, s.stored, s.history⟩

/-- Reachable by steps. -/
abbrev Run : Checkpointed σ ε → Checkpointed σ ε → Prop :=
  Relation.ReflTransGen (Step proposes admits)

variable {proposes admits} {P : List (Attempt σ ε) → σ → Prop}
  {M : List (Attempt σ ε) → σ → σ → Prop} {w₀ : σ} {s s' : Checkpointed σ ε}

/-- What one step keeps: the rule behind `Run.holds`. -/
theorem Step.holds (mono : ∀ {h a w}, P h w → P (h ++ [a]) w)
    (written : ∀ {h w e w'}, P h w → proposes w e w' → P (h ++ [⟨w, e, w', true⟩]) w')
    (hs : P s.history s.memory ∧ P s.history s.stored) (h : Step proposes admits s s') :
    P s'.history s'.memory ∧ P s'.history s'.stored := by
  cases h with
  | failed h => exact ⟨mono hs.1, mono hs.2⟩
  | unseen h ha => exact ⟨mono hs.1, written hs.1 h⟩
  | committed h ha => exact ⟨written hs.1 h, written hs.1 h⟩
  | reload => exact ⟨hs.2, hs.2⟩

/-- **The invariant rule.** -/
theorem Run.holds (init : P [] w₀) (mono : ∀ {h a w}, P h w → P (h ++ [a]) w)
    (written : ∀ {h w e w'}, P h w → proposes w e w' → P (h ++ [⟨w, e, w', true⟩]) w')
    (hrun : Run proposes admits (start w₀) s) :
    P s.history s.memory ∧ P s.history s.stored := by
  induction hrun with
  | refl => exact ⟨init, init⟩
  | tail _ hstep ih => exact Step.holds mono written ih hstep

private theorem Run.stored (init : P [] w₀) (mono : ∀ {h a w}, P h w → P (h ++ [a]) w)
    (written : ∀ {h w e w'}, P h w → proposes w e w' → P (h ++ [⟨w, e, w', true⟩]) w')
    (mono' : ∀ {h a w w'}, M h w w' → M (h ++ [a]) w w')
    (move : ∀ {h w e w'}, P h w → proposes w e w' → M (h ++ [⟨w, e, w', true⟩]) w w')
    (hrun : Run proposes admits (start w₀) s) :
    s.memory = s.stored ∨ M s.history s.memory s.stored := by
  induction hrun with
  | refl => exact Or.inl rfl
  | tail hrun hstep ih =>
    have hs := Run.holds init mono written hrun
    cases hstep with
    | failed h => exact ih.imp_right mono'
    | unseen h ha => exact Or.inr (move hs.1 h)
    | committed h ha => exact Or.inl rfl
    | reload => exact Or.inl rfl

/-- **The rule of moves.** -/
theorem Run.moves (init : P [] w₀) (mono : ∀ {h a w}, P h w → P (h ++ [a]) w)
    (written : ∀ {h w e w'}, P h w → proposes w e w' → P (h ++ [⟨w, e, w', true⟩]) w')
    (mono' : ∀ {h a w w'}, M h w w' → M (h ++ [a]) w w')
    (move : ∀ {h w e w'}, P h w → proposes w e w' → M (h ++ [⟨w, e, w', true⟩]) w w')
    (hrun : Run proposes admits (start w₀) s) (hstep : Step proposes admits s s') :
    s'.memory = s.memory ∨ M s'.history s.memory s'.memory := by
  have hs := Run.holds init mono written hrun
  cases hstep with
  | failed h => exact Or.inl rfl
  | unseen h ha => exact Or.inl rfl
  | committed h ha => exact Or.inr (move hs.1 h)
  | reload => exact (Run.stored init mono written mono' move hrun).imp_left Eq.symm

/-! ### Trails -/

variable (proposes admits) in
/-- Attempts one after the other, each of which the store admits. -/
def Trail : σ → List (ε × σ) → Prop
  | _, [] => True
  | w, (e, w') :: rest => proposes w e w' ∧ admits w w' ∧ Trail w' rest

/-- What they leave in the history. -/
def written : σ → List (ε × σ) → List (Attempt σ ε)
  | _, [] => []
  | w, (e, w') :: rest => ⟨w, e, w', true⟩ :: written w' rest

/-- Where they end. -/
def last : σ → List (ε × σ) → σ
  | w, [] => w
  | _, (_, w') :: rest => last w' rest

/-- A process may have every attempt of a trail written. -/
theorem Run.of_trail : ∀ (trail : List (ε × σ)) {w : σ} {h : List (Attempt σ ε)},
    Trail proposes admits w trail →
      Run proposes admits ⟨w, w, h⟩ ⟨last w trail, last w trail, h ++ written w trail⟩ := by
  intro trail
  induction trail with
  | nil =>
    intro w h _
    rw [written, List.append_nil]
    exact .refl
  | cons attempt rest ih =>
    intro w h htrail
    obtain ⟨e, w'⟩ := attempt
    obtain ⟨hproposes, hadmits, hrest⟩ := htrail
    rw [written, last, List.append_cons]
    exact .head (.committed hproposes hadmits) (ih hrest)

/-! ### Writes that are seen

If no write succeeds unseen, the two positions are the same. -/

/-- A step that changes the store is one the process sees. -/
def SeenStep (proposes : σ → ε → σ → Prop) (admits : σ → σ → Prop)
    (s s' : Checkpointed σ ε) : Prop :=
  Step proposes admits s s' ∧ (s'.stored = s.stored ∨ s'.memory = s'.stored)

/-- Reachable by such steps. -/
abbrev SeenRun (proposes : σ → ε → σ → Prop) (admits : σ → σ → Prop) :
    Checkpointed σ ε → Checkpointed σ ε → Prop :=
  Relation.ReflTransGen (SeenStep proposes admits)

/-- **The invariant rule** where writes are seen: an attempt that was not written may count. -/
theorem SeenRun.holds (init : P [] w₀)
    (failed : ∀ {h w e w'}, P h w → P (h ++ [⟨w, e, w', false⟩]) w)
    (written : ∀ {h w e w'}, P h w → proposes w e w' → P (h ++ [⟨w, e, w', true⟩]) w')
    (hrun : SeenRun proposes admits (start w₀) s) :
    s.memory = s.stored ∧ P s.history s.memory := by
  induction hrun with
  | refl => exact ⟨rfl, init⟩
  | tail _ hstep ih =>
    obtain ⟨heq, hP⟩ := ih
    obtain ⟨hstep, hseen⟩ := hstep
    cases hstep with
    | failed h => exact ⟨heq, failed hP⟩
    | unseen h ha =>
      -- then the position written is the one in memory
      have hmem := hseen.elim (fun hs => heq.trans hs.symm) id
      refine ⟨hmem, ?_⟩
      have hw := written hP h
      dsimp only at hmem hw ⊢
      rw [hmem] at hw ⊢
      exact hw
    | committed h ha => exact ⟨rfl, written hP h⟩
    | reload => exact ⟨rfl, heq ▸ hP⟩

/-! ### Moves of the store -/

/-- Every change of the stored position is a move from the one in memory. -/
theorem Run.stored_moves (init : P [] w₀) (mono : ∀ {h a w}, P h w → P (h ++ [a]) w)
    (written : ∀ {h w e w'}, P h w → proposes w e w' → P (h ++ [⟨w, e, w', true⟩]) w')
    (move : ∀ {h w e w'}, P h w → proposes w e w' → M (h ++ [⟨w, e, w', true⟩]) w w')
    (hrun : Run proposes admits (start w₀) s) (hstep : Step proposes admits s s') :
    s'.stored = s.stored ∨ M s'.history s.memory s'.stored := by
  have hs := Run.holds init mono written hrun
  cases hstep with
  | failed h => exact Or.inl rfl
  | unseen h ha => exact Or.inr (move hs.1 h)
  | committed h ha => exact Or.inr (move hs.1 h)
  | reload => exact Or.inl rfl

end Checkpointed

end Lib
