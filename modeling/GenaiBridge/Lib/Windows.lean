/-
A process that reads time window by window.

A call goes on from a position, which has a time and may hold a window in progress.  It may
begin a window, keep the one that is held or give it up, or complete it, which moves the time
to the end of the window.  The rule of this file is `Run.tiled`: if every window begins at the
time of its position or is reported not to, then nothing is passed over unreported, however
often a window is given up and begun again.
-/
import Mathlib.Data.List.Basic

namespace Lib

/-- A call: where it goes on from, the clock, the window it begins, whether it reports that this
window leaves something out, and where the next call goes on from. -/
structure WindowCall (σ : Type) where
  since : σ
  now : Int
  begun : Option (Int × Int)
  reported : Bool
  next : σ

namespace WindowCall

variable {σ : Type} (time : σ → Int) (held : σ → Option (Int × Int))

/-- What a call may do with the window in progress. -/
inductive Follows (c : WindowCall σ) : Prop
  | stays (htime : time c.next = time c.since)
      (hheld : ∀ b, held c.next = some b → held c.since = some b ∨ c.begun = some b)
  | completes {m M : Int} (hwindow : held c.since = some (m, M) ∨ c.begun = some (m, M))
      (htime : time c.next = M) (hidle : held c.next = none)

/-- A window begins at the time of the position, or later and this is reported.  At time 0 there
is nothing to go on from. -/
def StartsAt (t m : Int) (c : WindowCall σ) : Prop :=
  t ≠ 0 → m = t ∨ t < m ∧ c.reported = true

/-- A sequence of calls from one position to another. -/
inductive Run (call : WindowCall σ → Prop) : σ → List (WindowCall σ) → σ → Prop
  | nil (p : σ) : Run call p [] p
  | cons {c : WindowCall σ} {cs : List (WindowCall σ)} {q : σ} (hc : call c)
      (hrun : Run call c.next cs q) : Run call c.since (c :: cs) q

/-- The windows tile time. -/
structure Tiled (cs : List (WindowCall σ)) : Prop where
  /-- The first window that is begun after one was completed starts where that one ended. -/
  next : ∀ before c between d after m M, cs = before ++ c :: (between ++ d :: after) →
    time c.next ≠ time c.since → (∀ e ∈ between, e.begun = none) → d.begun = some (m, M) →
    d.StartsAt (time c.next) m
  /-- The time only moves to the end of a window that was begun at the time it moves from. -/
  moves : ∀ before c after, cs = before ++ c :: after → time c.next ≠ time c.since →
    ∃ d ∈ before ++ [c], ∃ m, d.begun = some (m, time c.next) ∧ time d.since = time c.since ∧
      d.StartsAt (time c.since) m

variable {time held} {call : WindowCall σ → Prop} {p q : σ} {cs : List (WindowCall σ)}

/-- Every call of a run is one that may be made. -/
theorem Run.of_mem (hrun : Run call p cs q) {c : WindowCall σ} (hc : c ∈ cs) : call c := by
  induction hrun with
  | nil => cases hc
  | cons hd _ ih =>
    rcases List.mem_cons.mp hc with rfl | hc
    · exact hd
    · exact ih hc

/-! ### Where the held window comes from -/

/-- The window that is held was begun at the time of the position. -/
def Traced (time : σ → Int) (held : σ → Option (Int × Int)) (before : List (WindowCall σ))
    (p : σ) : Prop :=
  ∀ b, held p = some b → ∃ d ∈ before, d.begun = some b ∧ time d.since = time p

/-- The window of a call, held before or begun by it. -/
private theorem Traced.window {before : List (WindowCall σ)} {c : WindowCall σ}
    (h : Traced time held before c.since) {b : Int × Int}
    (hb : held c.since = some b ∨ c.begun = some b) :
    ∃ d ∈ before ++ [c], d.begun = some b ∧ time d.since = time c.since := by
  rcases hb with hb | hb
  · obtain ⟨d, hd, hbegun⟩ := h b hb
    exact ⟨d, List.mem_append_left _ hd, hbegun⟩
  · exact ⟨c, by simp, hb, rfl⟩

private theorem Traced.step {before : List (WindowCall σ)} {c : WindowCall σ}
    (h : Traced time held before c.since) (hc : c.Follows time held) :
    Traced time held (before ++ [c]) c.next := by
  intro b hb
  cases hc with
  | stays htime hheld =>
    rw [htime]
    exact h.window (hheld b hb)
  | completes _ _ hidle =>
    rw [hidle] at hb
    cases hb

private theorem Run.traced (hfollows : ∀ c, call c → c.Follows time held)
    (hrun : Run call p cs q) {earlier before after : List (WindowCall σ)} {c : WindowCall σ}
    (hp : Traced time held earlier p) (hcs : cs = before ++ c :: after) :
    call c ∧ Traced time held (earlier ++ before) c.since ∧ Run call c.next after q := by
  induction before generalizing p cs earlier with
  | nil =>
    subst hcs
    cases hrun with
    | cons hc hrun => exact ⟨hc, by simpa using hp, hrun⟩
  | cons d before ih =>
    subst hcs
    cases hrun with
    | cons hd hrun =>
      have hstep := ih hrun (hp.step (hfollows d hd)) rfl
      rwa [List.append_assoc, List.singleton_append] at hstep

/-! ### Between two windows -/

/-- Calls that begin no window where none is held stand still. -/
private theorem Run.idle (hfollows : ∀ c, call c → c.Follows time held) (hrun : Run call p cs q)
    (hp : held p = none) {between after : List (WindowCall σ)} {d : WindowCall σ}
    (hcs : cs = between ++ d :: after) (hnone : ∀ e ∈ between, e.begun = none) :
    time d.since = time p := by
  induction between generalizing p cs with
  | nil =>
    subst hcs
    cases hrun with
    | cons => rfl
  | cons e between ih =>
    subst hcs
    cases hrun with
    | cons he hrun =>
      have hbegun := hnone e List.mem_cons_self
      have hrest : ∀ f ∈ between, f.begun = none := fun f hf =>
        hnone f (List.mem_cons_of_mem _ hf)
      cases hfollows e he with
      | stays htime hheld =>
        have hnext : held e.next = none := by
          rcases hb : held e.next with _ | b
          · rfl
          · rcases hheld b hb with h | h
            · rw [hp] at h
              cases h
            · rw [hbegun] at h
              cases h
        rw [ih hrun hnext rfl hrest, htime]
      | completes hwindow =>
        rw [hp, hbegun] at hwindow
        rcases hwindow with h | h <;> cases h

/-- **Windows that begin where they should tile time.** -/
theorem Run.tiled (hfollows : ∀ c, call c → c.Follows time held)
    (hrun : Run call p cs q) (hp : held p = none)
    (hstart : ∀ c ∈ cs, ∀ m M, c.begun = some (m, M) → c.StartsAt (time c.since) m) :
    Tiled time cs := by
  have htraced : Traced time held [] p := fun b hb => by
    rw [hp] at hb
    cases hb
  refine ⟨?_, ?_⟩
  · intro before c between d after m M hcs hmoved hnone hd
    obtain ⟨hc, -, hrest⟩ := hrun.traced hfollows htraced hcs
    have hidle : held c.next = none := by
      cases hfollows c hc with
      | stays htime => exact absurd htime hmoved
      | completes _ _ hidle => exact hidle
    have hsince := hrest.idle hfollows hidle rfl hnone
    rw [← hsince]
    exact hstart d (by simp [hcs]) m M hd
  · intro before c after hcs hmoved
    obtain ⟨hc, htr, -⟩ := hrun.traced hfollows htraced hcs
    cases hfollows c hc with
    | stays htime => exact absurd htime hmoved
    | @completes m M hwindow htime =>
      obtain ⟨d, hd, hbegun, hsince⟩ := htr.window hwindow
      rw [List.nil_append] at hd
      have hmem : d ∈ cs := by
        rw [hcs]
        simp only [List.mem_append, List.mem_cons, List.not_mem_nil, or_false] at hd ⊢
        tauto
      refine ⟨d, hd, m, by rw [htime]; exact hbegun, hsince, ?_⟩
      rw [← hsince]
      exact hstart d hmem m M hbegun

end WindowCall

end Lib
