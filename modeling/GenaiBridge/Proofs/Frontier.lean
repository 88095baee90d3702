/-
The position in memory and the stored one.

A runner keeps the position it last saw stored.  Other replicas may write the store at any
time, also between the calls of one batch, so the position in memory is one the store has
held and never a later one.  If nobody else writes, it is the stored one.
-/
import GenaiBridge.Proofs.Checkpoint
import GenaiBridge.Proofs.Commit
import Mathlib.Logic.Relation

namespace GenaiBridge

variable {V : Type} [LT V] [DecidableLT V]

/-! ### The store of one key -/

/-- The watermark a store holds under a key, and those it held before. -/
structure Held where
  stored : Watermark
  past : List Watermark
deriving DecidableEq

namespace Held

/-- All values the store has held. -/
def values (s : Held) : List Watermark := s.stored :: s.past

/-- The store after a write. -/
def save (s : Held) (w : Watermark) : Held := ⟨w, s.values⟩

/-- A write of another replica. -/
def OtherSave (s s' : Held) : Prop := ∃ w, checkMonotonic s.stored w = .ok () ∧ s' = s.save w

/-- A later state of the store: nothing is forgotten, and time has not gone back. -/
structure Later (s s' : Held) : Prop where
  values : ∀ w ∈ s.values, w ∈ s'.values
  time : s.stored.time ≤ s'.stored.time

theorem Later.refl (s : Held) : s.Later s := ⟨fun _ h => h, le_refl _⟩

theorem Later.trans {s s' s'' : Held} (h : s.Later s') (h' : s'.Later s'') : s.Later s'' :=
  ⟨fun w hw => h'.values w (h.values w hw), h.time.trans h'.time⟩

theorem later_save {s : Held} {w : Watermark} (h : checkMonotonic s.stored w = .ok ()) :
    s.Later (s.save w) :=
  ⟨fun _ hv => List.mem_cons_of_mem _ hv, (checkMonotonic_ok h).2⟩

theorem later_of_otherSaves {s s' : Held} (h : Relation.ReflTransGen OtherSave s s') :
    s.Later s' := by
  induction h with
  | refl => exact .refl s
  | tail _ hstep ih =>
    obtain ⟨w, hw, rfl⟩ := hstep
    exact ih.trans (later_save hw)

end Held

/-! ### The runner beside it -/

/-- What the store answers while one batch is processed, with the writes of others before the
save, before the reload and after it.  A save that fails leaves the store as it is. -/
structure StoreAnswers (writes : Held → Held → Prop) (before atSave atLoad after : Held) (env : Env V)
    (calls : List (Call V)) : Prop where
  beforeSave : writes before atSave
  accepted : ∀ w, env.save w = .ok → checkMonotonic atSave.stored w = .ok ()
  refused : ∀ w, env.save w = .stale → checkMonotonic atSave.stored w ≠ .ok ()
  failed : ∀ w landed, env.save w = .failed landed → landed = false
  beforeLoad : writes ((written calls).foldl Held.save atSave) atLoad
  load : ∀ w, env.load = some w → w = atLoad.stored
  afterLoad : writes atLoad after

/-- A runner and the store under its key. -/
structure Replica where
  runner : LoopRunner
  store : Held

/-- One step: a batch, a new leadership, or writes of others.  `admits` says which batches
occur. -/
inductive Replica.Step (V : Type) [LT V] [DecidableLT V] (writes : Held → Held → Prop)
    (admits : Held → Batch V → Prop) : Replica → Replica → Prop
  | batch {s : Replica} {g : Guard} {env : Env V} {b : Batch V} {atSave atLoad after : Held}
      (hkey : b.key = s.runner.key) (hb : admits s.store b)
      (h : StoreAnswers writes s.store atSave atLoad after env (processBatch s.runner g env b).2.2) :
      Step V writes admits s ⟨(processBatch s.runner g env b).1, after⟩
  | reset {s : Replica} : Step V writes admits s ⟨(s.runner.reset (V := V)).1, s.store⟩
  | others {s : Replica} {after : Held} (h : writes s.store after) :
      Step V writes admits s ⟨s.runner, after⟩

/-! ### Beside other replicas -/

/-- The position in memory is one the store has held, and not ahead of it. -/
def Replica.Follows (s : Replica) : Prop :=
  s.runner.hasFront = true →
    s.runner.frontier ∈ s.store.values ∧ s.runner.frontier.time ≤ s.store.stored.time

private theorem follows_later {r r' : LoopRunner} {s s' : Held} (h : Replica.Follows ⟨r, s⟩)
    (hfront : SameFront r r') (hlater : s.Later s') : Replica.Follows ⟨r', s'⟩ := by
  intro hhas
  obtain ⟨hmem, htime⟩ := h (hfront.2 ▸ hhas)
  dsimp only at hmem htime ⊢
  rw [hfront.1]
  exact ⟨hlater.values _ hmem, htime.trans hlater.time⟩

private theorem follows_batch {s : Replica} {g : Guard} {env : Env V}
    {b : Batch V} {atSave atLoad after : Held} (hs : s.Follows)
    (h : StoreAnswers (Relation.ReflTransGen Held.OtherSave) s.store atSave atLoad after env
      (processBatch s.runner g env b).2.2) :
    Replica.Follows ⟨(processBatch s.runner g env b).1, after⟩ := by
  have hbefore := Held.later_of_otherSaves h.beforeSave
  have hload := Held.later_of_otherSaves h.beforeLoad
  have hafter := Held.later_of_otherSaves h.afterLoad
  rcases committed_cases (processBatch_committed s.runner g env b) with
    ⟨hfront, hwritten⟩ | ⟨t, cursor, -, hcase⟩
  · rw [hwritten] at hload
    exact follows_later hs hfront ((hbefore.trans hload).trans hafter)
  · generalize hw : written (processBatch s.runner g env b).2.2 = ws at hcase hload
    cases hcase with
    | unchanged hfront => exact follows_later hs hfront ((hbefore.trans hload).trans hafter)
    | reloaded hsave hstored =>
      intro _
      dsimp only
      rw [h.load _ hstored]
      exact ⟨hafter.values _ List.mem_cons_self, hafter.time⟩
    | followed hsave hfront =>
      intro _
      dsimp only
      rw [hfront]
      have hlater := hload.trans hafter
      exact ⟨hlater.values _ List.mem_cons_self, hlater.time⟩
    | behind hsave hfront hhas htime hcursor =>
      have hsaved := Held.later_save (h.accepted _ hsave)
      exact follows_later hs hfront (((hbefore.trans hsaved).trans hload).trans hafter)

/-! ### Alone -/

/-- The batches of a loop that has either samples or a cursor: samples come only while no cursor
is stored, and a batch at the stored time has a cursor or keeps the stored one. -/
def Disciplined (store : Held) (b : Batch V) : Prop :=
  (b.samples ≠ [] → store.stored.cursor = "") ∧
  (b.watermark.time = store.stored.time →
    b.watermark.cursor ≠ "" ∨ b.watermark.cursor = store.stored.cursor)

/-- The position in memory is the stored one. -/
def Replica.Mirrors (s : Replica) : Prop :=
  s.runner.hasFront = true → s.runner.frontier = s.store.stored

omit [LT V] [DecidableLT V] in
/-- A disciplined batch never writes a cursor away at an equal time. -/
private theorem not_behind {store : Held} {b : Batch V} (hb : Disciplined store b) {t : Int}
    {cursor : String} {epoch : Int64} (htarget : Target b t cursor)
    (hok : checkMonotonic store.stored ⟨t, cursor, epoch⟩ = .ok ())
    (htime : ¬store.stored.time < t)
    (hcursor : t = store.stored.time → cursor ≠ "" → cursor = store.stored.cursor) : False := by
  have heq : t = store.stored.time := le_antisymm (not_lt.mp htime) (checkMonotonic_ok hok).2
  have hne : cursor ≠ store.stored.cursor := by
    intro hsame
    unfold checkMonotonic at hok
    simp only [heq, hsame, and_self, if_true] at hok
    split_ifs at hok
  have hempty : cursor = "" := by
    by_contra hne'
    exact hne (hcursor heq hne')
  cases htarget with
  | own => exact (hb.2 heq).elim (fun h => h hempty) hne
  | interior hsamples => exact hne (hempty.trans (hb.1 hsamples).symm)

private theorem mirrors_batch {s : Replica} {g : Guard} {env : Env V} {b : Batch V}
    {atSave atLoad after : Held} (hs : s.Mirrors) (hb : Disciplined s.store b)
    (h : StoreAnswers Eq s.store atSave atLoad after env (processBatch s.runner g env b).2.2) :
    Replica.Mirrors ⟨(processBatch s.runner g env b).1, after⟩ := by
  obtain ⟨rfl, haccepted, -, -, hload, hloaded, rfl⟩ := h
  rcases committed_cases (processBatch_committed s.runner g env b) with
    ⟨hfront, hwritten⟩ | ⟨t, cursor, htarget, hcase⟩
  · rw [hwritten] at hload
    subst hload
    intro hhas
    exact hfront.1.trans (hs (hfront.2 ▸ hhas))
  · generalize hw : written (processBatch s.runner g env b).2.2 = ws at hcase hload
    cases hcase with
    | unchanged hfront =>
      subst hload
      intro hhas
      exact hfront.1.trans (hs (hfront.2 ▸ hhas))
    | reloaded hsave hstored =>
      intro _
      exact hloaded _ hstored
    | followed hsave hfront =>
      subst hload
      intro _
      exact hfront
    | behind hsave hfront hhas htime hcursor =>
      rw [hs hhas] at htime hcursor
      exact absurd (not_behind hb htarget (haccepted _ hsave) htime hcursor) not_false

/-! ### All runs -/

private theorem follows_run {r : LoopRunner} (hr : r.hasFront = false) {store : Held} {s : Replica}
    (hrun : Relation.ReflTransGen
      (Replica.Step V (Relation.ReflTransGen Held.OtherSave) fun _ _ => True) ⟨r, store⟩ s) :
    s.Follows := by
  induction hrun with
  | refl => exact fun h => absurd h (by simp [hr])
  | tail _ hstep ih =>
    cases hstep with
    | batch hkey hb h => exact follows_batch ih h
    | reset => exact fun h => absurd h (by simp [LoopRunner.reset])
    | others h => exact follows_later ih ⟨rfl, rfl⟩ (Held.later_of_otherSaves h)

private theorem mirrors_run {r : LoopRunner} (hr : r.hasFront = false) {store : Held} {s : Replica}
    (hrun : Relation.ReflTransGen (Replica.Step V Eq Disciplined) ⟨r, store⟩ s) : s.Mirrors := by
  induction hrun with
  | refl => exact fun h => absurd h (by simp [hr])
  | tail _ hstep ih =>
    cases hstep with
    | batch hkey hb h => exact mirrors_batch ih hb h
    | reset => exact fun h => absurd h (by simp [LoopRunner.reset])
    | others h =>
      subst h
      exact ih

/-- **The position in memory never runs ahead of the store, and mirrors it.**  Beside any other
replicas it is a value the store has held, at a time not after the stored one.  If nobody else
writes and the batches are disciplined, `Since` returns the stored watermark after every
batch. -/
theorem frontier_mirrors_store (key : CheckpointKey) (maxDPM : Int) (store : Held) :
    (∀ s, Relation.ReflTransGen
        (Replica.Step V (Relation.ReflTransGen Held.OtherSave) fun _ _ => True)
        ⟨.new key maxDPM, store⟩ s → s.runner.hasFront = true →
      s.runner.frontier ∈ s.store.values ∧ s.runner.frontier.time ≤ s.store.stored.time) ∧
    ∀ s, Relation.ReflTransGen (Replica.Step V Eq Disciplined) ⟨.new key maxDPM, store⟩ s →
      ∀ (g : Guard) (env : Env V) (b : Batch V) (atSave atLoad after : Held),
      b.key = s.runner.key → Disciplined s.store b →
      StoreAnswers Eq s.store atSave atLoad after env (processBatch s.runner g env b).2.2 →
      (processBatch s.runner g env b).1.since (some after.stored) = some after.stored := by
  refine ⟨fun s hrun => follows_run rfl hrun, ?_⟩
  intro s hrun g env b atSave atLoad after _ hb h
  have hafter := mirrors_batch (mirrors_run rfl hrun) hb h
  unfold LoopRunner.since
  split
  · rename_i hhas
    exact congrArg some (hafter hhas)
  · rfl

/-- A guard without a budget. -/
def unlimitedGuard : Guard := newGuard
  { allowLabelKeys := [], denyFieldKeys := [], denyFieldKeysByLoop := .empty, perSeriesBudget := 0 }

/-- A store that answers by its fence, at the save and at the load after it. -/
def fencedBy (stored loaded : Watermark) : Env Nat :=
  { leaderAtStart := true
    leaderAtCommit := true
    epoch := 1
    emit := fun _ => none
    save := fun w => match checkMonotonic stored w with
      | .ok _ => .ok
      | .error _ => .stale
    load := some loaded }

private theorem answers_fencedBy {writes : Held → Held → Prop} {before atSave atLoad after : Held}
    {calls : List (Call Nat)} (hbefore : writes before atSave)
    (hload : writes ((written calls).foldl Held.save atSave) atLoad) (hafter : writes atLoad after) :
    StoreAnswers writes before atSave atLoad after (fencedBy atSave.stored atLoad.stored) calls := by
  refine ⟨hbefore, fun w hw => ?_, fun w hw => ?_, fun w landed hw => ?_, hload,
    fun w hw => (Option.some.inj hw).symm, hafter⟩
  · unfold fencedBy at hw
    dsimp only at hw
    split at hw
    · assumption
    · cases hw
  · unfold fencedBy at hw
    dsimp only at hw
    split at hw
    · cases hw
    · rename_i herr
      simp [herr]
  · unfold fencedBy at hw
    dsimp only at hw
    split at hw <;> cases hw

/-- A batch that only moves the cursor, at the zero time. -/
def cursorBatch (cursor : String) : Batch Nat :=
  { key := ⟨"portkey", "logs_export", "f"⟩, watermark := { cursor } }

/-- Processing it before such a store. -/
def processCursor (r : LoopRunner) (stored loaded : Watermark) (cursor : String) :
    LoopRunner × Guard × List (Call Nat) :=
  processBatch r unlimitedGuard (fencedBy stored loaded) (cursorBatch cursor)

private theorem step_cursor {writes : Held → Held → Prop} {admits : Held → Batch Nat → Prop}
    (hrefl : ∀ s, writes s s) (r : LoopRunner) (store store' : Held) (cursor : String)
    (hkey : (cursorBatch cursor).key = r.key) (hb : admits store (cursorBatch cursor))
    (hwritten : (written (processCursor r store.stored store'.stored cursor).2.2).foldl Held.save
      store = store') :
    Replica.Step Nat writes admits ⟨r, store⟩
      ⟨(processCursor r store.stored store'.stored cursor).1, store'⟩ := by
  have hanswers := @answers_fencedBy writes store store store' store'
    (processCursor r store.stored store'.stored cursor).2.2 (hrefl _)
    (by rw [hwritten]; exact hrefl _) (hrefl _)
  exact .batch hkey hb hanswers

/-- The runner of those batches, and after the first. -/
def cursorRunner : LoopRunner := .new ⟨"portkey", "logs_export", "f"⟩ 1

def cursorRunner' : LoopRunner := (processCursor cursorRunner {} ⟨0, "c", 1⟩ "c").1

private theorem step_first {writes : Held → Held → Prop} {admits : Held → Batch Nat → Prop}
    (hrefl : ∀ s, writes s s) (hb : admits ⟨{}, []⟩ (cursorBatch "c")) :
    Replica.Step Nat writes admits ⟨cursorRunner, ⟨{}, []⟩⟩
      ⟨cursorRunner', ⟨⟨0, "c", 1⟩, [{}]⟩⟩ :=
  step_cursor hrefl cursorRunner ⟨{}, []⟩ ⟨⟨0, "c", 1⟩, [{}]⟩ "c" (by decide) hb (by decide +kernel)

/-- A run with a takeover: the first batch is saved; another replica of a later epoch saves the next
window, which leaves the position in memory behind; the second batch is refused, and the position
of the other replica is taken over.  And a run without: after the second batch `Since` returns what
it stored. -/
theorem frontier_mirrors_store_takeover :
    (∃ s₁ s₂,
      Relation.ReflTransGen
        (Replica.Step Nat (Relation.ReflTransGen Held.OtherSave) fun _ _ => True)
        ⟨cursorRunner, ⟨{}, []⟩⟩ s₁ ∧
      s₁.runner.frontier = ⟨0, "c", 1⟩ ∧ s₁.store.stored = ⟨1, "", 2⟩ ∧
      s₁.runner.frontier ∈ s₁.store.values ∧
      Replica.Step Nat (Relation.ReflTransGen Held.OtherSave) (fun _ _ => True) s₁ s₂ ∧
      s₂.runner.frontier = ⟨1, "", 2⟩ ∧ s₂.runner.frontier ∈ s₂.store.values) ∧
    (processCursor cursorRunner' ⟨0, "c", 1⟩ ⟨0, "d", 1⟩ "d").1.since (some ⟨0, "d", 1⟩) =
      some ⟨0, "d", 1⟩ := by
  constructor
  · let store : Held := ⟨⟨1, "", 2⟩, [⟨0, "c", 1⟩, {}]⟩
    have hother : Held.OtherSave ⟨⟨0, "c", 1⟩, [{}]⟩ store := ⟨⟨1, "", 2⟩, by decide +kernel, rfl⟩
    have hfirst : Replica.Step Nat (Relation.ReflTransGen Held.OtherSave) (fun _ _ => True)
        ⟨cursorRunner, ⟨{}, []⟩⟩ ⟨cursorRunner', ⟨⟨0, "c", 1⟩, [{}]⟩⟩ :=
      step_first (fun _ => Relation.ReflTransGen.refl) trivial
    have hothers : Replica.Step Nat (Relation.ReflTransGen Held.OtherSave) (fun _ _ => True)
        ⟨cursorRunner', ⟨⟨0, "c", 1⟩, [{}]⟩⟩ ⟨cursorRunner', store⟩ :=
      .others (Relation.ReflTransGen.single hother)
    have hsecond : Replica.Step Nat (Relation.ReflTransGen Held.OtherSave) (fun _ _ => True)
        ⟨cursorRunner', store⟩
        ⟨(processCursor cursorRunner' store.stored store.stored "d").1, store⟩ :=
      step_cursor (fun _ => Relation.ReflTransGen.refl) cursorRunner' store store "d"
        (by decide +kernel) trivial (by decide +kernel)
    have hrun := (Relation.ReflTransGen.single hfirst).tail hothers
    have hmirrors := (frontier_mirrors_store (V := Nat) cursorRunner.key 1 ⟨{}, []⟩).1
    refine ⟨_, _, hrun, by decide +kernel, rfl, (hmirrors _ hrun (by decide +kernel)).1, hsecond,
      by decide +kernel, (hmirrors _ (hrun.tail hsecond) (by decide +kernel)).1⟩
  · have hfirst : Replica.Step Nat Eq Disciplined ⟨cursorRunner, ⟨{}, []⟩⟩
        ⟨cursorRunner', ⟨⟨0, "c", 1⟩, [{}]⟩⟩ :=
      step_first (fun _ => rfl) ⟨fun h => absurd rfl h, fun _ => Or.inl (by decide)⟩
    refine (frontier_mirrors_store (V := Nat) cursorRunner.key 1 ⟨{}, []⟩).2 _ (.single hfirst)
      unlimitedGuard (fencedBy ⟨0, "c", 1⟩ ⟨0, "d", 1⟩) (cursorBatch "d") ⟨⟨0, "c", 1⟩, [{}]⟩
      ⟨⟨0, "d", 1⟩, [⟨0, "c", 1⟩, {}]⟩ ⟨⟨0, "d", 1⟩, [⟨0, "c", 1⟩, {}]⟩ (by decide +kernel)
      ⟨fun h => absurd rfl h, fun _ => Or.inl (by decide)⟩
      (answers_fencedBy rfl (by decide +kernel) rfl)

end GenaiBridge
