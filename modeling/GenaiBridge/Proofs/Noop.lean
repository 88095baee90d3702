/-
A single replica is never fenced by its predecessors.

`Noop.heal` takes an epoch that is at least every epoch stored under the loops' keys,
and no larger than what is stored already.  The first keeps the fence from refusing the
replica's own saves, over every run of the store that only the replica writes; the
second leaves the store as usable for elections as it was.
-/
import GenaiBridge.Bridge.Noop
import GenaiBridge.Proofs.FileStore
import GenaiBridge.Proofs.Stores

namespace GenaiBridge

open Lib.Optimistic

/-! ### The epoch taken over -/

namespace Noop

variable {load : CheckpointKey → Option Watermark}

/-- It is the largest of what it started from and of what could be read. -/
theorem maxStored_le_iff {bound : Int64} : ∀ (keys : List CheckpointKey) (m : Int64),
    maxStored load m keys ≤ bound ↔
      m ≤ bound ∧ ∀ key ∈ keys, ∀ wm, load key = some wm → wm.epoch ≤ bound := by
  intro keys
  induction keys with
  | nil => intro m; simp [maxStored]
  | cons key keys ih =>
    intro m
    rw [List.forall_mem_cons]
    unfold maxStored
    cases load key with
    | none => simp [ih]
    | some wm =>
      dsimp only
      rw [ih]
      have hmax : (if m < wm.epoch then wm.epoch else m) ≤ bound ↔
          m ≤ bound ∧ wm.epoch ≤ bound := by
        split_ifs with hlt
        · exact ⟨fun h => ⟨Int64.le_trans (Int64.le_of_lt hlt) h, h⟩, fun h => h.2⟩
        · exact ⟨fun h => ⟨h, Int64.le_trans (Int64.not_lt.mp hlt) h⟩, fun h => h.1⟩
      simp [hmax, and_assoc]

theorem one_le_stamped (n : Noop) : 1 ≤ n.stamped := by
  unfold stamped
  change 1 ≤ if 1 ≤ n.epoch then n.epoch else 1
  split_ifs with h
  · exact h
  · exact Int64.le_refl 1

theorem stamped_le {n : Noop} {bound : Int64} (h1 : 1 ≤ bound) (h : n.epoch ≤ bound) :
    n.stamped ≤ bound := by
  unfold stamped
  change (if 1 ≤ n.epoch then n.epoch else 1) ≤ bound
  split_ifs
  · exact h
  · exact h1

theorem stamped_heal (n : Noop) (keys : List CheckpointKey) :
    (n.heal load keys).stamped = maxStored load n.stamped keys := by
  have hle :=
    ((maxStored_le_iff keys n.stamped).mp (Int64.le_refl (maxStored load n.stamped keys))).1
  unfold heal
  dsimp only
  change (if n.stamped < maxStored load n.stamped keys then
    (⟨maxStored load n.stamped keys⟩ : Noop) else n).stamped = _
  by_cases hlt : n.stamped < maxStored load n.stamped keys
  · rw [if_pos hlt]
    have hone := Int64.le_trans (one_le_stamped n) hle
    change (if 1 ≤ maxStored load n.stamped keys then maxStored load n.stamped keys else 1) = _
    rw [if_pos hone]
  · rw [if_neg hlt]
    exact Int64.le_antisymm hle (Int64.not_lt.mp hlt)

end Noop

/-! ### A store that one replica writes -/

section Store

variable {Loc σ Req ρ : Type} [DecidableEq Loc]

/-- A save of the replica: under a key of its loops, with its epoch. -/
def OwnSave (keys : List CheckpointKey) (epoch : Int64) (arg : CheckpointKey × Watermark) : Prop :=
  arg.1 ∈ keys ∧ arg.2.epoch = epoch

/-- A step of a store in which only the replica begins saves. -/
def Store.OwnStep (S : Store Loc σ Req ρ) (keys : List CheckpointKey) (epoch : Int64)
    (s t : S.System) : Prop :=
  Step S.client S.applies s t ∧
    ∀ c arg, s.calls c = .idle → (t.calls c).arg? = some arg → OwnSave keys epoch arg

/-- What a store holds under a key. -/
def Store.load (S : Store Loc σ Req ρ) (s : S.System) (key : CheckpointKey) : Option Watermark :=
  loadEntry S.decode (S.entries s.cells (S.storeKey key))

/-- A save is refused for its epoch only if a larger one is stored. -/
def Store.FencesByEpoch (S : Store Loc σ Req ρ) : Prop :=
  ∀ (s : S.System) arg e stored,
    S.client.prepare arg (s.cells (S.client.loc arg)).current = .error (.staleEpoch e stored) →
    ∃ w, S.load s arg.1 = some w ∧ arg.2.epoch < w.epoch

/-- The other errors of a save are not about epochs. -/
def Store.OtherErrors (S : Store Loc σ Req ρ) : Prop :=
  ∀ arg e stored, S.client.refuses arg ≠ some (.staleEpoch e stored) ∧
    (∀ cause, S.client.readFailed arg cause ≠ .staleEpoch e stored) ∧
    (∀ cause, S.client.writeFailed arg cause ≠ .staleEpoch e stored) ∧
    S.client.exhausted arg ≠ .staleEpoch e stored

/-- **What the healed epoch is good for**, in the systems of a store that satisfy `Ok`: whatever
the store holds and whichever of the loads of `Build` fail, over every run that only the replica
writes. -/
structure Heals (S : Store Loc σ Req ρ) (Ok : S.System → Prop) : Prop where
  /-- No save under a key that `Build` could read is refused for its epoch. -/
  unfenced : ∀ (app : App) (sha256 : String → String) (n : Noop) (contents : Loc → σ)
    (load : CheckpointKey → Option Watermark) (s : S.System),
    (∀ key wm, load key = some wm → S.load (.fresh contents) key = some wm) →
    Relation.ReflTransGen (S.OwnStep (app.keys sha256) (app.coordinator sha256 load n).stamped)
      (.fresh contents) s → Ok s →
    ∀ c key w e stored, load key ≠ none →
      s.calls c ≠ .done (key, w) (.error (.staleEpoch e stored))
  /-- No stored epoch exceeds what was stored or configured before. -/
  bounded : ∀ (app : App) (sha256 : String → String) (n : Noop) (contents : Loc → σ)
    (load : CheckpointKey → Option Watermark) (s : S.System) (bound : Int64),
    (∀ key wm, load key = some wm → S.load (.fresh contents) key = some wm) →
    Relation.ReflTransGen (S.OwnStep (app.keys sha256) (app.coordinator sha256 load n).stamped)
      (.fresh contents) s → Ok s →
    1 ≤ bound → n.epoch ≤ bound →
    (∀ key wm, S.load (.fresh contents) key = some wm → wm.epoch ≤ bound) →
    ∀ key wm, S.load s key = some wm → wm.epoch ≤ bound

variable {S : Store Loc σ Req ρ} {Ok : S.System → Prop}

theorem run_of_ownSteps {keys : List CheckpointKey} {epoch : Int64} {s t : S.System}
    (h : Relation.ReflTransGen (S.OwnStep keys epoch) s t) : Run S.client S.applies s t :=
  Relation.ReflTransGen.mono (r := S.OwnStep keys epoch) (fun _ _ hstep => hstep.1) _ _ h

theorem within_of_ownSteps {keys : List CheckpointKey} {epoch : Int64} {contents : Loc → σ}
    {s : S.System} (h : Relation.ReflTransGen (S.OwnStep keys epoch) (.fresh contents) s) :
    Within (OwnSave keys epoch) s := by
  induction h with
  | refl => exact Within.fresh _ contents
  | tail _ hstep ih => exact ih.step hstep.1 hstep.2

/-- A bound on the stored epochs of some keys, kept by saves under an epoch within it. -/
theorem epoch_le_of_ownSteps (hsafe : StoreSafe S Ok)
    (hok : ∀ s t : S.System, Run S.client S.applies s t → Ok t → Ok s)
    {keys : List CheckpointKey} {epoch bound : Int64} (hepoch : epoch ≤ bound)
    {contents : Loc → σ} {s : S.System}
    (hrun : Relation.ReflTransGen (S.OwnStep keys epoch) (.fresh contents) s) (hs : Ok s)
    {key : CheckpointKey}
    (hstart : ∀ wm, S.load (.fresh contents) key = some wm → wm.epoch ≤ bound) :
    ∀ wm, S.load s key = some wm → wm.epoch ≤ bound := by
  induction hrun with
  | refl => exact hstart
  | @tail u t hrun hstep ih =>
    have hu := hok u t (Relation.ReflTransGen.single hstep.1) hs
    have hwithin := (within_of_ownSteps hrun).step hstep.1 hstep.2
    intro wm hwm
    rcases hsafe.step contents u t (run_of_ownSteps hrun) hu hstep.1 with
      ⟨hcells, -⟩ | ⟨e, hlog, hwrite⟩
    · unfold Store.load at hwm
      rw [hcells] at hwm
      exact ih hu wm hwm
    · by_cases hkey : S.storeKey key = S.storeKey e.arg.1
      · have hwrote := hwrite.wrote
        rw [← hkey] at hwrote
        obtain rfl : wm = e.arg.2 := Option.some.inj (hwm.symm.trans hwrote)
        rw [(hwithin.log e (by rw [hlog]; exact List.mem_cons_self)).2]
        exact hepoch
      · unfold Store.load at hwm
        rw [hwrite.others _ hkey] at hwm
        exact ih hu wm hwm

/-- A refusal for the epoch comes from the check of the save against what is stored. -/
theorem fenced_cases (hfences : S.FencesByEpoch) (hothers : S.OtherErrors) {s t : S.System}
    (hstep : Step S.client S.applies s t) {c : Nat} {arg : CheckpointKey × Watermark}
    {e stored : Int64} (h : t.calls c = .done arg (.error (.staleEpoch e stored))) :
    s.calls c = .done arg (.error (.staleEpoch e stored)) ∨
      (s.calls c).arg? = some arg ∧ ∃ w, S.load s arg.1 = some w ∧ arg.2.epoch < w.epoch := by
  by_cases hold : s.calls c = .done arg (.error (.staleEpoch e stored))
  · exact Or.inl hold
  refine Or.inr ?_
  -- it is new, so the call that moved is this one
  have hcall : ∀ {c' : Nat} {st : Lib.Optimistic.Call (CheckpointKey × Watermark) SaveError},
      Function.update s.calls c' st c = .done arg (.error (.staleEpoch e stored)) →
      c = c' ∧ st = .done arg (.error (.staleEpoch e stored)) := by
    intro c' st hupdate
    by_cases hc : c = c'
    · rw [hc, Function.update_self] at hupdate
      exact ⟨hc, hupdate⟩
    · rw [Function.update_of_ne hc] at hupdate
      exact absurd hupdate hold
  cases hstep with
  | land => exact absurd h hold
  | start c' arg' hidle hok => cases (hcall h).2
  | send c' arg' n req hc' hreq => cases (hcall h).2
  | retry c' arg' n hc' hleft => cases (hcall h).2
  | ack c' arg' n hc' hlanded => cases (hcall h).2
  | refuse c' arg' e' hidle he =>
    obtain ⟨-, herr⟩ := Lib.Optimistic.Call.done.inj (hcall h).2
    rw [Except.error.inj herr] at he
    exact absurd he (hothers arg' e stored).1
  | reject c' arg' n e' hc' he =>
    obtain ⟨rfl, hnew⟩ := hcall h
    obtain ⟨rfl, herr⟩ := Lib.Optimistic.Call.done.inj hnew
    rw [Except.error.inj herr] at he
    exact ⟨by rw [hc']; rfl, hfences s arg' e stored he⟩
  | readFails c' arg' n cause hc' =>
    obtain ⟨-, herr⟩ := Lib.Optimistic.Call.done.inj (hcall h).2
    exact absurd (Except.error.inj herr) ((hothers arg' e stored).2.1 cause)
  | giveUp c' arg' n hc' hspent =>
    obtain ⟨-, herr⟩ := Lib.Optimistic.Call.done.inj (hcall h).2
    exact absurd (Except.error.inj herr) (hothers arg' e stored).2.2.2
  | writeFails c' arg' n cause hc' =>
    obtain ⟨-, herr⟩ := Lib.Optimistic.Call.done.inj (hcall h).2
    exact absurd (Except.error.inj herr) ((hothers arg' e stored).2.2.1 cause)

theorem heals (hsafe : StoreSafe S Ok)
    (hok : ∀ s t : S.System, Run S.client S.applies s t → Ok t → Ok s)
    (hfences : S.FencesByEpoch) (hothers : S.OtherErrors) : Heals S Ok where
  unfenced := by
    intro app sha256 n contents load s hload hrun hs c key w e stored hread hdone
    obtain ⟨wm₀, hwm₀⟩ := Option.ne_none_iff_exists'.mp hread
    generalize hepoch : (app.coordinator sha256 load n).stamped = epoch at hrun
    rw [App.coordinator, Noop.stamped_heal] at hepoch
    induction hrun with
    | refl => cases hdone
    | @tail u t hrun hstep ih =>
      have hu := hok u t (Relation.ReflTransGen.single hstep.1) hs
      rcases fenced_cases hfences hothers hstep.1 hdone with hold | ⟨harg, wm, hwm, hlt⟩
      · exact ih hu hold
      · -- the save is the replica's own, so its epoch is at least what is stored
        obtain ⟨hkey, hown⟩ := (within_of_ownSteps hrun).calls c _ harg
        have hstart : ∀ wm, S.load (.fresh contents) key = some wm → wm.epoch ≤ epoch := by
          intro wm' hwm'
          obtain rfl : wm₀ = wm' := Option.some.inj ((hload key wm₀ hwm₀).symm.trans hwm')
          rw [← hepoch]
          exact ((Noop.maxStored_le_iff _ _).mp (Int64.le_refl _)).2 key hkey wm₀ hwm₀
        have hle := epoch_le_of_ownSteps hsafe hok (Int64.le_refl epoch) hrun hu hstart wm hwm
        rw [hown] at hlt
        exact Int64.not_lt.mpr hle hlt
  bounded := by
    intro app sha256 n contents load s bound hload hrun hs hone hbound hstart key
    refine epoch_le_of_ownSteps hsafe hok ?_ hrun hs (hstart key)
    rw [App.coordinator, Noop.stamped_heal]
    exact (Noop.maxStored_le_iff _ _).mpr ⟨Noop.stamped_le hone hbound,
      fun key' _ wm hwm => hstart key' wm (hload key' wm hwm)⟩

end Store

/-! ### The three stores -/

theorem checkMonotonic_staleEpoch {stored w : Watermark} {e e' : Int64}
    (h : checkMonotonic stored w = .error (.staleEpoch e e')) : w.epoch < stored.epoch := by
  unfold checkMonotonic at h
  by_cases hepoch : w.epoch < stored.epoch
  · exact hepoch
  · rw [if_neg hepoch] at h
    split at h
    · cases h
    · split at h <;> cases h

theorem refusesSave_ne (w : Watermark) (e stored : Int64) :
    refusesSave w ≠ some (.staleEpoch e stored) := by
  unfold refusesSave checkEncodable
  dsimp only
  split_ifs
  · intro h; cases h
  · intro h; cases h

theorem ConfigMap.fencesByEpoch (sha256 : String → String) :
    (ConfigMap.store sha256).FencesByEpoch := by
  rintro s ⟨key, w⟩ e stored h
  change ConfigMap.prepare sha256 (key, w) (s.cells ()).current = _ at h
  unfold ConfigMap.prepare at h
  dsimp only at h
  split at h
  · cases h
  · rename_i wm hload
    refine ⟨wm, hload, ?_⟩
    split at h
    · rename_i err hcheck
      obtain rfl := Except.error.inj h
      exact checkMonotonic_staleEpoch hcheck
    · split at h
      · cases h
      · split at h <;> cases h

theorem ConfigMap.otherErrors (sha256 : String → String) :
    (ConfigMap.store sha256).OtherErrors := by
  intro arg e stored
  refine ⟨refusesSave_ne arg.2 e stored, ?_, ?_, ?_⟩
  · intro cause h; cases h
  · intro cause h; cases h
  · intro h; cases h

theorem DynamoDB.otherErrors (keyspace : String) : (DynamoDB.store keyspace).OtherErrors := by
  intro arg e stored
  refine ⟨refusesSave_ne arg.2 e stored, ?_, ?_, ?_⟩
  · intro cause h; cases h
  · intro cause h; cases h
  · intro h; cases h

theorem DynamoDB.fencesByEpoch (keyspace : String) :
    (DynamoDB.store keyspace).FencesByEpoch := by
  rintro s ⟨key, w⟩ e stored h
  change DynamoDB.prepare (key, w) (s.cells (DynamoDB.pk keyspace key)).current = _ at h
  unfold DynamoDB.prepare at h
  dsimp only at h
  split at h
  · rename_i err hread
    obtain rfl := Except.error.inj h
    unfold DynamoDB.readItem at hread
    split at hread
    · cases hread
    · split at hread <;> cases hread
  · rename_i wm version condition hread
    refine ⟨wm, (DynamoDB.readItem_ok hread).1, ?_⟩
    split at h
    · rename_i err hcheck
      obtain rfl := Except.error.inj h
      exact checkMonotonic_staleEpoch hcheck
    · cases h

/-! ### The file store -/

namespace FileStore

variable {Text : Type}

/-- What the map holds under a key. -/
def DiskStore.stored (s : DiskStore Text) (key : CheckpointKey) : Watermark :=
  (s.data.get? key.string).getD {}

/-- A bound on the stored epochs, kept by saves under an epoch within it. -/
theorem epoch_le_of_run (yaml : Yaml Text) {epoch bound : Int64} (hepoch : epoch ≤ bound) :
    ∀ (calls : List (SaveCall Text)) (s : DiskStore Text),
      (∀ c ∈ calls, c.watermark.epoch = epoch) → ∀ key, (s.stored key).epoch ≤ bound →
      ((s.run yaml calls).stored key).epoch ≤ bound := by
  intro calls
  induction calls with
  | nil => intro s _ key hkey; exact hkey
  | cons c calls ih =>
    intro s hcalls key hkey
    refine ih (s.after yaml c) (fun c' hc' => hcalls c' (List.mem_cons_of_mem _ hc')) key ?_
    rcases save_cases yaml c.answers s c.key c.watermark with ⟨e, -, hwhole⟩ | ⟨-, hsaved⟩
    · have hdata : (s.after yaml c).data = s.data := congrArg Store.data hwhole
      unfold DiskStore.stored
      rw [hdata]
      exact hkey
    · have hdata : (s.after yaml c).data = s.data.insert c.key.string c.watermark := hsaved.data
      unfold DiskStore.stored
      rw [hdata, Lib.SortedMap.get?_insert]
      by_cases hk : key.string = c.key.string
      · rw [if_pos hk]
        exact (hcalls c List.mem_cons_self).symm ▸ hepoch
      · rw [if_neg hk]
        exact hkey

theorem save_fenced (yaml : Yaml Text) (answers : DiskAnswers Text) {s : DiskStore Text}
    {key : CheckpointKey} {w : Watermark} {e stored : Int64}
    (h : (s.save yaml answers key w).2 = .error (.staleEpoch e stored)) :
    w.epoch < (s.stored key).epoch := by
  unfold DiskStore.save at h
  dsimp only at h
  cases hcheck : checkMonotonic ((s.data.get? key.string).getD {}) w with
  | error err =>
    rw [hcheck] at h
    obtain rfl := Except.error.inj h
    exact checkMonotonic_staleEpoch hcheck
  | ok _ =>
    rw [hcheck] at h
    dsimp only at h
    cases hflush : flushLocked yaml answers (s.data.insert key.string w) s.disk with
    | mk disk result =>
      rw [hflush] at h
      cases result with
      | ok _ => cases h
      | error err => cases h

end FileStore

/-- **A single replica is never fenced by its predecessors.**  Over each of the three stores, and
whatever epochs earlier deployments left there: with the epoch `Build` takes over, no save of the
replica under a key it could read is refused for its epoch, in any run; and no stored epoch comes
to exceed what was stored or configured before, so a later deployment with elections is fenced no
more than it would have been. -/
theorem noop_never_fenced :
    (∀ sha256, Heals (ConfigMap.store sha256) fun _ => True) ∧
    (∀ keyspace, Heals (DynamoDB.store keyspace) DynamoDB.FewWrites) ∧
    ∀ (Text : Type) (yaml : FileStore.Yaml Text) (app : App) (sha256 : String → String) (n : Noop)
      (s : FileStore.DiskStore Text) (before : List (FileStore.SaveCall Text)),
      (∀ c ∈ before, OwnSave (app.keys sha256)
        (app.coordinator sha256 (fun key => some (s.stored key)) n).stamped (c.key, c.watermark)) →
      (∀ answers key w e stored, OwnSave (app.keys sha256)
          (app.coordinator sha256 (fun key => some (s.stored key)) n).stamped (key, w) →
        ((s.run yaml before).save yaml answers key w).2 ≠ .error (.staleEpoch e stored)) ∧
      ∀ bound, 1 ≤ bound → n.epoch ≤ bound → (∀ key, (s.stored key).epoch ≤ bound) →
        ∀ key, ((s.run yaml before).stored key).epoch ≤ bound := by
  refine ⟨fun sha256 => ?_, fun keyspace => ?_, ?_⟩
  · exact heals (ConfigMap.store_safe sha256) (fun _ _ _ _ => trivial)
      (ConfigMap.fencesByEpoch sha256) (ConfigMap.otherErrors sha256)
  · refine heals (DynamoDB.store_safe keyspace) ?_ (DynamoDB.fencesByEpoch keyspace)
      (DynamoDB.otherErrors keyspace)
    intro s t hrun hfew k
    have hle := (hrun.values_suffix k).length_le
    have := hfew k
    simp only [Cell.values, List.length_cons] at hle
    omega
  · intro Text yaml app sha256 n s before hbefore
    have hepoch : (app.coordinator sha256 (fun key => some (s.stored key)) n).stamped =
        Noop.maxStored (fun key => some (s.stored key)) n.stamped (app.keys sha256) :=
      Noop.stamped_heal n _
    refine ⟨?_, ?_⟩
    · intro answers key w e stored hown hfenced
      have hlt := FileStore.save_fenced yaml answers hfenced
      have hstart : (s.stored key).epoch ≤
          (app.coordinator sha256 (fun key => some (s.stored key)) n).stamped := by
        rw [hepoch]
        exact ((Noop.maxStored_le_iff _ _).mp (Int64.le_refl _)).2 key hown.1 _ rfl
      have hle := FileStore.epoch_le_of_run yaml (Int64.le_refl _) before s
        (fun c hc => (hbefore c hc).2) key hstart
      rw [show w.epoch = _ from hown.2] at hlt
      exact Int64.not_lt.mpr hle hlt
    · intro bound hone hbound hstart key
      refine FileStore.epoch_le_of_run yaml ?_ before s (fun c hc => (hbefore c hc).2) key
        (hstart key)
      rw [hepoch]
      refine (Noop.maxStored_le_iff _ _).mpr ⟨Noop.stamped_le hone hbound, ?_⟩
      intro key' _ wm hwm
      obtain rfl := Option.some.inj hwm
      exact hstart key'

/-! ### A replica after a deployment with elections -/

section

variable {Loc σ Req ρ : Type} [DecidableEq Loc]

/-- A save of the replica that nobody interferes with takes effect, and returns nil. -/
theorem Store.ownSteps_of_save (S : Store Loc σ Req ρ) {keys : List CheckpointKey} {epoch : Int64}
    {s : S.System} {c : Nat} {arg : CheckpointKey × Watermark} {req : Req} {v : σ}
    (hown : OwnSave keys epoch arg) (hidle : s.calls c = .idle) (hok : S.client.refuses arg = none)
    (hreq : S.client.prepare arg (s.cells (S.client.loc arg)).current = .ok req)
    (happlies : S.applies req (s.cells (S.client.loc arg)).current v) :
    ∃ t : S.System, Relation.ReflTransGen (S.OwnStep keys epoch) s t ∧
      t.cells = Function.update s.cells (S.client.loc arg) ((s.cells (S.client.loc arg)).write v) ∧
      t.calls = Function.update s.calls c (.done arg (.ok ())) := by
  let s₁ : S.System := { s with calls := Function.update s.calls c (.reading arg 0) }
  let s₂ : S.System := { s₁ with
    calls := Function.update s₁.calls c (.writing arg 0)
    sent := ⟨c, 0, arg, (s₁.cells (S.client.loc arg)).current, req⟩ :: s₁.sent }
  let s₃ : S.System := { s₂ with
    cells := Function.update s₂.cells (S.client.loc arg) ((s₂.cells (S.client.loc arg)).write v)
    log := ⟨c, 0, arg⟩ :: s₂.log }
  let s₄ : S.System := { s₃ with calls := Function.update s₃.calls c (.done arg (.ok ())) }
  -- every step is of the call, so none begins a save that is not the replica's
  have hours : ∀ {a b : S.System} {st : Lib.Optimistic.Call (CheckpointKey × Watermark) SaveError},
      Step S.client S.applies a b → b.calls = Function.update a.calls c st → st.arg? = some arg →
      S.OwnStep keys epoch a b := by
    intro a b st hstep hcalls hst
    refine ⟨hstep, fun c' arg' hidle' harg => ?_⟩
    rw [hcalls] at harg
    by_cases hc : c' = c
    · rw [hc, Function.update_self, hst] at harg
      rw [← Option.some.inj harg]
      exact hown
    · rw [Function.update_of_ne hc, hidle'] at harg
      cases harg
  have hstart : S.OwnStep keys epoch s s₁ := hours (.start c arg hidle hok) rfl rfl
  have hsend : S.OwnStep keys epoch s₁ s₂ :=
    hours (.send c arg 0 req (Function.update_self ..) hreq) rfl rfl
  have hland : S.OwnStep keys epoch s₂ s₃ :=
    hours (.land ⟨c, 0, arg, (s₁.cells (S.client.loc arg)).current, req⟩ v List.mem_cons_self
      happlies) (Function.update_idem ..).symm rfl
  have hack : S.OwnStep keys epoch s₃ s₄ :=
    hours (.ack c arg 0 (Function.update_self ..) List.mem_cons_self) rfl rfl
  refine ⟨s₄, (((Relation.ReflTransGen.single hstart).tail hsend).tail hland).tail hack, rfl, ?_⟩
  simp only [s₄, s₃, s₂, s₁, Function.update_idem]

end

/-- An app of one loop. -/
private def oneLoop : App where
  loops := [⟨.metrics ⟨⟨"portkey", "analytics", "otlp"⟩, []⟩,
    ⟨true, minute, 0, 0, 0, 0, [], "", .empty⟩⟩]
  guard := newGuard ⟨[], [], .empty, 0⟩

/-- What the last leader of another deployment stored, in its fifth epoch. -/
private def leftBehind : Watermark := { cursor := "a", epoch := 5 }

/-- **A replica after a deployment with elections.**  The epoch it would stamp by itself is refused.
It takes over the stored one; its save is then accepted, and no stored epoch is larger than before. -/
theorem noop_never_fenced_takeover :
    let key : CheckpointKey := ⟨"portkey", "analytics", "otlp"⟩
    let n := oneLoop.coordinator id (fun _ => some leftBehind) {}
    DynamoDB.prepare (key, { cursor := "b", epoch := Noop.stamped {} })
      (some (DynamoDB.encode leftBehind 1)) = .error (.staleEpoch 1 5) ∧
    ∃ s : (DynamoDB.store "").System,
      Relation.ReflTransGen ((DynamoDB.store "").OwnStep (oneLoop.keys id) n.stamped)
        (.fresh fun _ => some (DynamoDB.encode leftBehind 1)) s ∧
      s.calls 0 = .done (key, { cursor := "b", epoch := 5 }) (.ok ()) ∧
      (∀ c w e stored, s.calls c ≠ .done (key, w) (.error (.staleEpoch e stored))) ∧
      ∀ wm, (DynamoDB.store "").load s key = some wm → wm.epoch ≤ 5 := by
  intro key n
  refine ⟨by decide +kernel, ?_⟩
  have hload : ∀ k, (DynamoDB.store "").load (.fresh fun _ => some (DynamoDB.encode leftBehind 1)) k =
      some leftBehind := by
    intro k
    show DynamoDB.load (some (DynamoDB.encode leftBehind 1)) = some leftBehind
    decide +kernel
  let put : DynamoDB.PutItem :=
    ⟨DynamoDB.encode { cursor := "b", epoch := 5 } 2, .versionIs (DynamoDB.nstr 1)⟩
  have hown : OwnSave (oneLoop.keys id) n.stamped (key, { cursor := "b", epoch := 5 }) :=
    ⟨List.mem_singleton.mpr rfl, by decide +kernel⟩
  have hprepare : DynamoDB.prepare (key, { cursor := "b", epoch := 5 })
      (some (DynamoDB.encode leftBehind 1)) = .ok put := by decide +kernel
  have happlies : DynamoDB.applies put (some (DynamoDB.encode leftBehind 1)) (some put.item) :=
    ⟨by decide +kernel, rfl⟩
  obtain ⟨s, hrun, hcells, hcalls⟩ := (DynamoDB.store "").ownSteps_of_save
    (s := .fresh fun _ => some (DynamoDB.encode leftBehind 1)) (c := 0) hown rfl (by decide +kernel)
    hprepare happlies
  have hfew : DynamoDB.FewWrites s := by
    intro k
    rw [hcells]
    by_cases hk : k = (DynamoDB.store "").client.loc (key, { cursor := "b", epoch := 5 })
    · rw [hk, Function.update_self]
      decide
    · rw [Function.update_of_ne hk]
      exact Nat.two_pow_pos 64
  have hheals := noop_never_fenced.2.1 ""
  refine ⟨s, hrun, by rw [hcalls, Function.update_self], ?_, ?_⟩
  · intro c w e stored
    exact hheals.unfenced oneLoop id {} _ _ s (fun k wm hwm => (hload k).trans hwm) hrun hfew c key w
      e stored (by simp)
  · refine hheals.bounded oneLoop id {} _ _ s 5 (fun k wm hwm => (hload k).trans hwm) hrun hfew
      (by decide) (by decide) ?_ key
    intro k wm hwm
    obtain rfl := Option.some.inj ((hload k).symm.trans hwm)
    decide

end GenaiBridge
