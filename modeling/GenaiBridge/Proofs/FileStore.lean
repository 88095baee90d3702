/-
A save of the file store is all or nothing.

By its steps a save changes the map, writes the file and puts the map back when that fails;
as a whole it either replaces map and file or neither (`save_refines`).  So what the file
holds is the map in memory, after any run and any failures, and as every save passed the
fence against the map, epoch and time of a key only grow.
-/
import GenaiBridge.Proofs.RoundTrip

namespace GenaiBridge

namespace FileStore

open Lib (SortedMap)

variable {Text : Type} {yaml : Yaml Text}

/-! ### The steps of a save -/

/-- The error a flush returns, if the file system has one. -/
def DiskAnswers.failure (answers : DiskAnswers Text) : Option String :=
  answers.mkdirAll.or ((answers.writeFile.map Prod.fst).or answers.rename)

/-- Map and file, without the temporary file. -/
def DiskStore.whole (s : DiskStore Text) : Store Text := ⟨s.data, s.disk.file⟩

/-- A flush replaces the file by the text of the map, or leaves it and returns an error. -/
theorem flushLocked_spec (yaml : Yaml Text) (answers : DiskAnswers Text)
    (data : SortedMap String Watermark) (disk : Disk Text) :
    match flush yaml answers.failure data with
    | .ok text => flushLocked yaml answers data disk = (⟨some text, none⟩, .ok ())
    | .error err => ∃ tmp, flushLocked yaml answers data disk = (⟨disk.file, tmp⟩, .error err) := by
  unfold flush flushLocked DiskAnswers.failure
  cases yaml.marshal (data.map writeRecord) with
  | error err => exact ⟨disk.tmp, rfl⟩
  | ok text =>
    cases answers.mkdirAll with
    | some err => exact ⟨disk.tmp, rfl⟩
    | none =>
      cases answers.writeFile with
      | some failed => exact ⟨failed.2, rfl⟩
      | none =>
        cases answers.rename with
        | some err => exact ⟨some text, rfl⟩
        | none => rfl

/-- **A save by its steps is the save as a whole.** -/
theorem save_refines (yaml : Yaml Text) (answers : DiskAnswers Text) (s : DiskStore Text)
    (key : CheckpointKey) (w : Watermark) :
    s.whole.save yaml answers.failure key w =
      ((s.save yaml answers key w).1.whole, (s.save yaml answers key w).2) := by
  have hspec := flushLocked_spec yaml answers (s.data.insert key.string w) s.disk
  unfold Store.save DiskStore.save Store.load DiskStore.whole
  dsimp only
  cases checkMonotonic ((s.data.get? key.string).getD {}) w with
  | error e => rfl
  | ok _ =>
    dsimp only
    cases hflush : flush yaml answers.failure (s.data.insert key.string w) with
    | ok text =>
      rw [hflush] at hspec
      rw [hspec]
    | error err =>
      rw [hflush] at hspec
      obtain ⟨tmp, hlocked⟩ := hspec
      rw [hlocked]
      dsimp only
      -- the entry is put back as it was, or taken out again
      cases hprev : s.data.get? key.string with
      | some prev =>
        dsimp only
        rw [SortedMap.insert_insert_of_get? hprev]
      | none =>
        dsimp only
        rw [SortedMap.erase_insert_of_get? hprev]

/-! ### What a save does -/

theorem save_error {failure : Option String} {s s' : Store Text} {key : CheckpointKey}
    {w : Watermark} {e : SaveError} (h : s.save yaml failure key w = (s', .error e)) : s' = s := by
  unfold Store.save at h
  cases hcheck : checkMonotonic (s.load key) w with
  | error e =>
    rw [hcheck] at h
    exact (Prod.mk.inj h).1.symm
  | ok _ =>
    rw [hcheck] at h
    dsimp only at h
    cases hflush : flush yaml failure (s.data.insert key.string w) with
    | error err =>
      rw [hflush] at h
      exact (Prod.mk.inj h).1.symm
    | ok text =>
      rw [hflush] at h
      cases (Prod.mk.inj h).2

theorem save_passed {failure : Option String} {s s' : Store Text} {key : CheckpointKey}
    {w : Watermark} (h : s.save yaml failure key w = (s', .ok ())) :
    checkMonotonic (s.load key) w = .ok () := by
  unfold Store.save at h
  cases hcheck : checkMonotonic (s.load key) w with
  | error e =>
    rw [hcheck] at h
    cases (Prod.mk.inj h).2
  | ok _ => rfl

/-- A save that returned nil: it passed the fence, and replaced its entry and the file. -/
structure WroteBoth (yaml : Yaml Text) (s : DiskStore Text) (key : CheckpointKey) (w : Watermark)
    (s' : DiskStore Text) : Prop where
  passed : checkMonotonic ((s.data.get? key.string).getD {}) w = .ok ()
  data : s'.data = s.data.insert key.string w
  written : ∃ text, s'.disk.file = some text ∧ yaml.marshal (s'.data.map writeRecord) = .ok text

/-- **A save is all or nothing.** -/
theorem save_cases (yaml : Yaml Text) (answers : DiskAnswers Text) (s : DiskStore Text)
    (key : CheckpointKey) (w : Watermark) :
    (∃ e, (s.save yaml answers key w).2 = .error e ∧
      (s.save yaml answers key w).1.whole = s.whole) ∨
    (s.save yaml answers key w).2 = .ok () ∧
      WroteBoth yaml s key w (s.save yaml answers key w).1 := by
  have hrefines := save_refines yaml answers s key w
  generalize (s.save yaml answers key w).1 = s' at *
  generalize (s.save yaml answers key w).2 = r at *
  cases r with
  | error e => exact .inl ⟨e, rfl, save_error hrefines⟩
  | ok _ =>
    obtain ⟨text, hmarshal, hwhole⟩ := save_ok hrefines
    have hdata : s'.data = s.data.insert key.string w := congrArg Store.data hwhole
    have hfile : s'.disk.file = some text := congrArg Store.file hwhole
    have hpassed := save_passed hrefines
    exact .inr ⟨rfl, hpassed, hdata, text, hfile, by rw [hdata]; exact hmarshal⟩

/-! ### Runs -/

/-- A call of `Save`, and what the file system answers during it. -/
structure SaveCall (Text : Type) where
  key : CheckpointKey
  watermark : Watermark
  answers : DiskAnswers Text

/-- The store after a call. -/
def DiskStore.after (yaml : Yaml Text) (s : DiskStore Text) (c : SaveCall Text) : DiskStore Text :=
  (s.save yaml c.answers c.key c.watermark).1

/-- The store after calls. -/
def DiskStore.run (yaml : Yaml Text) (s : DiskStore Text) (calls : List (SaveCall Text)) :
    DiskStore Text :=
  calls.foldl (DiskStore.after yaml) s

/-- A text that holds the map: it is its document, and is read as the map if every year has four
digits. -/
structure Holds (yaml : Yaml Text) (text : Text) (data : SortedMap String Watermark) : Prop where
  document : yaml.unmarshal text = some (data.map writeRecord)
  read : (∀ e ∈ data.entries, Readable e.2.time) →
    (yaml.unmarshal text).bind readDocument = some data

/-- The map is what the file holds: as `New` left the two, or what was written last. -/
def DiskStore.Durable (yaml : Yaml Text) (loaded : Store Text) (s : DiskStore Text) : Prop :=
  s.whole = loaded ∨ ∃ text, s.disk.file = some text ∧ Holds yaml text s.data

/-- The map is what `New` reads from the file: nothing if there is none, or if it cannot be read and
that is ignored. -/
def Store.Loaded (yaml : Yaml Text) (ignoreInvalid : Bool) (s : Store Text) : Prop :=
  match s.file with
  | none => s.data = .empty
  | some text =>
    match (yaml.unmarshal text).bind readDocument with
    | some data => s.data = data
    | none => ignoreInvalid = true ∧ s.data = .empty

/-- Every key of `s` is one of `s'`, with no earlier epoch and time. -/
def DiskStore.NotBehind (s s' : DiskStore Text) : Prop :=
  ∀ k a, s.data.get? k = some a →
    ∃ b, s'.data.get? k = some b ∧ a.epoch ≤ b.epoch ∧ a.time ≤ b.time

theorem holds_of_marshal {text : Text} {data : SortedMap String Watermark}
    (h : yaml.marshal (data.map writeRecord) = .ok text) : Holds yaml text data := by
  have hdoc := yaml.unmarshal_marshal h
  refine ⟨hdoc, fun hread => ?_⟩
  rw [hdoc, Option.bind_some, readDocument_map, if_pos hread]

theorem loaded_of_new {ignoreInvalid : Bool} {read : FileRead Text} {s : Store Text}
    (h : new yaml ignoreInvalid read = .ok s) : s.Loaded yaml ignoreInvalid := by
  cases read with
  | absent =>
    obtain rfl := Except.ok.inj h
    rfl
  | failed cause => cases h
  | content text =>
    unfold new at h
    dsimp only at h
    cases hread : (yaml.unmarshal text).bind readDocument with
    | some data =>
      rw [hread] at h
      obtain rfl := Except.ok.inj h
      simp only [Store.Loaded, hread]
    | none =>
      rw [hread] at h
      dsimp only at h
      by_cases hignore : ignoreInvalid = true
      · rw [if_pos hignore] at h
        obtain rfl := Except.ok.inj h
        simp only [Store.Loaded, hread, and_true]
        exact hignore
      · rw [if_neg hignore] at h
        cases h

theorem durable_after {loaded : Store Text} {s : DiskStore Text} (h : s.Durable yaml loaded)
    (c : SaveCall Text) : (s.after yaml c).Durable yaml loaded := by
  rcases save_cases yaml c.answers s c.key c.watermark with ⟨e, -, hwhole⟩ | ⟨-, hsaved⟩
  · have hdata : (s.after yaml c).data = s.data := congrArg Store.data hwhole
    have hfile : (s.after yaml c).disk.file = s.disk.file := congrArg Store.file hwhole
    rcases h with h | ⟨text, htext, hholds⟩
    · exact .inl (hwhole.trans h)
    · exact .inr ⟨text, hfile.trans htext, by rw [hdata]; exact hholds⟩
  · obtain ⟨text, hfile, hmarshal⟩ := hsaved.written
    exact .inr ⟨text, hfile, holds_of_marshal hmarshal⟩

theorem durable_run {loaded : Store Text} : ∀ {calls : List (SaveCall Text)} {s : DiskStore Text},
    s.Durable yaml loaded → (s.run yaml calls).Durable yaml loaded := by
  intro calls
  induction calls with
  | nil => exact fun h => h
  | cons c calls ih => exact fun h => ih (durable_after h c)

theorem notBehind_after (yaml : Yaml Text) (s : DiskStore Text) (c : SaveCall Text) :
    s.NotBehind (s.after yaml c) := by
  intro k a ha
  rcases save_cases yaml c.answers s c.key c.watermark with ⟨e, -, hwhole⟩ | ⟨-, hsaved⟩
  · have hdata : (s.after yaml c).data = s.data := congrArg Store.data hwhole
    exact ⟨a, by rw [hdata, ha], Int64.le_refl _, le_refl _⟩
  · have hdata : (s.after yaml c).data = s.data.insert c.key.string c.watermark := hsaved.data
    rw [hdata, SortedMap.get?_insert]
    by_cases hk : k = c.key.string
    · have hpassed := hsaved.passed
      rw [← hk, ha] at hpassed
      rw [if_pos hk]
      exact ⟨c.watermark, rfl, checkMonotonic_ok hpassed⟩
    · rw [if_neg hk]
      exact ⟨a, ha, Int64.le_refl _, le_refl _⟩

theorem notBehind_run (yaml : Yaml Text) : ∀ (calls : List (SaveCall Text)) (s : DiskStore Text),
    s.NotBehind (s.run yaml calls) := by
  intro calls
  induction calls with
  | nil => exact fun s k a ha => ⟨a, ha, Int64.le_refl _, le_refl _⟩
  | cons c calls ih =>
    intro s k a ha
    obtain ⟨b, hb, hepoch, htime⟩ := notBehind_after yaml s c k a ha
    obtain ⟨b', hb', hepoch', htime'⟩ := ih (s.after yaml c) k b hb
    exact ⟨b', hb', Int64.le_trans hepoch hepoch', le_trans htime htime'⟩

/-- A save that returned nil changed the entry of its key, and no other. -/
theorem WroteBoth.changes {s s' : DiskStore Text} {key : CheckpointKey} {w : Watermark}
    (h : WroteBoth yaml s key w s') (k : String) :
    s'.data.get? k ≠ s.data.get? k ↔ k = key.string := by
  rw [h.data, SortedMap.get?_insert]
  by_cases hk : k = key.string
  · rw [if_pos hk]
    refine iff_of_true (fun heq => ?_) hk
    have hpassed := h.passed
    rw [← hk, ← heq] at hpassed
    -- the fence refuses what is stored already
    unfold checkMonotonic at hpassed
    simp at hpassed
  · rw [if_neg hk]
    exact iff_of_false (fun h => h rfl) hk

/-- A store as `New` opened it, whatever is left in the temporary file. -/
def Store.opened (s : Store Text) (tmp : Option Text) : DiskStore Text := ⟨s.data, ⟨s.file, tmp⟩⟩

/-- **The file store is atomic.**  After any calls, whatever fails in them, the map in memory is
what the last rename put in place, or what `New` loaded; a save that returns an error leaves map and
file as they were, one that returns nil changes just its own key; and epoch and time of a key never
decrease. -/
theorem file_store_atomic (yaml : Yaml Text) {ignoreInvalid : Bool} {read : FileRead Text}
    {loaded : Store Text} (hnew : new yaml ignoreInvalid read = .ok loaded) (tmp : Option Text)
    (calls : List (SaveCall Text)) :
    let s := (loaded.opened tmp).run yaml calls
    loaded.Loaded yaml ignoreInvalid ∧ s.Durable yaml loaded ∧
    (∀ c : SaveCall Text,
      (∀ e, (s.save yaml c.answers c.key c.watermark).2 = .error e →
        (s.after yaml c).whole = s.whole) ∧
      ((s.save yaml c.answers c.key c.watermark).2 = .ok () →
        (s.after yaml c).data.get? c.key.string = some c.watermark ∧
        ∀ k, (s.after yaml c).data.get? k ≠ s.data.get? k ↔ k = c.key.string)) ∧
    ∀ more, s.NotBehind (s.run yaml more) := by
  intro s
  refine ⟨loaded_of_new hnew, durable_run (.inl rfl), fun c => ?_, fun more =>
    notBehind_run yaml more s⟩
  rcases save_cases yaml c.answers s c.key c.watermark with ⟨e, herr, hwhole⟩ | ⟨hok, hsaved⟩
  · refine ⟨fun _ _ => hwhole, fun hok => ?_⟩
    rw [herr] at hok
    cases hok
  · refine ⟨fun e herr => ?_, fun _ => ⟨?_, hsaved.changes⟩⟩
    · rw [hok] at herr
      cases herr
    · unfold DiskStore.after
      rw [hsaved.data, SortedMap.get?_insert_self]

/-- A save of a minute, and what the rename in it answers. -/
def minuteSave (n : Int) (rename : Option String) : SaveCall Document where
  key := ⟨"portkey", "analytics", "0123456789abcdef"⟩
  watermark := { time := n * minute, epoch := 1 }
  answers := { mkdirAll := none, writeFile := none, rename := rename }

/-- The second of two saves fails, and leaves what the first one wrote. -/
theorem file_store_atomic_second_fails :
    let s := ((⟨.empty, none⟩ : Store Document).opened none).run plainYaml [minuteSave 1 none]
    s.data.get? (minuteSave 1 none).key.string = some (minuteSave 1 none).watermark ∧
      (s.after plainYaml (minuteSave 2 (some "disk full"))).whole = s.whole := by
  intro s
  have hnew : new plainYaml false .absent = .ok ⟨.empty, none⟩ := rfl
  obtain ⟨-, -, hsaves, -⟩ := file_store_atomic plainYaml hnew none []
  obtain ⟨-, -, hsaves', -⟩ := file_store_atomic plainYaml hnew none [minuteSave 1 none]
  refine ⟨((hsaves (minuteSave 1 none)).2 ?_).1, (hsaves' (minuteSave 2 (some "disk full"))).1
    (.write "disk full") ?_⟩
  · decide +kernel
  · decide +kernel

end FileStore

end GenaiBridge
