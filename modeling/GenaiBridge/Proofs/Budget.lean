/-
The cardinality budget of the guard.

The signature of a label set stands for no other label set, so the signatures the guard
has seen of a series are the label sets it let through.  The calls of any number of
loops share one guard; each sample and record is checked under its lock, so what happens
is a sequence of single checks, in any order.
-/
import GenaiBridge.Bridge.Guard
import GenaiBridge.Lib.Escape

namespace GenaiBridge

/-! ### The signature -/

/-- The characters that are escaped. -/
private def isSpecial (c : Char) : Bool := c = '\\' ∨ c = '=' ∨ c = ';'

private theorem toList_labelSigEscape (s : String) :
    (labelSigEscape s).toList = Lib.escape '\\' isSpecial s.toList := by
  unfold labelSigEscape
  rw [String.toList_ofList]
  refine List.flatMap_congr fun c _ => ?_
  by_cases h : c = '\\' ∨ c = '=' ∨ c = ';' <;> simp [Lib.escapeOne, isSpecial, h]

private theorem toList_labelSig (m : Labels) :
    (labelSig m).toList = (m.entries.map fun e => (e.1.toList, e.2.toList)).flatMap
      (Lib.delimited '\\' isSpecial '=' ';') := by
  unfold labelSig
  rw [String.toList_join, List.flatMap_map, List.flatMap_map]
  refine List.flatMap_congr fun e _ => ?_
  simp [Lib.delimited, toList_labelSigEscape]

/-- **A signature stands for one label set.** -/
theorem labelSig_injective : Function.Injective labelSig := by
  intro m m' h
  have htext := congrArg String.toList h
  rw [toList_labelSig, toList_labelSig] at htext
  have hpair : Lib.SelfDelimiting (Lib.delimited '\\' isSpecial '=' ';') :=
    Lib.selfDelimiting_delimited (by decide) (by decide) (by decide) (by decide) (by decide)
  have hpairs := hpair.flatMap_injective htext
  have hentries : m.entries = m'.entries := by
    refine List.map_injective_iff.mpr ?_ hpairs
    intro a b hab
    obtain ⟨h1, h2⟩ := Prod.mk.inj hab
    exact Prod.ext (String.toList_inj.mp h1) (String.toList_inj.mp h2)
  cases m
  cases m'
  cases hentries
  rfl

/-! ### Single checks -/

/-- What is checked: a sample, or a record of a logs loop. -/
inductive GuardItem (V : Type)
  | sample (s : Sample V)
  | record (loop : String) (lr : LogRecord)

/-- Whose budget a check is under: a metric's, or a logs loop's. -/
inductive GuardStream
  | metric (name : String)
  | logs (loop : String)
deriving DecidableEq

/-- The name of its series. -/
def GuardStream.series : GuardStream → String
  | .metric name => name
  | .logs loop => "logs:" ++ loop

/-- A stream that is not a metric with the name of a logs series. -/
def GuardStream.Named : GuardStream → Prop
  | .metric name => ¬"logs:".toList <+: name.toList
  | .logs _ => True

theorem GuardStream.series_inj {st st' : GuardStream} (h : st.Named) (h' : st'.Named)
    (heq : st.series = st'.series) : st = st' := by
  cases st with
  | metric name =>
    cases st' with
    | metric name' => exact congrArg _ heq
    | logs loop =>
      subst heq
      exact absurd ⟨loop.toList, (String.toList_append ..).symm⟩ h
  | logs loop =>
    cases st' with
    | metric name =>
      subst heq
      exact absurd ⟨loop.toList, (String.toList_append ..).symm⟩ h'
    | logs loop' =>
      have htext := congrArg String.toList heq
      simp only [series, String.toList_append, List.append_cancel_left_eq] at htext
      rw [String.toList_inj.mp htext]

namespace GuardItem

variable {V : Type}

def stream : GuardItem V → GuardStream
  | .sample s => .metric s.name
  | .record loop _ => .logs loop

/-- The labels that are counted. -/
def labels : GuardItem V → Labels
  | .sample s => s.labels
  | .record _ lr => lr.indexedAttributes

end GuardItem

namespace Guard

variable {V : Type}

/-- One check, as `Sanitize` and `SanitizeLogs` make it. -/
def check (g : Guard) : GuardItem V → Bool × Guard
  | .sample s => g.ok s
  | .record loop lr => g.okLog loop { lr with body := "" }

/-- The checks that come before the budget. -/
def keysOk (g : Guard) : GuardItem V → Bool
  | .sample s => !s.labels.keys.any fun k => g.deny k || isContentFloorKey k || !g.allow k
  | .record loop lr =>
    !(lr.indexedAttributes.keys ++ lr.recordAttributes.keys).any
        (fun k => (g.denyByLoop loop).getD g.deny k || isContentFloorKey k) &&
      !lr.indexedAttributes.keys.any fun k => !g.allow k

private theorem ite_refused {α : Type} (refused : Bool) (x y : α) :
    (if refused then x else y) = if !refused then y else x := by
  cases refused <;> rfl

private theorem ite_refused_or {α : Type} (refused refused' : Bool) (x y : α) :
    (if refused then x else if refused' then x else y) =
      if !refused && !refused' then y else x := by
  cases refused <;> cases refused' <;> rfl

theorem check_eq (g : Guard) (i : GuardItem V) :
    g.check i = if g.keysOk i then g.withinBudget i.stream.series (labelSig i.labels)
      else (false, g) := by
  cases i with
  | sample s => exact ite_refused _ _ _
  | record loop lr => exact ite_refused_or _ _ _ _

/-- The guard after some checks. -/
def after (g : Guard) (items : List (GuardItem V)) : Guard := items.foldl (fun g i => (g.check i).2) g

/-- The checks, each with its verdict. -/
def verdicts (g : Guard) : List (GuardItem V) → List (GuardItem V × Bool)
  | [] => []
  | i :: items => (i, (g.check i).1) :: verdicts (g.check i).2 items

/-- The label sets of a stream that were let through. -/
def admitted (g : Guard) (items : List (GuardItem V)) (st : GuardStream) : Finset Labels :=
  (((g.verdicts items).filter fun v => v.2 ∧ v.1.stream = st).map fun v => v.1.labels).toFinset

@[simp] theorem admitted_nil (g : Guard) (st : GuardStream) :
    g.admitted ([] : List (GuardItem V)) st = ∅ := rfl

theorem after_concat (g : Guard) (items : List (GuardItem V)) (i : GuardItem V) :
    g.after (items ++ [i]) = ((g.after items).check i).2 := by
  simp [after]

private theorem verdicts_concat (g : Guard) (items : List (GuardItem V)) (i : GuardItem V) :
    g.verdicts (items ++ [i]) = g.verdicts items ++ [(i, ((g.after items).check i).1)] := by
  induction items generalizing g with
  | nil => rfl
  | cons j items ih => simp [verdicts, ih, after]

theorem admitted_concat (g : Guard) (items : List (GuardItem V)) (i : GuardItem V)
    (st : GuardStream) :
    g.admitted (items ++ [i]) st =
      if ((g.after items).check i).1 ∧ i.stream = st then insert i.labels (g.admitted items st)
      else g.admitted items st := by
  unfold admitted
  rw [verdicts_concat, List.filter_append, List.map_append, List.toFinset_append]
  by_cases h : ((g.after items).check i).1 ∧ i.stream = st
  · rw [if_pos h]
    simp [h]
  · rw [if_neg h]
    simp [h]

private theorem mem_of_mem_verdicts {g : Guard} {items : List (GuardItem V)}
    {v : GuardItem V × Bool} (h : v ∈ g.verdicts items) : v.1 ∈ items := by
  induction items generalizing g with
  | nil => cases h
  | cons i items ih =>
    rcases List.mem_cons.mp h with rfl | h
    · exact List.mem_cons_self
    · exact List.mem_cons_of_mem _ (ih h)

theorem keysOk_check (g : Guard) (i j : GuardItem V) : (g.check i).2.keysOk j = g.keysOk j := by
  rw [check_eq]
  by_cases hkeys : g.keysOk i = true
  · rw [if_pos hkeys]
    unfold withinBudget
    split_ifs <;> cases j <;> rfl
  · rw [if_neg hkeys]

theorem keysOk_of_mem_verdicts {items : List (GuardItem V)} {i : GuardItem V} :
    ∀ {g : Guard}, (i, true) ∈ g.verdicts items → g.keysOk i = true := by
  induction items with
  | nil =>
    intro g h
    cases h
  | cons j items ih =>
    intro g h
    rcases List.mem_cons.mp h with heq | h
    · obtain ⟨rfl, hok⟩ := Prod.mk.inj heq
      by_contra hkeys
      rw [check_eq, if_neg hkeys] at hok
      cases hok
    · rw [← g.keysOk_check j]
      exact ih h

private theorem mem_of_mem_admitted {g : Guard} {items : List (GuardItem V)} {st : GuardStream}
    {labels : Labels} (h : labels ∈ g.admitted items st) : ∃ i ∈ items, i.stream = st := by
  obtain ⟨v, hv, -⟩ := List.mem_map.mp (List.mem_toFinset.mp h)
  obtain ⟨hmem, hst⟩ := List.mem_filter.mp hv
  exact ⟨v.1, mem_of_mem_verdicts hmem, (of_decide_eq_true hst).2⟩

/-! ### The calls as checks -/

/-- `Sanitize` checks its samples in turn and keeps those let through. -/
theorem sanitizeLoop_eq (g : Guard) (samples : List (Sample V)) :
    (g.sanitizeLoop samples).2.2 = g.after (samples.map .sample) ∧
    (g.sanitizeLoop samples).1.map .sample =
      ((g.verdicts (samples.map .sample)).filter fun v => v.2).map Prod.fst := by
  induction samples generalizing g with
  | nil => exact ⟨rfl, rfl⟩
  | cons s samples ih =>
    obtain ⟨hafter, hkept⟩ := ih (g.ok s).2
    show (if (g.ok s).1 then _ else _ : List (Sample V) × Nat × Guard).2.2 = _ ∧
      List.map _ (if (g.ok s).1 then _ else _ : List (Sample V) × Nat × Guard).1 = _
    rw [List.map_cons, verdicts, List.filter_cons]
    show _ = after (g.ok s).2 _ ∧ _ = List.map _ (if (g.ok s).1 then _ else _)
    cases hok : (g.ok s).1 with
    | true => exact ⟨hafter, congrArg _ hkept⟩
    | false => exact ⟨hafter, hkept⟩

theorem sanitizeLoop_congr {g g' : Guard} {samples : List (Sample V)}
    (h : (g.verdicts (samples.map .sample)).map Prod.snd =
      (g'.verdicts (samples.map .sample)).map Prod.snd) :
    (g.sanitizeLoop samples).1 = (g'.sanitizeLoop samples).1 := by
  induction samples generalizing g g' with
  | nil => rfl
  | cons s samples ih =>
    obtain ⟨hok, hrest⟩ := List.cons.inj h
    change (g.ok s).1 = (g'.ok s).1 at hok
    have hkept := ih hrest
    show (if (g.ok s).1 then _ else _ : List (Sample V) × Nat × Guard).1 =
      (if (g'.ok s).1 then _ else _ : List (Sample V) × Nat × Guard).1
    rw [hok]
    split
    · exact congrArg (s :: ·) hkept
    · exact hkept

/-- `SanitizeLogs` empties the bodies of its records, checks them in turn and keeps those let
through. -/
theorem sanitizeLogs_eq (g : Guard) (loop : String) (logs : List LogRecord) :
    (g.sanitizeLogs loop logs).2.2 =
      g.after (logs.map fun lr => (.record loop { lr with body := "" } : GuardItem V)) ∧
    (g.sanitizeLogs loop logs).1.map (fun lr => (.record loop lr : GuardItem V)) =
      ((g.verdicts (logs.map fun lr => (.record loop { lr with body := "" } : GuardItem V))).filter
        fun v => v.2).map Prod.fst := by
  induction logs generalizing g with
  | nil => exact ⟨rfl, rfl⟩
  | cons lr logs ih =>
    obtain ⟨hafter, hkept⟩ := ih (g.okLog loop { lr with body := "" }).2
    show (if (g.okLog loop { lr with body := "" }).1 then _ else _ :
        List LogRecord × Nat × Guard).2.2 = _ ∧
      List.map _ (if (g.okLog loop { lr with body := "" }).1 then _ else _ :
        List LogRecord × Nat × Guard).1 = _
    rw [List.map_cons, verdicts, List.filter_cons]
    show _ = after (g.okLog loop { lr with body := "" }).2 _ ∧
      _ = List.map _ (if (g.okLog loop { lr with body := "" }).1 then _ else _)
    cases hok : (g.okLog loop { lr with body := "" }).1 with
    | true => exact ⟨hafter, congrArg _ hkept⟩
    | false => exact ⟨hafter, hkept⟩

/-- A sample that is kept is one of the batch, and passes the key checks. -/
theorem mem_sanitizeLoop {g : Guard} {samples : List (Sample V)} {s : Sample V}
    (h : s ∈ (g.sanitizeLoop samples).1) :
    s ∈ samples ∧ g.keysOk (.sample s) = true := by
  have hmem := List.mem_map_of_mem (f := GuardItem.sample) h
  rw [(g.sanitizeLoop_eq samples).2] at hmem
  obtain ⟨⟨i, ok⟩, hv, rfl⟩ := List.mem_map.mp hmem
  obtain ⟨hv, rfl⟩ := List.mem_filter.mp hv
  obtain ⟨s', hs', heq⟩ := List.mem_map.mp (mem_of_mem_verdicts hv)
  exact ⟨GuardItem.sample.inj heq ▸ hs', keysOk_of_mem_verdicts hv⟩

/-- A record that is kept is one of the batch without its body, and passes the key checks. -/
theorem mem_sanitizeLogs (V : Type) {g : Guard} {loop : String} {logs : List LogRecord}
    {r : LogRecord} (h : r ∈ (g.sanitizeLogs loop logs).1) :
    (∃ lr ∈ logs, r = { lr with body := "" }) ∧
      g.keysOk (.record loop r : GuardItem V) = true := by
  have hmem := List.mem_map_of_mem (f := fun lr => (.record loop lr : GuardItem V)) h
  rw [(g.sanitizeLogs_eq loop logs).2] at hmem
  obtain ⟨⟨i, ok⟩, hv, rfl⟩ := List.mem_map.mp hmem
  obtain ⟨hv, rfl⟩ := List.mem_filter.mp hv
  obtain ⟨lr, hlr, heq⟩ := List.mem_map.mp (mem_of_mem_verdicts hv)
  exact ⟨⟨lr, hlr, (GuardItem.record.inj heq).2.symm⟩, keysOk_of_mem_verdicts hv⟩

/-! ### The budget -/

/-- What the budget check does: the labels are known, the budget is spent, or they are new. -/
private theorem withinBudget_cases {g : Guard} (hbudget : 0 < g.budget) (series sig : String) :
    (sig ∈ g.seen series ∧ g.withinBudget series sig = (true, g)) ∨
    (sig ∉ g.seen series ∧ g.budget ≤ (g.seen series).card ∧
      g.withinBudget series sig =
        (false, { g with newLabelValues := g.newLabelValues ++ [series] })) ∨
    (sig ∉ g.seen series ∧ (g.seen series).card < g.budget ∧
      g.withinBudget series sig =
        (true, { g with
          seen := Function.update g.seen series (insert sig (g.seen series))
          newLabelValues := g.newLabelValues ++ [series] })) := by
  unfold withinBudget
  rw [if_neg (by omega)]
  by_cases hknown : sig ∈ g.seen series
  · exact Or.inl ⟨hknown, if_pos hknown⟩
  · rw [if_neg hknown]
    by_cases hspent : g.budget ≤ (g.seen series).card
    · exact Or.inr (Or.inl ⟨hknown, hspent, if_pos hspent⟩)
    · exact Or.inr (Or.inr ⟨hknown, by omega, if_neg hspent⟩)

/-- What the guard knows after some checks. -/
structure Tracks (g : Guard) (items : List (GuardItem V)) : Prop where
  seen : ∀ st : GuardStream, st.Named →
    (g.after items).seen st.series = (g.admitted items st).image labelSig
  card : ∀ st : GuardStream, st.Named → ((g.admitted items st).card : Int) ≤ g.budget
  keys : ∀ st, ∀ labels ∈ g.admitted items st, ∃ i : GuardItem V,
    i.stream = st ∧ i.labels = labels ∧ g.keysOk i = true
  budget : (g.after items).budget = g.budget
  policy : ∀ i : GuardItem V, (g.after items).keysOk i = g.keysOk i

private theorem Tracks.mem_seen {g : Guard} {items : List (GuardItem V)} (ht : g.Tracks items)
    {st : GuardStream} (hst : st.Named) (labels : Labels) :
    labelSig labels ∈ (g.after items).seen st.series ↔ labels ∈ g.admitted items st := by
  rw [ht.seen st hst, labelSig_injective.mem_finset_image]

private theorem Tracks.card_seen {g : Guard} {items : List (GuardItem V)} (ht : g.Tracks items)
    {st : GuardStream} (hst : st.Named) :
    ((g.after items).seen st.series).card = (g.admitted items st).card := by
  rw [ht.seen st hst, Finset.card_image_of_injective _ labelSig_injective]

private theorem Tracks.same {g : Guard} {items : List (GuardItem V)} (ht : g.Tracks items)
    {i : GuardItem V} (hseen : (g.after (items ++ [i])).seen = (g.after items).seen)
    (hadmitted : ∀ st, g.admitted (items ++ [i]) st = g.admitted items st)
    (hbudget : (g.after (items ++ [i])).budget = (g.after items).budget)
    (hpolicy : ∀ j : GuardItem V, (g.after (items ++ [i])).keysOk j = (g.after items).keysOk j) :
    g.Tracks (items ++ [i]) := by
  refine ⟨fun st hst => ?_, fun st hst => ?_, fun st => ?_, hbudget.trans ht.budget,
    fun j => (hpolicy j).trans (ht.policy j)⟩
  · rw [hseen, hadmitted]
    exact ht.seen st hst
  · rw [hadmitted]
    exact ht.card st hst
  · rw [hadmitted]
    exact ht.keys st

/-- **One check** keeps what the guard knows. -/
private theorem Tracks.step {g : Guard} (hbudget : 0 < g.budget) {items : List (GuardItem V)}
    (ht : g.Tracks items) {i : GuardItem V} (hname : i.stream.Named) : g.Tracks (items ++ [i]) := by
  have hafter := g.after_concat items i
  have hadmitted := g.admitted_concat items i
  rw [check_eq, ht.policy] at hafter
  simp only [check_eq, ht.policy] at hadmitted
  cases hkeys : g.keysOk i with
  | false =>
    rw [hkeys] at hafter
    refine ht.same (by rw [hafter]; rfl) (fun st => ?_) (by rw [hafter]; rfl)
      (fun j => by rw [hafter]; rfl)
    rw [hadmitted, hkeys]
    exact if_neg (by simp)
  | true =>
    rw [hkeys, if_pos rfl] at hafter
    simp only [hkeys, if_true] at hadmitted
    rcases withinBudget_cases (by rw [ht.budget]; exact hbudget) i.stream.series (labelSig i.labels)
      with ⟨hknown, heq⟩ | ⟨-, -, heq⟩ | ⟨hnew, hroom, heq⟩
    · rw [heq] at hafter
      refine ht.same (by rw [hafter]) (fun st => ?_) (by rw [hafter]) (fun j => by rw [hafter])
      rw [hadmitted, heq]
      split_ifs with hst
      · obtain ⟨-, rfl⟩ := hst
        exact Finset.insert_eq_of_mem ((ht.mem_seen hname _).mp hknown)
      · rfl
    · rw [heq] at hafter
      refine ht.same (by rw [hafter]) (fun st => ?_) (by rw [hafter])
        (fun j => by rw [hafter]; cases j <;> rfl)
      rw [hadmitted, heq]
      exact if_neg (by simp)
    · rw [heq] at hafter
      rw [ht.card_seen hname, ht.budget] at hroom
      have hadded : ∀ st, g.admitted (items ++ [i]) st =
          if i.stream = st then insert i.labels (g.admitted items st) else g.admitted items st := by
        intro st
        rw [hadmitted, heq]
        simp
      refine ⟨fun st hst => ?_, fun st hst => ?_, fun st labels => ?_, ?_, fun j => ?_⟩
      · rw [hafter, hadded]
        split_ifs with hsame
        · subst hsame
          show Function.update _ _ _ _ = _
          rw [Function.update_self, Finset.image_insert, ht.seen _ hname]
        · show Function.update _ _ _ _ = _
          rw [Function.update_of_ne, ht.seen st hst]
          exact fun hseries => hsame (GuardStream.series_inj hst hname hseries).symm
      · rw [hadded]
        split_ifs with hsame
        · subst hsame
          have := Finset.card_insert_le i.labels (g.admitted items i.stream)
          omega
        · exact ht.card st hst
      · rw [hadded]
        split_ifs with hsame
        · subst hsame
          intro hlabels
          rcases Finset.mem_insert.mp hlabels with rfl | hold
          · exact ⟨i, rfl, rfl, hkeys⟩
          · exact ht.keys _ labels hold
        · exact ht.keys st labels
      · rw [hafter]
        exact ht.budget
      · rw [hafter]
        exact (by cases j <;> rfl : _ = (g.after items).keysOk j).trans (ht.policy j)

theorem tracks_of_named {g : Guard} (hseen : ∀ series, g.seen series = ∅) (hbudget : 0 < g.budget)
    {items : List (GuardItem V)} (hnames : ∀ i ∈ items, i.stream.Named) : g.Tracks items := by
  induction items using List.reverseRecOn with
  | nil =>
    exact ⟨fun st _ => by simp [after, hseen], fun st _ => by simp [hbudget.le],
      fun st labels h => by simp at h, rfl, fun i => rfl⟩
  | append_singleton items i ih =>
    exact (ih fun j hj => hnames j (List.mem_append_left _ hj)).step hbudget (hnames i (by simp))

/-- Whether the budget lets an item through that passes the key checks. -/
private theorem Tracks.verdict {g : Guard} (hbudget : 0 < g.budget) {items : List (GuardItem V)}
    (ht : g.Tracks items) {i : GuardItem V} (hname : i.stream.Named) (hkeys : g.keysOk i = true) :
    ((g.after items).check i).1 = true ↔
      i.labels ∈ g.admitted items i.stream ∨
        ((g.admitted items i.stream).card : Int) < g.budget := by
  rw [check_eq, ht.policy, hkeys, if_pos rfl, ← ht.mem_seen hname, ← ht.card_seen hname,
    ← ht.budget]
  rcases withinBudget_cases (by rw [ht.budget]; exact hbudget) i.stream.series (labelSig i.labels)
    with ⟨hknown, heq⟩ | ⟨hnew, hspent, heq⟩ | ⟨hnew, hroom, heq⟩
  · simp [heq, hknown]
  · simp [heq, hnew, hspent]
  · simp [heq, hroom]

private theorem keysOk_of_metric (g : Guard) {i j : GuardItem V} {name : String}
    (hi : i.stream = .metric name) (hj : j.stream = .metric name) (h : i.labels = j.labels) :
    g.keysOk i = g.keysOk j := by
  cases i with
  | record => cases hi
  | sample s =>
    cases j with
    | record => cases hj
    | sample s' =>
      have hlabels : s.labels = s'.labels := h
      simp [keysOk, hlabels]

/-- **The cardinality budget.**  However the checks of all loops fall, each stream gets at most
`perSeriesBudget` label sets through; a label set let through once stays so (a record's other
keys have to pass too); and an item that passes the key checks is refused only when its label
set is new and the budget of its stream is spent. -/
theorem admitted_within_budget (cfg : GuardConfig) (hbudget : 0 < cfg.perSeriesBudget)
    (items : List (GuardItem V)) (hnames : ∀ i ∈ items, i.stream.Named) :
    let g := newGuard cfg
    (∀ st, ((g.admitted items st).card : Int) ≤ cfg.perSeriesBudget) ∧
    ∀ before i later, items = before ++ i :: later →
      (i.labels ∈ g.admitted before i.stream →
        (∀ loop, i.stream = .logs loop → g.keysOk i = true) →
        ((g.after before).check i).1 = true) ∧
      (g.keysOk i = true → ((g.after before).check i).1 = false →
        i.labels ∉ g.admitted before i.stream ∧
        ((g.admitted before i.stream).card : Int) = cfg.perSeriesBudget) := by
  intro g
  refine ⟨fun st => ?_, ?_⟩
  · by_cases hst : st.Named
    · exact (tracks_of_named (fun _ => rfl) hbudget hnames).card st hst
    · -- no item belongs to such a stream
      have hnone : g.admitted items st = ∅ := by
        refine Finset.eq_empty_of_forall_notMem fun labels hlabels => ?_
        obtain ⟨i, hi, hstream⟩ := mem_of_mem_admitted hlabels
        exact hst (hstream ▸ hnames i hi)
      rw [hnone, Finset.card_empty]
      exact hbudget.le
  · rintro before i later rfl
    have ht : g.Tracks before :=
      tracks_of_named (fun _ => rfl) hbudget fun j hj => hnames j (List.mem_append_left _ hj)
    have hname : i.stream.Named := hnames i (by simp)
    refine ⟨fun hold hlogs => ?_, fun hkeys hrefused => ?_⟩
    · have hkeys : g.keysOk i = true := by
        cases hstream : i.stream with
        | logs loop => exact hlogs loop hstream
        | metric name =>
          obtain ⟨j, hj, hlabels, hkeys⟩ := ht.keys _ _ hold
          rw [← hkeys]
          exact g.keysOk_of_metric hstream (hj.trans hstream) hlabels.symm
      exact (ht.verdict hbudget hname hkeys).mpr (Or.inl hold)
    · have hneither := mt (ht.verdict hbudget hname hkeys).mpr (by simp [hrefused])
      have hcard : ((g.admitted before i.stream).card : Int) ≤ cfg.perSeriesBudget :=
        ht.card i.stream hname
      refine ⟨fun hold => hneither (Or.inl hold), ?_⟩
      by_contra hne
      exact hneither (Or.inr (lt_of_le_of_ne hcard hne))

/-- Room for one label set. -/
def budgetOfOne : GuardConfig :=
  { allowLabelKeys := ["ai_model"]
    denyFieldKeys := []
    denyFieldKeysByLoop := .empty
    perSeriesBudget := 1 }

/-- A record with one indexed attribute. -/
def recordOf (model : String) : GuardItem Nat :=
  .record "logs"
    { timestamp := 0
      body := ""
      severity := ""
      indexedAttributes := Lib.SortedMap.empty.insert "ai_model" model
      recordAttributes := .empty
      traceID := [] }

theorem admitted_within_budget_second :
    let g := newGuard budgetOfOne
    (g.keysOk (recordOf "b") = true ∧ ((g.after [recordOf "a"]).check (recordOf "b")).1 = false) ∧
    (recordOf "b").labels ∉ g.admitted [recordOf "a"] (.logs "logs") ∧
    ((g.admitted [recordOf "a"] (.logs "logs")).card : Int) = 1 := by
  have hchecks : (newGuard budgetOfOne).keysOk (recordOf "b") = true ∧
      (((newGuard budgetOfOne).after [recordOf "a"]).check (recordOf "b")).1 = false := by
    decide +kernel
  have hnames : ∀ i ∈ [recordOf "a", recordOf "b"], i.stream.Named := by
    simp [recordOf, GuardItem.stream, GuardStream.Named]
  exact ⟨hchecks, ((admitted_within_budget budgetOfOne (by decide) _ hnames).2
    [recordOf "a"] (recordOf "b") [] rfl).2 hchecks.1 hchecks.2⟩

end Guard

end GenaiBridge
