/-
The samples of one analytics batch.

A batch is made pass by pass, graph by graph and point by point.  The samples of a point
differ in a label, the points of a graph are whole minutes apart, the graphs have names
of their own and the passes slugs of their own, so no two samples of a batch compete for
one data point per minute, and the cap leaves the batch as it is.  What of it is in the
bucket that ends at `e` depends on nothing but the data points for that bucket.
-/
import GenaiBridge.Proofs.Analytics
import GenaiBridge.Proofs.Coalesce
import GenaiBridge.Proofs.LogsSettings
import GenaiBridge.Proofs.SeriesKey
import GenaiBridge.Proofs.UseCases

namespace GenaiBridge

open Lib (SortedMap bind_ok map_ok)

variable {V : Type}

/-- The data points of an answer for the bucket that ends at `e`. -/
def GraphResponse.pointsAt (r : GraphResponse V) (e : Int) : List (DataPoint V) :=
  r.dataPoints.filter fun dp => dp.time = some (e - minute)

/-- The samples of the bucket that ends at `e`, from the data points each graph has for it. -/
def samplesAt [Div V] [OfNat V 1000] (metricPrefix : String) (e : Int)
    (points : SortedMap String (List (DataPoint V))) : List (Sample V) :=
  points.entries.flatMap fun g => g.2.flatMap (pointSamples metricPrefix g.1 e)

/-- What tells two samples apart in a store: the name, the labels and the timestamp. -/
def Sample.identity (s : Sample V) : String × Labels × Int := (s.name, s.labels, s.timestamp)

/-- The answer `fetch` returned, if it returned one. -/
def Fetched.answer? : Fetched V → Option (GraphResponse V)
  | .ok r => some r
  | _ => none

/-! ### The points of a graph -/

/-- Points in order of time, whole minutes apart. -/
def Spaced (pts : List (Int × DataPoint V)) : Prop :=
  pts.Pairwise fun p q => p.1 < q.1 ∧ minute ∣ q.1 - p.1

/-- A step that saturates is refused, for the largest duration is no multiple of a minute. -/
private theorem GoodStep.spaced {p q : Int × DataPoint V} (h : GoodStep minute p q) :
    p.1 < q.1 ∧ minute ∣ q.1 - p.1 := by
  obtain ⟨hpos, hmod⟩ := h
  have hsub : Time.sub q.1 p.1 = q.1 - p.1 := by
    have hdvd : minute ∣ Time.sub q.1 p.1 := Int.dvd_of_tmod_eq_zero hmod
    unfold Time.sub minInt64 maxInt64 minute at *
    omega
  rw [hsub] at hpos hmod
  exact ⟨by omega, Int.dvd_of_tmod_eq_zero hmod⟩

private theorem spaced_of_checkSteps {graph : String} {pts : List (Int × DataPoint V)}
    (h : checkSteps graph minute pts = .ok ()) : Spaced pts := by
  have htrans := isTrans_steps (V := V) minute
  exact List.isChain_iff_pairwise.mp ((checkSteps_ok.mp h).imp fun _ _ hstep => hstep.spaced)

private theorem timedPoints_map_snd {dps : List (DataPoint V)} {pts : List (Int × DataPoint V)}
    (h : timedPoints dps = .ok pts) : pts.map Prod.snd = dps := by
  induction dps generalizing pts with
  | nil =>
    obtain rfl : [] = pts := by simpa [timedPoints] using h
    rfl
  | cons dp rest ih =>
    obtain ⟨t, pts', -, hrest, rfl⟩ := timedPoints_cons h
    rw [List.map_cons, ih hrest]

private theorem Spaced.length_filter_le {pts : List (Int × DataPoint V)} (h : Spaced pts) (t : Int) :
    (pts.filter fun p => p.1 = t).length ≤ 1 :=
  Lib.length_filter_key_le (h.imp fun hpq => ne_of_lt hpq.1) t

private theorem eq_of_perm_of_length_le {α : Type} {l l' : List α} (h : l.Perm l')
    (hlen : l.length ≤ 1) : l = l' := by
  rcases l with _ | ⟨a, _ | ⟨b, l⟩⟩
  · exact (List.nil_perm.mp h).symm
  · exact List.singleton_perm.mp h
  · simp at hlen

variable [Div V] [OfNat V 1000]

private theorem deriveGraph_eq {metricPrefix graph : String} {since cutoff : Int}
    {r : GraphResponse V} {out : List (Sample V)}
    (h : deriveGraph metricPrefix since cutoff minute true graph r = .ok out) :
    ∃ pts : List (Int × DataPoint V), Spaced pts ∧
      (∀ e, (pts.filter fun p => p.1 = e - minute).map Prod.snd = r.pointsAt e) ∧
      out = pts.flatMap fun p =>
        if inRange since cutoff (p.1 + minute) then pointSamples metricPrefix graph (p.1 + minute) p.2
        else [] := by
  unfold deriveGraph at h
  cases hpts : timedPoints r.dataPoints with
  | error err => simp [hpts] at h
  | ok pts =>
    simp only [hpts] at h
    cases hcheck : checkSteps graph minute (pts.insertionSort fun p q => p.1 ≤ q.1) with
    | error err => simp [hcheck] at h
    | ok _ =>
      simp only [hcheck] at h
      have hspaced := spaced_of_checkSteps hcheck
      refine ⟨_, hspaced, fun e => ?_, (Except.ok.inj h).symm⟩
      have hpoints : (pts.filter fun p => p.1 = e - minute).map Prod.snd = r.pointsAt e := by
        have htime : (pts.filter fun p => p.1 = e - minute) =
            pts.filter ((fun dp => decide (dp.time = some (e - minute))) ∘ Prod.snd) := by
          refine List.filter_congr fun p hp => ?_
          rw [Function.comp_apply, ((timedPoints_spec hpts p).mp hp).2]
          simp
        rw [htime, ← List.filter_map, timedPoints_map_snd hpts]
        rfl
      rw [← hpoints]
      refine eq_of_perm_of_length_le ?_ ?_
      · exact ((List.perm_insertionSort _ pts).filter _).map _
      · rw [List.length_map]
        exact hspaced.length_filter_le _

private theorem filter_pointSamples (metricPrefix graph : String) (bend e : Int)
    (dp : DataPoint V) :
    (pointSamples metricPrefix graph bend dp).filter (fun s => s.timestamp = e) =
      if bend = e then pointSamples metricPrefix graph e dp else [] := by
  split
  · rename_i heq
    subst heq
    exact List.filter_eq_self.mpr fun s hs => by simpa using timestamp_pointSamples hs
  · rename_i hne
    exact List.filter_eq_nil_iff.mpr fun s hs => by simpa [timestamp_pointSamples hs] using hne

private theorem filter_deriveGraph {metricPrefix graph : String} {since cutoff e : Int}
    {r : GraphResponse V} {out : List (Sample V)} (hin : since < e ∧ e ≤ cutoff)
    (h : deriveGraph metricPrefix since cutoff minute true graph r = .ok out) :
    out.filter (fun s => s.timestamp = e) =
        (r.pointsAt e).flatMap (pointSamples metricPrefix graph e) ∧
      (r.pointsAt e).length ≤ 1 := by
  obtain ⟨pts, hspaced, hpoints, rfl⟩ := deriveGraph_eq h
  rw [← hpoints e, List.length_map]
  refine ⟨?_, hspaced.length_filter_le _⟩
  rw [List.filter_flatMap, List.flatMap_map]
  clear hspaced hpoints h
  induction pts with
  | nil => rfl
  | cons p rest ih =>
    rw [List.flatMap_cons, ih]
    by_cases hp : p.1 = e - minute
    · have hend : p.1 + minute = e := by omega
      rw [hend, if_pos (by simpa [inRange] using hin), filter_pointSamples, if_pos rfl,
        List.filter_cons_of_pos (by simpa using hp), List.flatMap_cons]
    · have hend : p.1 + minute ≠ e := by omega
      have hnil : (if inRange since cutoff (p.1 + minute) then
          pointSamples metricPrefix graph (p.1 + minute) p.2 else []).filter
            (fun s => s.timestamp = e) = [] := by
        split
        · rw [filter_pointSamples, if_neg hend]
        · rfl
      rw [hnil, List.nil_append, List.filter_cons_of_neg (by simpa using hp)]

/-! ### The bucket of an answer -/

/-- **The bucket that ends at `e` is made of the data points for it**, of which each graph has at
most one. -/
private theorem filter_derive {metricPrefix : String} {since now settle e : Int}
    {resp : SortedMap String (GraphResponse V)} {out : List (Sample V)}
    (hin : since < e ∧ e ≤ Time.addNeg now settle)
    (h : derive resp metricPrefix since now settle minute true = .ok out) :
    out.filter (fun s => s.timestamp = e) =
        samplesAt metricPrefix e (resp.map fun r => r.pointsAt e) ∧
      ∀ g r, resp.get? g = some r → (r.pointsAt e).length ≤ 1 := by
  have hlist : ∀ (graphs : List (String × GraphResponse V)) (out : List (Sample V)),
      deriveGraphs metricPrefix since (Time.addNeg now settle) minute true graphs = .ok out →
      out.filter (fun s => s.timestamp = e) =
        graphs.flatMap (fun g => (g.2.pointsAt e).flatMap (pointSamples metricPrefix g.1 e)) ∧
      ∀ g ∈ graphs, (g.2.pointsAt e).length ≤ 1 := by
    intro graphs
    induction graphs with
    | nil =>
      intro out h
      obtain rfl : [] = out := by simpa [deriveGraphs] using h
      exact ⟨rfl, by simp⟩
    | cons g rest ih =>
      intro out h
      obtain ⟨head, tail, hhead, htail, rfl⟩ := deriveGraphs_cons.mp h
      obtain ⟨hg, hone⟩ := filter_deriveGraph hin hhead
      obtain ⟨hrest, hones⟩ := ih tail htail
      exact ⟨by rw [List.filter_append, hg, hrest, List.flatMap_cons],
        List.forall_mem_cons.mpr ⟨hone, hones⟩⟩
  obtain ⟨hsamples, hone⟩ := hlist resp.entries out h
  refine ⟨?_, fun g r hr => hone (g, r) (SortedMap.get?_eq_some.mp hr)⟩
  rw [hsamples, samplesAt, SortedMap.map, List.flatMap_map]

/-! ### No two samples of an answer compete -/

/-- Two samples in different groups, with whatever use case both are stamped. -/
def Separate (a b : Sample V) : Prop :=
  a.name ≠ b.name ∨ (∃ k, k ≠ "api_key_use_case" ∧ a.labels.get? k ≠ b.labels.get? k) ∨
    (dpmKey a).2 ≠ (dpmKey b).2

omit [Div V] [OfNat V 1000] in
private theorem Separate.dpmKey_ne {a b : Sample V} (h : Separate a b) : dpmKey a ≠ dpmKey b := by
  intro heq
  obtain ⟨hname, -, hlabels⟩ := eq_of_seriesKey_eq (congrArg Prod.fst heq)
  rcases h with h | ⟨k, -, h⟩ | h
  · exact h hname
  · exact h (by rw [hlabels])
  · exact h (congrArg Prod.snd heq)

omit [Div V] [OfNat V 1000] in
theorem Separate.identity_ne {a b : Sample V} (h : Separate a b) : a.identity ≠ b.identity := by
  intro heq
  obtain ⟨hname, heq⟩ := Prod.mk.inj heq
  obtain ⟨hlabels, htime⟩ := Prod.mk.inj heq
  rcases h with h | ⟨k, -, h⟩ | h
  · exact h hname
  · exact h (by rw [hlabels])
  · exact h (by rw [dpmKey, dpmKey, htime])

/-- What is known of the samples of one pass. -/
structure PassSamples (since cutoff : Int) (slug : String) (samples : List (Sample V)) : Prop where
  range : ∀ s ∈ samples, since < s.timestamp ∧ s.timestamp ≤ cutoff
  useCase : ∀ s ∈ samples,
    s.labels.get? "api_key_use_case" = if slug = "" then none else some slug
  separate : samples.Pairwise Separate

omit [Div V] [OfNat V 1000] in
private theorem separate_stats {stats : List (String × (DataPoint V → V))} {key : String}
    (hkey : key ≠ "api_key_use_case") (hnodup : (stats.map Prod.fst).Nodup)
    (metricPrefix graph : String) (bend : Int) (value : String × (DataPoint V → V) → V) :
    (stats.map fun q => graphSample metricPrefix graph bend (.insert .empty key q.1)
      (value q)).Pairwise Separate := by
  rw [List.pairwise_map]
  refine (List.pairwise_map.mp hnodup).imp fun {a b} hne => Or.inr (Or.inl ⟨key, hkey, ?_⟩)
  simpa [graphSample, SortedMap.get?_insert] using hne

theorem pointSamples_spec (metricPrefix graph : String) (bend : Int) (dp : DataPoint V) :
    (pointSamples metricPrefix graph bend dp).Pairwise Separate ∧
    ∀ s ∈ pointSamples metricPrefix graph bend dp,
      s.name = nameFor metricPrefix graph ∧ s.labels.get? "api_key_use_case" = none := by
  unfold pointSamples
  split
  · refine ⟨separate_stats (by decide) (by simp [latencyStats]) _ _ _ _, fun s hs => ?_⟩
    obtain ⟨q, -, rfl⟩ := List.mem_map.mp hs
    exact ⟨rfl, by simp [graphSample, SortedMap.get?_insert]⟩
  · split
    · refine ⟨separate_stats (by decide) (by simp [tokenTypes]) _ _ _ _, fun s hs => ?_⟩
      obtain ⟨q, -, rfl⟩ := List.mem_map.mp hs
      exact ⟨rfl, by simp [graphSample, SortedMap.get?_insert]⟩
    · refine ⟨List.pairwise_singleton _ _, fun s hs => ?_⟩
      rw [List.mem_singleton.mp hs]
      exact ⟨rfl, rfl⟩

omit [Div V] [OfNat V 1000] V in
/-- Instants that an `int64` can tell apart. -/
theorem unixNano_ne {t u : Int} (hlt : t < u) (hspan : u - t < 2 ^ 64) :
    Time.unixNano t ≠ Time.unixNano u := by
  unfold Time.unixNano wrap64
  omega

omit [Div V] [OfNat V 1000] V in
private theorem unixNano_truncate_ne {t u : Int} (hlt : t < u) (hdvd : minute ∣ u - t)
    (hspan : u - t < 2 ^ 64) :
    Time.unixNano (Time.truncate t minute) ≠ Time.unixNano (Time.truncate u minute) := by
  have hmod : u % minute = t % minute := Int.emod_eq_emod_iff_emod_sub_eq_zero.mpr
    (Int.emod_eq_zero_of_dvd hdvd)
  have htrunc : ∀ x, Time.truncate x minute = x - x % minute := fun x => if_neg (by decide)
  rw [htrunc, htrunc, hmod]
  exact unixNano_ne (by omega) (by omega)

private theorem deriveGraph_spec {metricPrefix graph : String} {since cutoff : Int}
    (hspan : cutoff - since ≤ 2 ^ 64) {r : GraphResponse V} {out : List (Sample V)}
    (h : deriveGraph metricPrefix since cutoff minute true graph r = .ok out) :
    PassSamples since cutoff "" out ∧ ∀ s ∈ out, s.name = nameFor metricPrefix graph := by
  obtain ⟨pts, hspaced, -, rfl⟩ := deriveGraph_eq h
  have hmem : ∀ (p : Int × DataPoint V) (s : Sample V),
      (s ∈ if inRange since cutoff (p.1 + minute) then
        pointSamples metricPrefix graph (p.1 + minute) p.2 else []) →
      (since < p.1 + minute ∧ p.1 + minute ≤ cutoff) ∧
        s ∈ pointSamples metricPrefix graph (p.1 + minute) p.2 := by
    intro p s hs
    split at hs
    · rename_i hin
      exact ⟨by simpa [inRange] using hin, hs⟩
    · cases hs
  have hsample : ∀ {P : Sample V → Prop}, (∀ (p : Int × DataPoint V) (s : Sample V),
      since < p.1 + minute ∧ p.1 + minute ≤ cutoff →
      s ∈ pointSamples metricPrefix graph (p.1 + minute) p.2 → P s) →
      ∀ s ∈ pts.flatMap fun p => if inRange since cutoff (p.1 + minute) then
        pointSamples metricPrefix graph (p.1 + minute) p.2 else [], P s := by
    intro P hP s hs
    obtain ⟨p, -, hs⟩ := List.mem_flatMap.mp hs
    exact hP p s (hmem p s hs).1 (hmem p s hs).2
  refine ⟨⟨hsample fun p s hin hs => ?_, hsample fun p s _ hs => ?_, ?_⟩,
    hsample fun p s _ hs => ((pointSamples_spec _ _ _ _).2 s hs).1⟩
  · rw [timestamp_pointSamples hs]
    exact hin
  · exact ((pointSamples_spec _ _ _ _).2 s hs).2
  · refine List.pairwise_flatMap.mpr ⟨fun p _ => ?_, hspaced.imp fun {p q} hpq a ha b hb => ?_⟩
    · split
      · exact (pointSamples_spec _ _ _ _).1
      · exact List.Pairwise.nil
    · obtain ⟨hp, ha⟩ := hmem p a ha
      obtain ⟨hq, hb⟩ := hmem q b hb
      refine Or.inr (Or.inr ?_)
      rw [dpmKey, dpmKey, timestamp_pointSamples ha, timestamp_pointSamples hb]
      refine unixNano_truncate_ne (by omega) ?_ (by omega)
      have hsub : q.1 + minute - (p.1 + minute) = q.1 - p.1 := by omega
      exact hsub ▸ hpq.2

/-! ### Nor of a pass -/

theorem nameFor_inj {metricPrefix g g' : String} (hg : (metricSuffix g).isSome)
    (hg' : (metricSuffix g').isSome) (h : nameFor metricPrefix g = nameFor metricPrefix g') :
    g = g' := by
  have hsuffix : (metricSuffix g).getD "" = (metricSuffix g').getD "" := by
    have htext := congrArg String.toList h
    simp only [nameFor, String.toList_append, List.append_cancel_left_eq] at htext
    exact String.toList_inj.mp htext
  unfold metricSuffix at hg hg' hsuffix
  split at hg <;> split at hg' <;> simp_all

/-- **The samples of an answer** for graphs that are known. -/
private theorem derive_spec {metricPrefix : String} {since now settle : Int}
    (hspan : Time.addNeg now settle - since ≤ 2 ^ 64) {resp : SortedMap String (GraphResponse V)}
    (hknown : ∀ g ∈ resp.keys, (metricSuffix g).isSome) {out : List (Sample V)}
    (h : derive resp metricPrefix since now settle minute true = .ok out) :
    PassSamples since (Time.addNeg now settle) "" out := by
  have hlist : ∀ (graphs : List (String × GraphResponse V)) (out : List (Sample V)),
      (graphs.Pairwise fun a b => a.1 < b.1) → (∀ g ∈ graphs, (metricSuffix g.1).isSome) →
      deriveGraphs metricPrefix since (Time.addNeg now settle) minute true graphs = .ok out →
      PassSamples since (Time.addNeg now settle) "" out ∧
        ∀ s ∈ out, ∃ g ∈ graphs, s.name = nameFor metricPrefix g.1 := by
    intro graphs
    induction graphs with
    | nil =>
      intro out _ _ h
      obtain rfl : [] = out := by simpa [deriveGraphs] using h
      exact ⟨⟨by simp, by simp, List.Pairwise.nil⟩, by simp⟩
    | cons g rest ih =>
      intro out hsorted hknown h
      obtain ⟨head, tail, hhead, htail, rfl⟩ := deriveGraphs_cons.mp h
      obtain ⟨hlt, hsorted⟩ := List.pairwise_cons.mp hsorted
      obtain ⟨hg, hrest⟩ := List.forall_mem_cons.mp hknown
      obtain ⟨hpass, hname⟩ := deriveGraph_spec hspan hhead
      obtain ⟨hpasses, hnames⟩ := ih tail hsorted hrest htail
      refine ⟨⟨?_, ?_, ?_⟩, ?_⟩
      · exact List.forall_mem_append.mpr ⟨hpass.range, hpasses.range⟩
      · exact List.forall_mem_append.mpr ⟨hpass.useCase, hpasses.useCase⟩
      · refine List.pairwise_append.mpr ⟨hpass.separate, hpasses.separate, fun a ha b hb => ?_⟩
        obtain ⟨g', hg', hb⟩ := hnames b hb
        refine Or.inl fun heq => ?_
        rw [hname a ha, hb] at heq
        exact absurd (nameFor_inj hg (hrest g' hg') heq) (ne_of_lt (hlt g' hg'))
      · refine List.forall_mem_append.mpr ⟨fun s hs => ?_, fun s hs => ?_⟩
        · exact ⟨g, List.mem_cons_self, hname s hs⟩
        · obtain ⟨g', hg', hs⟩ := hnames s hs
          exact ⟨g', List.mem_cons_of_mem _ hg', hs⟩
  refine (hlist resp.entries out resp.sorted (fun g hg => hknown g.1 ?_) h).1
  exact List.mem_map_of_mem hg

omit [Div V] [OfNat V 1000] in
private theorem PassSamples.stamp {since cutoff : Int} {samples : List (Sample V)}
    (h : PassSamples since cutoff "" samples) (slug : String) :
    PassSamples since cutoff slug (stampUseCase slug samples) := by
  unfold stampUseCase
  split
  · rename_i hslug
    exact hslug ▸ h
  · rename_i hslug
    refine ⟨?_, ?_, ?_⟩
    · simpa using h.range
    · intro s hs
      obtain ⟨s, -, rfl⟩ := List.mem_map.mp hs
      rw [SortedMap.get?_insert_self, if_neg hslug]
    · rw [List.pairwise_map]
      refine h.separate.imp fun {a b} hab => ?_
      rcases hab with hab | ⟨k, hk, hab⟩ | hab
      · exact Or.inl hab
      · refine Or.inr (Or.inl ⟨k, hk, ?_⟩)
        rwa [SortedMap.get?_insert_of_ne _ _ hk, SortedMap.get?_insert_of_ne _ _ hk]
      · exact Or.inr (Or.inr hab)

omit [Div V] [OfNat V 1000] in
private theorem filter_stampUseCase (slug : String) (samples : List (Sample V)) (e : Int) :
    (stampUseCase slug samples).filter (fun s => s.timestamp = e) =
      stampUseCase slug (samples.filter fun s => s.timestamp = e) := by
  unfold stampUseCase
  split
  · rfl
  · rw [List.filter_map]
    rfl

/-! ### The slugs of the passes differ -/

omit [Div V] [OfNat V 1000] V in
/-- **The slugs of resolved use cases** are slugs of labels, and differ. -/
theorem resolveUseCases_slugs {sc : SourceConfig} {ucs : List ResolvedUseCase}
    (h : resolveUseCases sc = .ok ucs) :
    (ucs.Pairwise fun p q => p.slug ≠ q.slug) ∧
      ∀ p ∈ ucs, ∃ label, slugifyUseCase label = .ok p.slug := by
  obtain ⟨-, hunseen, rfl⟩ := resolveUseCases_ok_iff.mp h
  constructor
  · have hslugs := hunseen.slugs
    rw [List.Nodup, List.pairwise_map] at hslugs
    exact List.pairwise_map.mpr hslugs
  · intro p hp
    obtain ⟨uc, huc, rfl⟩ := List.mem_map.mp hp
    exact ⟨uc.label, by rw [slugifyUseCase_eq, if_neg (hunseen.slug uc huc).1]; rfl⟩

namespace AnalyticsLoop

variable {l : AnalyticsLoop}

/-- What is known of a loop that is built from resolved use cases. -/
structure Built (l : AnalyticsLoop) (lp : LoopConfig) : Prop where
  graphs : ∀ g ∈ l.graphs, (metricSuffix g).isSome
  slugs : l.passes.Pairwise fun p q => p.slug ≠ q.slug
  startSemantics : l.startSemantics = true
  maxBackfill : l.maxBackfill = lp.maxBackfill
  settle : l.settle = lp.bucketSettle

omit [Div V] [OfNat V 1000] V in
theorem built {sc : SourceConfig} {ucs : List ResolvedUseCase} (hucs : resolveUseCases sc = .ok ucs)
    {sourceInstance : String} {lp : LoopConfig}
    (hnew : newAnalyticsLoop sourceInstance lp ucs = .ok l) : l.Built lp := by
  have hslugs := (resolveUseCases_slugs hucs).1
  unfold newAnalyticsLoop at hnew
  cases hfind : (lp.graphs.insertionSort (· ≤ ·)).find? fun g => (metricSuffix g).isNone with
  | some g =>
    simp only [hfind] at hnew
    split_ifs at hnew
  | none =>
    have hgraphs : ∀ g ∈ lp.graphs.insertionSort (· ≤ ·), (metricSuffix g).isSome := by
      intro g hg
      have hnone := List.find?_eq_none.mp hfind g hg
      rwa [Option.isNone_iff_eq_none, ← ne_eq, Option.ne_none_iff_isSome] at hnone
    simp only [hfind] at hnew
    split_ifs at hnew
    all_goals
      obtain rfl := Except.ok.inj hnew
      refine ⟨hgraphs, ?_, rfl, rfl, rfl⟩
      first | exact List.pairwise_singleton _ _ | exact hslugs

/-! ### One call -/

omit [Div V] [OfNat V 1000] in
/-- The answers that are collected are the ones the graphs got. -/
theorem get?_fetchGraphs {env : AnalyticsEnv V} {p : ResolvedUseCase}
    {fetchStart until' : Int} {graphs : List String} {resp resp' : SortedMap String (GraphResponse V)}
    (h : (fetchGraphs env p fetchStart until' resp graphs).2 = .ok resp') (g : String) :
    resp'.get? g = (if g ∈ graphs then (env.fetch (query p fetchStart until' g)).answer?
      else none).or (resp.get? g) := by
  induction graphs generalizing resp with
  | nil =>
    obtain rfl := Except.ok.inj h
    simp
  | cons a rest ih =>
    unfold fetchGraphs at h
    cases hfetch : env.fetch (query p fetchStart until' a) with
    | failed err =>
      rw [hfetch] at h
      cases h
    | status code =>
      rw [hfetch] at h
      dsimp only at h
      split at h
      · rw [ih h]
        by_cases ha : g = a
        · subst ha
          simp [hfetch, Fetched.answer?]
        · simp [ha]
      · cases h
    | ok r =>
      rw [hfetch] at h
      dsimp only at h
      split at h
      · cases h
      · rw [ih h, SortedMap.get?_insert]
        by_cases ha : g = a
        · subst ha
          by_cases hrest : g ∈ rest <;> simp [hrest, hfetch, Fetched.answer?]
        · simp [ha]

/-- What a pass that succeeds returns. -/
def PassReturns (l : AnalyticsLoop) (env : AnalyticsEnv V) (start until' fetchStart : Int)
    (p : ResolvedUseCase) (out : List (Sample V)) : Prop :=
  ∃ resp samples, (fetchGraphs env p fetchStart until' .empty l.graphs).2 = .ok resp ∧
    derive resp l.metricPrefix start env.now l.settle granularity l.startSemantics = .ok samples ∧
    out = stampUseCase p.slug samples

private theorem PassReturns.spec {lp : LoopConfig} (hl : l.Built lp) {env : AnalyticsEnv V}
    {start until' fetchStart : Int} (hspan : Time.addNeg env.now l.settle - start ≤ 2 ^ 64)
    {p : ResolvedUseCase} {out : List (Sample V)}
    (h : l.PassReturns env start until' fetchStart p out) :
    PassSamples start (Time.addNeg env.now l.settle) p.slug out := by
  obtain ⟨resp, samples, hresp, hderive, rfl⟩ := h
  rw [hl.startSemantics] at hderive
  refine (derive_spec hspan (fun g hg => ?_) hderive).stamp p.slug
  obtain ⟨r, hr⟩ := SortedMap.mem_keys.mp hg
  rw [get?_fetchGraphs hresp, SortedMap.get?_empty, Option.or_none] at hr
  split at hr
  · rename_i hmem
    exact hl.graphs g hmem
  · cases hr

variable [BEq V]

theorem collectPasses_cons {env : AnalyticsEnv V} {start until' fetchStart : Int}
    {histories : SortedMap String (RevisionHistory V)} {p : ResolvedUseCase}
    {rest : List ResolvedUseCase} {all : List (Sample V)}
    (h : (l.collectPasses env start until' fetchStart histories (p :: rest)).2.2 = .ok all) :
    ∃ histories' out tail, l.PassReturns env start until' fetchStart p out ∧
      (l.collectPasses env start until' fetchStart histories' rest).2.2 = .ok tail ∧
      all = out ++ tail := by
  unfold collectPasses at h
  rcases hp : l.collectPass env start until' fetchStart histories p with ⟨histories', events, r⟩
  rw [hp] at h
  cases r with
  | error e => cases h
  | ok out =>
    obtain ⟨tail, htail, rfl⟩ := map_ok.mp h
    refine ⟨histories', out, tail, ?_, htail, rfl⟩
    unfold collectPass at hp
    rcases hgraphs : fetchGraphs env p fetchStart until' .empty l.graphs with ⟨ev, r⟩
    rw [hgraphs] at hp
    cases r with
    | error e => cases hp
    | ok resp =>
      dsimp only at hp
      split at hp
      · cases hp
      · split at hp
        · cases hp
        · rename_i samples hderive
          have hout := congrArg (fun x => x.2.2) hp
          exact ⟨resp, samples, by rw [hgraphs], hderive, (Except.ok.inj hout).symm⟩

/-- A call that emits something returns what its passes return. -/
theorem collect_samples {sha256 : String → String} {env : AnalyticsEnv V} {st : AnalyticsState V}
    {since : Watermark} {b : Batch V} (h : (l.collect sha256 env st since).result = .ok b)
    (hne : b.samples ≠ []) :
    let start := l.start env.now since
    let until' := l.windowEnd env.now start
    b.key = l.key sha256 ∧ ∃ histories, (l.collectPasses env start until'
      (l.fetchStart env.now start until') histories l.passes).2.2 = .ok b.samples := by
  rcases collect_cases sha256 l env st since with ⟨-, -, e, hres⟩ | ⟨verified, -, -, hres⟩
  · rw [h] at hres
    cases hres
  · rw [h] at hres
    unfold collectWindow at hres
    dsimp only at hres
    split at hres
    · obtain rfl := Except.ok.inj hres
      exact absurd rfl hne
    · rcases hpasses : l.collectPasses env _ _ _ st.histories l.passes with ⟨histories, events, r⟩
      rw [hpasses] at hres
      cases r with
      | error e => cases hres
      | ok all =>
        obtain rfl := Except.ok.inj hres
        exact ⟨rfl, st.histories, by rw [hpasses]⟩

/-! ### No two samples of a call compete -/

/-- **The samples of a call** are in its range, and no two are in one group. -/
theorem collectPasses_samples {lp : LoopConfig} (hl : l.Built lp) {env : AnalyticsEnv V}
    {start until' fetchStart : Int} (hspan : Time.addNeg env.now l.settle - start ≤ 2 ^ 64)
    {histories : SortedMap String (RevisionHistory V)} {all : List (Sample V)}
    (h : (l.collectPasses env start until' fetchStart histories l.passes).2.2 = .ok all) :
    (∀ s ∈ all, start < s.timestamp ∧ s.timestamp ≤ Time.addNeg env.now l.settle) ∧
      all.Pairwise fun a b => dpmKey a ≠ dpmKey b ∧ a.identity ≠ b.identity := by
  suffices hpasses : ∀ (passes : List ResolvedUseCase), (passes.Pairwise fun p q => p.slug ≠ q.slug) →
      ∀ histories all, (l.collectPasses env start until' fetchStart histories passes).2.2 = .ok all →
      (∀ s ∈ all, start < s.timestamp ∧ s.timestamp ≤ Time.addNeg env.now l.settle) ∧
      (all.Pairwise fun a b => dpmKey a ≠ dpmKey b ∧ a.identity ≠ b.identity) ∧
      ∀ s ∈ all, ∃ p ∈ passes,
        s.labels.get? "api_key_use_case" = if p.slug = "" then none else some p.slug by
    obtain ⟨hrange, hpair, -⟩ := hpasses l.passes hl.slugs histories all h
    exact ⟨hrange, hpair⟩
  intro passes
  induction passes with
  | nil =>
    intro _ histories all h
    obtain rfl := Except.ok.inj h
    exact ⟨by simp, List.Pairwise.nil, by simp⟩
  | cons p rest ih =>
    intro hslugs histories all h
    obtain ⟨hp, hslugs⟩ := List.pairwise_cons.mp hslugs
    obtain ⟨histories', out, tail, hout, htail, rfl⟩ := collectPasses_cons h
    have hpass := hout.spec hl hspan
    obtain ⟨hrange, hpair, huseCase⟩ := ih hslugs histories' tail htail
    refine ⟨List.forall_mem_append.mpr ⟨hpass.range, hrange⟩, ?_, ?_⟩
    · have hapart : ∀ a ∈ out, ∀ b ∈ tail, a.labels ≠ b.labels := by
        -- with the labels the slugs would be the same
        intro a ha b hb hlabels
        obtain ⟨q, hq, hb⟩ := huseCase b hb
        have hslug := hpass.useCase a ha
        rw [hlabels, hb] at hslug
        refine hp q hq ?_
        split_ifs at hslug with h1 h2 h2
        · rw [h1, h2]
        · exact (Option.some.inj hslug).symm
      refine List.pairwise_append.mpr ⟨?_, hpair, ?_⟩
      · exact hpass.separate.imp fun hab => ⟨hab.dpmKey_ne, hab.identity_ne⟩
      · intro a ha b hb
        refine ⟨?_, ?_⟩
        · intro heq
          exact hapart a ha b hb (eq_of_seriesKey_eq (congrArg Prod.fst heq)).2.2
        · intro heq
          exact hapart a ha b hb (congrArg (fun i => i.2.1) heq)
    · refine List.forall_mem_append.mpr ⟨fun s hs => ?_, fun s hs => ?_⟩
      · exact ⟨p, List.mem_cons_self, hpass.useCase s hs⟩
      · obtain ⟨q, hq, hs⟩ := huseCase s hs
        exact ⟨q, List.mem_cons_of_mem _ hq, hs⟩

omit [Div V] [OfNat V 1000] [BEq V] V in
/-- The settings leave no more between the start of a window and its cutoff than an `int64` can
tell apart. -/
theorem span_le {lp : LoopConfig} (hl : l.Built lp) (hback : lp.maxBackfill ≤ maxInt64)
    (hsettle : minInt64 ≤ lp.bucketSettle) (now : Int) (since : Watermark) :
    Time.addNeg now l.settle - l.start now since ≤ 2 ^ 64 := by
  have hfloor : Time.addNeg now l.maxBackfill ≤ l.start now since := by
    unfold start
    dsimp only
    split <;> omega
  rw [← hl.maxBackfill] at hback
  rw [← hl.settle] at hsettle
  unfold Time.addNeg minInt64 at *
  unfold maxInt64 at hback
  split_ifs at hfloor ⊢ <;> omega

/-- **A batch never collides with itself.**  No two of its samples, over all passes and graphs, have
one name, one set of labels and one timestamp, and the cap leaves the batch as it is. -/
theorem batch_collision_free [LT V] [DecidableLT V] {sc : SourceConfig}
    {ucs : List ResolvedUseCase} (hucs : resolveUseCases sc = .ok ucs) {sourceInstance : String}
    {lp : LoopConfig} (hnew : newAnalyticsLoop sourceInstance lp ucs = .ok l)
    (hback : lp.maxBackfill ≤ maxInt64) (hsettle : minInt64 ≤ lp.bucketSettle)
    {sha256 : String → String} {env : AnalyticsEnv V} {st : AnalyticsState V} {since : Watermark}
    {b : Batch V} (h : (l.collect sha256 env st since).result = .ok b) :
    (b.samples.Pairwise fun s s' => s.identity ≠ s'.identity) ∧
      ∀ maxDPM, 1 ≤ maxDPM → coalesceDPM b.samples maxDPM = (b.samples, 0) := by
  have hl := built hucs hnew
  have hpair : b.samples.Pairwise fun s s' => dpmKey s ≠ dpmKey s' ∧ s.identity ≠ s'.identity := by
    by_cases hempty : b.samples = []
    · rw [hempty]
      exact List.Pairwise.nil
    · obtain ⟨-, histories, hall⟩ := collect_samples h hempty
      exact (collectPasses_samples hl (span_le hl hback hsettle env.now since) hall).2
  refine ⟨hpair.imp And.right, ?_⟩
  intro maxDPM _
  exact coalesceDPM_of_pairwise (hpair.imp And.left) maxDPM

/-- A source with two use cases. -/
def twoUseCases : SourceConfig :=
  { type := "portkey", enabled := true, sourceInstance := "portkey", baseURL := "", authHeader := ""
    authValue := "", allowPrivate := false, rps := 1, burst := 1, loops := .empty
    apiKeyUseCases := [⟨"Data Gen", ["k1"]⟩, ⟨"Chat", ["k2"]⟩] }

/-- A loop that has a graph twice. -/
def repeatedGraphs : LoopConfig :=
  { shortWindows with graphs := ["requests", "latency", "requests"] }

theorem batch_collision_free_two_passes : ∃ l b,
    newAnalyticsLoop "portkey" repeatedGraphs [⟨"data_gen", "k1"⟩, ⟨"chat", "k2"⟩] = .ok l ∧
    (l.collect id (answering midnight (fiveMinutes (midnight - 5 * minute))) l.init {}).result =
      .ok b ∧ b.samples.length = 40 ∧
    (b.samples.Pairwise fun s s' => s.identity ≠ s'.identity) ∧
    coalesceDPM b.samples 1 = (b.samples, 0) := by
  have hucs : resolveUseCases twoUseCases = .ok [⟨"data_gen", "k1"⟩, ⟨"chat", "k2"⟩] := by
    decide +kernel
  have hfacts : (newAnalyticsLoop "portkey" repeatedGraphs
      [⟨"data_gen", "k1"⟩, ⟨"chat", "k2"⟩]).toOption.map (fun l => (l.collect id
        (answering midnight (fiveMinutes (midnight - 5 * minute))) l.init {}).result.toOption.map
          (fun b => b.samples.length)) = some (some 40) := by decide +kernel
  obtain ⟨l, hnew, hfacts⟩ := Lib.ok_of_toOption_map hfacts
  obtain ⟨b, hb, hlength⟩ := Lib.ok_of_toOption_map hfacts
  obtain ⟨hunique, hcap⟩ := batch_collision_free hucs hnew (by decide) (by decide) hb
  exact ⟨l, b, hnew, hb, hlength, hunique, hcap 1 (by decide)⟩

/-! ### The bucket of a call -/

/-- What a call fetched for a graph. -/
def fetched (l : AnalyticsLoop) (env : AnalyticsEnv V) (since : Watermark) (p : ResolvedUseCase)
    (g : String) : Fetched V :=
  let start := l.start env.now since
  let until' := l.windowEnd env.now start
  env.fetch (query p (l.fetchStart env.now start until') until' g)

/-- Two calls had all their graphs answered, with the same data points for the bucket that ends at
`e`. -/
def AnswersAlike (l : AnalyticsLoop) (env₁ env₂ : AnalyticsEnv V) (since₁ since₂ : Watermark)
    (e : Int) : Prop :=
  ∀ p ∈ l.passes, ∀ g ∈ l.graphs, ∃ r₁ r₂,
    l.fetched env₁ since₁ p g = .ok r₁ ∧ l.fetched env₂ since₂ p g = .ok r₂ ∧
      ∀ dp, dp ∈ r₁.pointsAt e ↔ dp ∈ r₂.pointsAt e

omit [Div V] [OfNat V 1000] [BEq V] V in
private theorem eq_of_mem_iff_of_length_le {α : Type} {l l' : List α} (h : ∀ a, a ∈ l ↔ a ∈ l')
    (hlen : l.length ≤ 1) (hlen' : l'.length ≤ 1) : l = l' := by
  have hnodup : ∀ {l : List α}, l.length ≤ 1 → l.Nodup := by
    intro l hlen
    rcases l with _ | ⟨a, _ | ⟨b, l⟩⟩
    · exact List.nodup_nil
    · exact List.nodup_singleton a
    · simp at hlen
  exact eq_of_perm_of_length_le
    ((List.perm_ext_iff_of_nodup (hnodup hlen) (hnodup hlen')).mpr h) hlen

section Bucket

variable {lp : LoopConfig} (hl : l.Built lp) {env₁ env₂ : AnalyticsEnv V}
  {start₁ until₁ fetchStart₁ start₂ until₂ fetchStart₂ e : Int}
  (hin₁ : start₁ < e ∧ e ≤ Time.addNeg env₁.now l.settle)
  (hin₂ : start₂ < e ∧ e ≤ Time.addNeg env₂.now l.settle)

include hl hin₁ hin₂

omit [BEq V] in
private theorem PassReturns.filter_eq {p : ResolvedUseCase} {out₁ out₂ : List (Sample V)}
    (h₁ : l.PassReturns env₁ start₁ until₁ fetchStart₁ p out₁)
    (h₂ : l.PassReturns env₂ start₂ until₂ fetchStart₂ p out₂)
    (halike : ∀ g ∈ l.graphs, ∃ r₁ r₂,
      env₁.fetch (query p fetchStart₁ until₁ g) = .ok r₁ ∧
      env₂.fetch (query p fetchStart₂ until₂ g) = .ok r₂ ∧
        ∀ dp, dp ∈ r₁.pointsAt e ↔ dp ∈ r₂.pointsAt e) :
    out₁.filter (fun s => s.timestamp = e) = out₂.filter fun s => s.timestamp = e := by
  obtain ⟨resp₁, samples₁, hresp₁, hderive₁, rfl⟩ := h₁
  obtain ⟨resp₂, samples₂, hresp₂, hderive₂, rfl⟩ := h₂
  rw [hl.startSemantics] at hderive₁ hderive₂
  obtain ⟨hbucket₁, hone₁⟩ := filter_derive hin₁ hderive₁
  obtain ⟨hbucket₂, hone₂⟩ := filter_derive hin₂ hderive₂
  have hpoints : resp₁.map (fun r => r.pointsAt e) = resp₂.map fun r => r.pointsAt e := by
    refine SortedMap.ext_get? fun g => ?_
    have hget₁ := get?_fetchGraphs hresp₁ g
    have hget₂ := get?_fetchGraphs hresp₂ g
    rw [SortedMap.get?_empty, Option.or_none] at hget₁ hget₂
    rw [SortedMap.get?_map, SortedMap.get?_map]
    by_cases hg : g ∈ l.graphs
    · obtain ⟨r₁, r₂, hfetch₁, hfetch₂, hsame⟩ := halike g hg
      rw [if_pos hg, hfetch₁, Fetched.answer?] at hget₁
      rw [if_pos hg, hfetch₂, Fetched.answer?] at hget₂
      rw [hget₁, hget₂, Option.map_some, Option.map_some,
        eq_of_mem_iff_of_length_le hsame (hone₁ g r₁ hget₁) (hone₂ g r₂ hget₂)]
    · rw [hget₁, hget₂, if_neg hg, if_neg hg]
  rw [filter_stampUseCase, filter_stampUseCase, hbucket₁, hbucket₂, hpoints]

/-- **Calls over answers alike return the same bucket.** -/
theorem filter_collectPasses_eq {histories₁ histories₂ : SortedMap String (RevisionHistory V)}
    {passes : List ResolvedUseCase} {all₁ all₂ : List (Sample V)}
    (h₁ : (l.collectPasses env₁ start₁ until₁ fetchStart₁ histories₁ passes).2.2 = .ok all₁)
    (h₂ : (l.collectPasses env₂ start₂ until₂ fetchStart₂ histories₂ passes).2.2 = .ok all₂)
    (halike : ∀ p ∈ passes, ∀ g ∈ l.graphs, ∃ r₁ r₂,
      env₁.fetch (query p fetchStart₁ until₁ g) = .ok r₁ ∧
      env₂.fetch (query p fetchStart₂ until₂ g) = .ok r₂ ∧
        ∀ dp, dp ∈ r₁.pointsAt e ↔ dp ∈ r₂.pointsAt e) :
    all₁.filter (fun s => s.timestamp = e) = all₂.filter fun s => s.timestamp = e := by
  induction passes generalizing histories₁ histories₂ all₁ all₂ with
  | nil =>
    obtain rfl := Except.ok.inj h₁
    obtain rfl := Except.ok.inj h₂
    rfl
  | cons p rest ih =>
    obtain ⟨histories₁', out₁, tail₁, hout₁, htail₁, rfl⟩ := collectPasses_cons h₁
    obtain ⟨histories₂', out₂, tail₂, hout₂, htail₂, rfl⟩ := collectPasses_cons h₂
    obtain ⟨hp, hrest⟩ := List.forall_mem_cons.mp halike
    rw [List.filter_append, List.filter_append, hout₁.filter_eq hl hin₁ hin₂ hout₂ hp,
      ih htail₁ htail₂ hrest]

end Bucket

end AnalyticsLoop

end GenaiBridge
