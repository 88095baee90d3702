/-
A bucket that is emitted again is the same requests again.

After a crash the loop collects a window a second time, from another watermark, at
another time and next to other buckets.  What it makes of a bucket whose data points have
not changed is the same list of samples; and since no step on the way to the wire depends
on the order of a map, the same messages, split in the same places.
-/
import GenaiBridge.Proofs.AnalyticsBatch
import GenaiBridge.Proofs.Buckets
import GenaiBridge.Proofs.Budget
import GenaiBridge.Proofs.Coalesce
import GenaiBridge.Proofs.MapRanges

namespace GenaiBridge

variable {V : Type}

/-- The sub-batches for the bucket that ends at `e`, of a batch that is capped and split. -/
def bucketsAt [LT V] [DecidableLT V] (o : Lib.MapOrder) (maxDPM : Int) (b : Batch V) (e : Int) :
    List (Batch V) :=
  (splitByBucketIn o { b with samples := (coalesceDPMIn o b.samples maxDPM).1 }).filter
    fun c => bucketTime c = e

/-- What the guard says of the samples of a batch, one after the other. -/
def Guard.sampleVerdicts (g : Guard) (b : Batch V) : List Bool :=
  (g.verdicts (b.samples.map .sample)).map Prod.snd

/-- **Equal verdicts, equal requests**, whatever the order of the maps. -/
theorem emitSamples_sanitize_eq {g g' : Guard} {b : Batch V}
    (h : g.sampleVerdicts b = g'.sampleVerdicts b) (o o' : Lib.MapOrder) {σ : Type}
    (marshal : ResourceMetrics V → Except String (List UInt8)) (wire : Wire σ) (em : Emitter)
    (server : σ) :
    em.emitSamples o marshal wire (g.sanitize b).1.samples server =
      em.emitSamples o' marshal wire (g'.sanitize b).1.samples server := by
  have hkept : (g.sanitize b).1.samples = (g'.sanitize b).1.samples := Guard.sanitizeLoop_congr h
  rw [hkept, emitSamples_order o o']

namespace AnalyticsLoop

variable [Div V] [OfNat V 1000] [BEq V] {l : AnalyticsLoop} {sha256 : String → String}

/-- **The bucket of a batch** that ends at `e`: the samples at that instant. -/
theorem bucketsAt_collect [LT V] [DecidableLT V] {lp : LoopConfig} (hl : l.Built lp)
    (hback : lp.maxBackfill ≤ maxInt64) (hsettle : minInt64 ≤ lp.bucketSettle)
    {env : AnalyticsEnv V} {st : AnalyticsState V} {since : Watermark} {b : Batch V}
    (h : (l.collect sha256 env st since).result = .ok b) {e : Int} (he : e ∈ ends b.samples)
    (o : Lib.MapOrder) (maxDPM : Int) :
    bucketsAt o maxDPM b e =
      [{ key := l.key sha256, samples := b.samples.filter fun s => s.timestamp = e }] := by
  obtain ⟨s₀, hs₀, hs₀e⟩ := he
  obtain ⟨hkey, histories, hall⟩ := collect_samples h (List.ne_nil_of_mem hs₀)
  obtain ⟨hrange, hpair⟩ :=
    collectPasses_samples hl (span_le hl hback hsettle env.now since) hall
  have hspan := span_le hl hback hsettle env.now since
  rw [bucketsAt, splitByBucketIn_eq, coalesceDPMIn_eq, coalesceDPM_of_pairwise (hpair.imp And.left)]
  rw [← hkey]
  refine filter_splitByBucket (fun s hs hnano => ?_) ⟨s₀, hs₀, hs₀e⟩
  -- both instants are in the range of the call
  have hs := hrange s hs
  have he := hrange s₀ hs₀
  rw [hs₀e] at he
  by_contra hne
  rcases lt_or_gt_of_ne hne with hlt | hlt
  · exact unixNano_ne hlt (by omega) hnano
  · exact unixNano_ne hlt (by omega) hnano.symm

/-- **Emitted again, a bucket is the same sub-batch and the same requests.**  The two calls are of one
loop, at any times and from any watermarks; the maps may be visited in any order, and `o` and the
server are whatever they are when the bucket is sent. -/
theorem reemission_identical [LT V] [DecidableLT V] {sc : SourceConfig}
    {ucs : List ResolvedUseCase} (hucs : resolveUseCases sc = .ok ucs) {sourceInstance : String}
    {lp : LoopConfig} (hnew : newAnalyticsLoop sourceInstance lp ucs = .ok l)
    (hback : lp.maxBackfill ≤ maxInt64) (hsettle : minInt64 ≤ lp.bucketSettle)
    {env₁ env₂ : AnalyticsEnv V} {st₁ st₂ : AnalyticsState V} {since₁ since₂ : Watermark}
    {b₁ b₂ : Batch V} (h₁ : (l.collect sha256 env₁ st₁ since₁).result = .ok b₁)
    (h₂ : (l.collect sha256 env₂ st₂ since₂).result = .ok b₂) {e : Int}
    (halike : l.AnswersAlike env₁ env₂ since₁ since₂ e) (he₁ : e ∈ ends b₁.samples)
    (he₂ : e ∈ ends b₂.samples) (maxDPM : Int) :
    ∃ sub : Batch V, (∀ o, bucketsAt o maxDPM b₁ e = [sub]) ∧
      (∀ o, bucketsAt o maxDPM b₂ e = [sub]) ∧
      ∀ g₁ g₂ : Guard, g₁.sampleVerdicts sub = g₂.sampleVerdicts sub →
        ∀ (o₁ o₂ : Lib.MapOrder) (σ : Type)
          (marshal : ResourceMetrics V → Except String (List UInt8)) (wire : Wire σ)
          (em : Emitter) (server : σ),
          em.emitSamples o₁ marshal wire (g₁.sanitize sub).1.samples server =
            em.emitSamples o₂ marshal wire (g₂.sanitize sub).1.samples server := by
  have hl := built hucs hnew
  have hsame : (b₁.samples.filter fun s => s.timestamp = e) =
      b₂.samples.filter fun s => s.timestamp = e := by
    obtain ⟨s₁, hs₁, rfl⟩ := he₁
    obtain ⟨s₂, hs₂, hs₂e⟩ := he₂
    obtain ⟨-, histories₁, hall₁⟩ := collect_samples h₁ (List.ne_nil_of_mem hs₁)
    obtain ⟨-, histories₂, hall₂⟩ := collect_samples h₂ (List.ne_nil_of_mem hs₂)
    have hin₁ := (collectPasses_samples hl (span_le hl hback hsettle _ _) hall₁).1 s₁ hs₁
    have hin₂ := (collectPasses_samples hl (span_le hl hback hsettle _ _) hall₂).1 s₂ hs₂
    rw [hs₂e] at hin₂
    exact filter_collectPasses_eq hl hin₁ hin₂ hall₁ hall₂ halike
  refine ⟨_, fun o => bucketsAt_collect hl hback hsettle h₁ he₁ o maxDPM, fun o => ?_,
    fun g₁ g₂ hverdicts o₁ o₂ σ marshal wire em server =>
      emitSamples_sanitize_eq hverdicts o₁ o₂ marshal wire em server⟩
  rw [hsame]
  exact bucketsAt_collect hl hback hsettle h₂ he₂ o maxDPM

/-- A source without use cases. -/
def plainSource : SourceConfig :=
  { type := "portkey", enabled := true, sourceInstance := "portkey", baseURL := "", authHeader := ""
    authValue := "", allowPrivate := false, rps := 1, burst := 1, loops := .empty }

/-- The API before a restart, and after it: half a minute later, with other minutes in another
order. -/
def earlierAPI : AnalyticsEnv Int := answering midnight (fiveMinutes (midnight - 5 * minute))

@[inherit_doc earlierAPI]
def laterAPI : AnalyticsEnv Int :=
  answering (midnight + 30 * second) [midnight, midnight - 3 * minute, midnight - 2 * minute]

/-- What a call of the loop with a short window returned. -/
def shortBatch (env : AnalyticsEnv Int) (since : Watermark) : Batch Int :=
  (shortLoop.collect id env shortLoop.init since).result.toOption.getD { key := shortLoop.key id }

theorem reemission_identical_after_restart :
    ∃ sub : Batch Int,
      (∀ o, bucketsAt o 1 (shortBatch earlierAPI {}) (midnight - 2 * minute) = [sub]) ∧
      ∀ o, bucketsAt o 1 (shortBatch laterAPI { time := midnight - 3 * minute })
        (midnight - 2 * minute) = [sub] := by
  have hpoints : (answerFor (fiveMinutes (midnight - 5 * minute))).pointsAt (midnight - 2 * minute) =
      (answerFor [midnight, midnight - 3 * minute, midnight - 2 * minute]).pointsAt
        (midnight - 2 * minute) := by
    decide +kernel
  obtain ⟨sub, h₁, h₂, -⟩ := reemission_identical (l := shortLoop)
    (show resolveUseCases plainSource = .ok [] from rfl)
    (show newAnalyticsLoop "portkey" shortWindows [] = .ok shortLoop from rfl) (by decide) (by decide)
    (show (shortLoop.collect id earlierAPI shortLoop.init {}).result =
      .ok (shortBatch earlierAPI {}) by decide +kernel)
    (show (shortLoop.collect id laterAPI shortLoop.init { time := midnight - 3 * minute }).result =
      .ok (shortBatch laterAPI { time := midnight - 3 * minute }) by decide +kernel)
    (fun p _ g _ => ⟨_, _, rfl, rfl, fun dp => by rw [hpoints]⟩)
    (show ∃ s ∈ (shortBatch earlierAPI {}).samples, s.timestamp = midnight - 2 * minute by
      decide +kernel)
    (show ∃ s ∈ (shortBatch laterAPI { time := midnight - 3 * minute }).samples,
      s.timestamp = midnight - 2 * minute by decide +kernel) 1
  exact ⟨sub, h₁, h₂⟩

end AnalyticsLoop

end GenaiBridge
