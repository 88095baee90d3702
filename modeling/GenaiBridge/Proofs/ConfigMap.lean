/-
The ConfigMap store is safe under concurrent writers.

All watermarks live in one object, so a save rewrites the entries of every key.  It
is safe because an update only applies under the resource version it read, and a
resource version never comes back.
-/
import GenaiBridge.Proofs.Checkpoint

namespace GenaiBridge

open Lib (Json)
open Lib.Optimistic

/-! ### An instant needs no escapes -/

theorem escapeChar_of_isDigit {c : Char} (h : c.isDigit = true) : Json.escapeChar c = [c] := by
  have hrange : 48 ≤ c.toNat ∧ c.toNat ≤ 57 := by
    simp only [Char.isDigit, Bool.and_eq_true, decide_eq_true_eq, ge_iff_le] at h
    exact ⟨h.1, h.2⟩
  unfold Json.escapeChar
  split_ifs with h1 h2 h3 h4 h5 h6 h7 h8
  · subst h1; exact absurd h (by decide)
  · subst h2; exact absurd h (by decide)
  · subst h3; exact absurd h (by decide)
  · subst h4; exact absurd h (by decide)
  · subst h5; exact absurd h (by decide)
  · subst h6; exact absurd h (by decide)
  · subst h7; exact absurd h (by decide)
  · rcases h8 with h8 | rfl | rfl | rfl | h8 | h8
    · omega
    · exact absurd h (by decide)
    · exact absurd h (by decide)
    · exact absurd h (by decide)
    · omega
    · omega
  · rfl

theorem quote_formatNano (t : Int) :
    Json.quote (Lib.Rfc3339.formatNano t) = Lib.Rfc3339.formatNano t := by
  have hpad : ∀ {w n : Nat} {c : Char}, c ∈ Lib.padded w n → Json.escapeChar c = [c] :=
    fun hc => escapeChar_of_isDigit (Lib.isDigit_of_mem_padded hc)
  have hyear : ∀ {y : Int} {c : Char}, c ∈ Lib.Rfc3339.formatYear y → Json.escapeChar c = [c] := by
    intro y c hc
    unfold Lib.Rfc3339.formatYear at hc
    split at hc
    · rcases List.mem_cons.mp hc with rfl | hc
      · rfl
      · exact hpad hc
    · exact hpad hc
  have hfrac : ∀ {n : Nat} {c : Char}, c ∈ Lib.Rfc3339.formatFraction n →
      Json.escapeChar c = [c] := by
    intro n c hc
    unfold Lib.Rfc3339.formatFraction at hc
    dsimp only at hc
    split at hc
    · cases hc
    · rcases List.mem_cons.mp hc with rfl | hc
      · rfl
      · have hfront := List.rdropWhile_prefix (fun c => decide (c = '0')) (Lib.padded 9 n)
        exact hpad (hfront.subset hc)
  refine Json.quote_eq_self fun c hc => ?_
  simp only [Lib.Rfc3339.formatNano, Lib.Rfc3339.formatWith, List.mem_append, List.mem_cons,
    List.not_mem_nil, or_false] at hc
  rcases hc with (((((((hc | rfl | hc) | rfl | hc) | rfl | hc) | rfl | hc) | rfl | hc) | hc) | rfl)
  · exact hyear hc
  · rfl
  · exact hpad hc
  · rfl
  · exact hpad hc
  · rfl
  · exact hpad hc
  · rfl
  · exact hpad hc
  · rfl
  · exact hpad hc
  · exact hfrac hc
  · rfl

namespace ConfigMap

theorem decodeRecord_encodeRecord {w : Watermark} {enc : String} (h : encodeRecord w = some enc) :
    decodeRecord enc = some w := by
  unfold encodeRecord at h
  dsimp only at h
  split at h
  · cases h
  · rename_i hyear
    obtain rfl := Option.some.inj h
    have htime : Json.field readTime "time".toList 0
        [Json.member ("time".toList, .text (Lib.Rfc3339.formatNano w.time))] = some w.time := by
      have hparse := Lib.Rfc3339.parse_formatNano (t := w.time) (by omega) (by omega)
      simp [Json.field, Json.member, Json.sameName, Json.unquote_quote, Json.Scalar.value, readTime,
        quote_formatNano, hparse]
    have hlo : minInt64 ≤ w.epoch.toInt := Int64.le_toInt _
    have hhi : w.epoch.toInt ≤ maxInt64 := Int64.toInt_le _
    have hepoch := Json.field_member_int "epoch".toList hlo hhi 0
    unfold decodeRecord
    rw [String.toList_ofList, Json.parse_encode (by simp)]
    simp only [List.map_cons, List.map_nil, Option.bind_eq_bind, Option.bind_some, Json.members,
      Json.field_cons_cons, htime, hepoch, Json.field_member_text,
      Json.field_member_ne "time".toList "cursor".toList (by decide),
      Json.field_member_ne "time".toList "epoch".toList (by decide),
      Json.field_member_ne "cursor".toList "time".toList (by decide),
      Json.field_member_ne "cursor".toList "epoch".toList (by decide),
      Json.field_member_ne "epoch".toList "time".toList (by decide),
      Json.field_member_ne "epoch".toList "cursor".toList (by decide)]
    simp

/-- The stamp of the object: its resource version. -/
def stamp (cm : Option Object) : Option Nat := cm.map Object.resourceVersion

/-- What `prepare` checked and built, when it lets a save through. -/
theorem prepare_ok {sha256 : String → String} {key : CheckpointKey} {w : Watermark}
    {cm : Option Object} {req : Request} (h : prepare sha256 (key, w) cm = .ok req) :
    ∃ stored enc, load sha256 cm key = some stored ∧ checkMonotonic stored w = .ok () ∧
      encodeRecord w = some enc ∧
      req = request cm
        (((cm.map Object.data).getD .empty).insert (dataKey sha256 key) enc) := by
  unfold prepare at h
  dsimp only at h
  split at h
  · cases h
  · rename_i stored hload
    split at h
    · cases h
    · rename_i hcheck
      split at h
      · cases h
      · rename_i enc henc
        refine ⟨stored, enc, hload, hcheck, henc, ?_⟩
        split at h
        · cases h
        · exact (Except.ok.inj h).symm

/-- The API server's condition compares resource versions. -/
theorem conditional (sha256 : String → String) :
    Conditional stamp (client sha256) applies := by
  rintro ⟨key, w⟩ snapshot req cur v hprep happlies
  obtain ⟨stored, enc, -, -, -, rfl⟩ := prepare_ok hprep
  cases snapshot <;> cases cur <;> cases v <;> simp_all [applies, request, stamp]

/-- A write gives the object a larger resource version. -/
def Newer (new old : Option Object) : Prop :=
  ∃ o, new = some o ∧ ∀ o', old = some o' → o'.resourceVersion < o.resourceVersion

theorem newer_of_applies {req : Request} {cur v : Option Object} (h : applies req cur v) :
    Newer v cur := by
  cases v with
  | none => cases req <;> cases cur <;> exact absurd h (by simp [applies])
  | some o =>
    refine ⟨o, rfl, ?_⟩
    rintro o' rfl
    cases req with
    | create data => exact absurd h (by simp [applies])
    | update rv data => exact h.2.1

instance : IsTrans (Option Object) Newer where
  trans := by
    rintro a b c ⟨o, rfl, hab⟩ ⟨o', rfl, hbc⟩
    exact ⟨o, rfl, fun o'' h => lt_trans (hbc o'' h) (hab o' rfl)⟩

theorem nodup_of_chain {l : List (Option Object)} (h : l.IsChain Newer) : (l.map stamp).Nodup := by
  rw [List.Nodup, List.pairwise_map]
  refine (List.isChain_iff_pairwise.mp h).imp ?_
  rintro a b ⟨o, rfl, hlt⟩ heq
  cases b with
  | none => cases heq
  | some o' => exact absurd (Option.some.inj heq) (ne_of_gt (hlt o' rfl))

theorem applies_request {cur v : Option Object} {data : Lib.SortedMap String String}
    (h : applies (request cur data) cur v) : ∃ o, v = some o ∧ o.data = data := by
  cases cur <;> cases v <;> simp_all [applies, request]

theorem entry_of_insert {cur : Option Object} {o : Object} {k k' enc : String}
    (hdata : o.data = ((cur.map Object.data).getD .empty).insert k enc) (hne : k' ≠ k) :
    entry (some o) k' = entry cur k' := by
  show o.data.get? k' = _
  rw [hdata, Lib.SortedMap.get?_insert_of_ne _ _ hne]
  cases cur <;> rfl

theorem safeWrite {sha256 : String → String} {key : CheckpointKey} {w : Watermark}
    {cur v : Option Object} (h : Effect (client sha256) applies (key, w) cur v) :
    SafeWrite decodeRecord (entry cur) (entry v) (dataKey sha256 key) w := by
  obtain ⟨req, hprep, happlies⟩ := h.applied
  obtain ⟨stored, enc, hload, hcheck, henc, rfl⟩ := prepare_ok hprep
  obtain ⟨o, rfl, hdata⟩ := applies_request happlies
  have hself : entry (some o) (dataKey sha256 key) = some enc := by
    show o.data.get? _ = _
    rw [hdata, Lib.SortedMap.get?_insert_self]
  refine ⟨⟨stored, hload, hcheck⟩, ?_, fun k' hne => entry_of_insert hdata hne⟩
  rw [hself]
  exact decodeRecord_encodeRecord henc

/-- The ConfigMap store: one object, an entry for each data key. -/
def store (sha256 : String → String) : Store Unit (Option Object) Request String where
  client := client sha256
  applies := applies
  entries cells := entry (cells ()).current
  decode := decodeRecord
  storeKey := dataKey sha256

theorem store_safe (sha256 : String → String) : StoreSafe (store sha256) fun _ => True := by
  refine storeSafe stamp (conditional sha256) (fun _ _ _ _ => trivial) ?_ ?_
  · intro contents s hrun _
    refine distinct_of_chain Newer (fun _ => True) (fun _ _ _ _ => trivial) ?_
      (fun l hl _ => nodup_of_chain hl) (conditional sha256) hrun (fun _ => trivial)
    rintro arg cur v ⟨-, req, -, happlies⟩
    exact newer_of_applies happlies
  · rintro cells ⟨key, w⟩ v heffect
    have := safeWrite heffect
    simpa [store, client] using this

end ConfigMap

end GenaiBridge
