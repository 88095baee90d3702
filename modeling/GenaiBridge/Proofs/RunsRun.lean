/-
The runs loop drains every window, or says that it did not.

A call of `Collect` that succeeds fetched one page of the window in its cursor, or of a
new one (`collect_ok`).  Written to the store, it extends the chain of pages of the
window, and the page that ends the chain is the one that moves the time.
-/
import GenaiBridge.Proofs.RunsWindow

namespace GenaiBridge

namespace RunsLoop

variable {l : RunsLoop} {h : List RunsAttempt} {env : RunsEnv} {cache cache' : SessionCache}
  {since w : Watermark} {calls : List RunsCall} {logs : List LogRecord}

/-! ### One step -/

private theorem query?_listSessionIDs (l : RunsLoop) (env : RunsEnv) (offset : Nat)
    (ids : List String) : (l.listSessionIDs env offset ids).2.filterMap RunsCall.query? = [] := by
  fun_induction listSessionIDs l env offset ids with
  | case6 => assumption
  | _ => rfl

theorem query?_resolveSessions (l : RunsLoop) (env : RunsEnv) (cache : SessionCache)
    (draining : Bool) :
    (l.resolveSessions env cache draining).2.1.filterMap RunsCall.query? = [] := by
  have hlist := query?_listSessionIDs l env 0 []
  unfold resolveSessions
  split_ifs
  · rfl
  · rfl
  · split
    · rename_i heq
      rw [heq] at hlist
      exact hlist
    · rename_i heq
      rw [heq] at hlist
      split_ifs <;> exact hlist

/-- What the page of a window comes to: the next page is pending, or the window is complete. -/
theorem pageWatermark_cases (l : RunsLoop) (since : Watermark) (win : Window)
    (next : String) :
    (next ≠ "" ∧ wrap64 (win.page + 1) < l.maxPagesPerWindow ∧
      l.pageWatermark since win next =
        ([], { time := since.time, cursor := (RunsCursor.mk (formatCursorTime win.winMin)
          (formatCursorTime win.winMax) next (wrap64 (win.page + 1))).encode })) ∨
    ((next = "" ∨ l.maxPagesPerWindow ≤ wrap64 (win.page + 1)) ∧
      l.pageWatermark since win next =
        (if next ≠ "" then [.incomplete .windowTruncated] else [], { time := win.winMax })) := by
  unfold pageWatermark
  by_cases hmore : next ≠ "" ∧ wrap64 (win.page + 1) < l.maxPagesPerWindow
  · exact Or.inl ⟨hmore.1, hmore.2, if_pos hmore⟩
  · refine Or.inr ⟨?_, if_neg hmore⟩
    by_contra hboth
    exact hmore ⟨fun hnext => hboth (Or.inl hnext), by omega⟩

theorem query?_pageWatermark (l : RunsLoop) (since : Watermark) (win : Window) (next : String) :
    (l.pageWatermark since win next).1.filterMap RunsCall.query? = [] := by
  rcases pageWatermark_cases l since win next with ⟨-, -, heq⟩ | ⟨-, heq⟩
  · rw [heq]
    rfl
  · rw [heq]
    split_ifs <;> rfl

theorem query?_beginWindow (l : RunsLoop) (sinceTime now : Int) :
    (l.beginWindow sinceTime now).1.filterMap RunsCall.query? = [] := by
  rw [beginWindow_eq]
  dsimp only
  split_ifs <;> rfl

private theorem fetchPage_ok {win : Window} {draining : Bool}
    (hfetch : l.fetchPage env cache since win draining = ⟨calls, cache', .ok (logs, w)⟩) :
    ∃ page : RunsPage, page.status = 200 ∧
      calls.filterMap RunsCall.query? = [(win.winMin, win.winMax, win.resume, .ok page)] ∧
      logs = page.runs.map (fun raw => l.policy.strip raw win.winMax) ∧
      w = (l.pageWatermark since win page.next).2 ∧
      ∀ call ∈ (l.pageWatermark since win page.next).1, call ∈ calls := by
  have hresolve := query?_resolveSessions l env cache draining
  unfold fetchPage at hfetch
  split at hfetch
  · cases (RunsStep.mk.inj hfetch).2.2
  · rename_i sessions before kept heq
    rw [heq] at hresolve
    dsimp only at hfetch hresolve
    split at hfetch
    · cases (RunsStep.mk.inj hfetch).2.2
    · rename_i page hpage
      rw [hpage] at hfetch
      split_ifs at hfetch with hstatus
      · obtain ⟨rfl, -, hres⟩ := RunsStep.mk.inj hfetch
        obtain ⟨rfl, rfl⟩ := Prod.mk.inj (Except.ok.inj hres)
        refine ⟨page, hstatus, ?_, rfl, rfl, fun call hcall => List.mem_append_right _ hcall⟩
        rw [List.filterMap_append, List.filterMap_append, hresolve,
          query?_pageWatermark l since win page.next]
        rfl
      all_goals cases (RunsStep.mk.inj hfetch).2.2

/-- **What a call of `Collect` does**: nothing, or it fetches a page of the window in its cursor or of
a new window. -/
theorem collect_ok (hcollect : l.collect env cache since = ⟨calls, cache', .ok (logs, w)⟩) :
    (calls.filterMap RunsCall.query? = [] ∧ w = since) ∨
    ∃ win page, (draining (decodeRunsCursor since.cursor) = some win ∨
        draining (decodeRunsCursor since.cursor) = none ∧
          ∃ hooks winMin winMax, l.beginWindow since.time env.now = (hooks, some (winMin, winMax)) ∧
            win = ⟨winMin, winMax, "", 0⟩) ∧
      page.status = 200 ∧
      calls.filterMap RunsCall.query? = [(win.winMin, win.winMax, win.resume, .ok page)] ∧
      logs = page.runs.map (fun raw => l.policy.strip raw win.winMax) ∧
      w = (l.pageWatermark since win page.next).2 ∧
      ∀ call ∈ (l.pageWatermark since win page.next).1, call ∈ calls := by
  have hhooks := query?_beginWindow l since.time env.now
  unfold collect at hcollect
  split at hcollect
  · rename_i win hwin
    obtain ⟨page, hpage⟩ := fetchPage_ok hcollect
    exact Or.inr ⟨win, page, Or.inl hwin, hpage⟩
  · rename_i hidle
    split at hcollect
    · rename_i hooks hbegin
      rw [hbegin] at hhooks
      obtain ⟨rfl, -, hres⟩ := RunsStep.mk.inj hcollect
      obtain ⟨-, rfl⟩ := Prod.mk.inj (Except.ok.inj hres)
      exact Or.inl ⟨hhooks, rfl⟩
    · rename_i hooks winMin winMax hbegin
      rw [hbegin] at hhooks
      rcases hfetch : l.fetchPage env cache since ⟨winMin, winMax, "", 0⟩ false
        with ⟨calls', kept, result⟩
      rw [hfetch] at hcollect
      obtain ⟨rfl, -, hres⟩ := RunsStep.mk.inj hcollect
      obtain rfl : result = .ok (logs, w) := hres
      obtain ⟨page, hstatus, hquery, hlogs, hw, hmem⟩ := fetchPage_ok hfetch
      refine Or.inr ⟨⟨winMin, winMax, "", 0⟩, page, Or.inr ⟨hidle, hooks, winMin, winMax, hbegin, rfl⟩,
        hstatus, ?_, hlogs, hw, fun call hcall => List.mem_append_right _ (hmem call hcall)⟩
      rw [List.filterMap_append, hhooks, hquery]
      rfl

/-! ### A page of a window -/

private theorem draining_of_fetch (hl : l.Accepted) (henv : l.EnvOk env) {win : Window}
    (hc : l.CursorOk h since.position)
    (hwin : draining (decodeRunsCursor since.cursor) = some win ∨
      draining (decodeRunsCursor since.cursor) = none ∧
        ∃ hooks winMin winMax, l.beginWindow since.time env.now = (hooks, some (winMin, winMax)) ∧
          win = ⟨winMin, winMax, "", 0⟩) :
    l.Draining h since.time win := by
  rcases hwin with hwin | ⟨-, hooks, winMin, winMax, hbegin, rfl⟩
  · exact hc win hwin
  · obtain ⟨htm, h0, hnow⟩ := @windowStart_spec l.window l.settle l.maxBackfill since.time
      env.now hl.settle henv.backfill
    rw [beginWindow_eq] at hbegin
    obtain ⟨-, hsome⟩ := Prod.mk.inj hbegin
    split_ifs at hsome with hlt
    obtain ⟨rfl, rfl⟩ := Prod.mk.inj (Option.some.inj hsome)
    exact ⟨htm, h0, hlt, le_trans (Lib.Rfc3339.year_mono hnow) henv.year,
      ⟨[], List.nil_sublist _, .none, rfl⟩, hl.maxPagesPerWindow⟩

/-- A written call that fetched a page of a window: the window goes on with the next page, or is
complete. -/
structure Extends (l : RunsLoop) (h : List RunsAttempt) (p : Position) (e : RunsEvent) (q : Position)
    (win : Window) (page : RunsPage) : Prop where
  window : l.Draining h p.time win
  cursor : draining (decodeRunsCursor p.cursor) = some win ∨
    draining (decodeRunsCursor p.cursor) = none ∧ win.page = 0
  fetches : l.Fetches win.winMin win.winMax win.resume page ⟨p, e, q, true⟩
  next : (page.next ≠ "" ∧ win.page + 1 < l.maxPagesPerWindow ∧ q.time = p.time ∧
      draining (decodeRunsCursor q.cursor) =
        some ⟨win.winMin, win.winMax, page.next, win.page + 1⟩) ∨
    ((page.next = "" ∨ win.page + 1 = l.maxPagesPerWindow ∧
      .incomplete .windowTruncated ∈ e.calls) ∧ q = ⟨win.winMax, ""⟩)

/-- **What a written call does.** -/
theorem proposes_cases (hl : l.Accepted) {p q : Position} {e : RunsEvent} (hc : l.CursorOk h p)
    (hp : l.Proposes l.EnvOk p e q) :
    (e.calls.filterMap RunsCall.query? = [] ∧ q = p) ∨ ∃ win page, l.Extends h p e q win page := by
  obtain ⟨env, cache, cache', since, w, henv, rfl, rfl, hcollect⟩ := hp
  rcases collect_ok hcollect with ⟨hquery, rfl⟩ | ⟨win, page, hwin, hstatus, hquery, hlogs, hw, hmem⟩
  · exact Or.inl ⟨hquery, rfl⟩
  · have hd := draining_of_fetch hl henv hc hwin
    have hpages : wrap64 (win.page + 1) = win.page + 1 := by
      obtain ⟨as, -, -, hlen⟩ := hd.pages
      have hlt := hd.page_lt
      have hle := hl.maxPagesPerWindow_le
      exact wrap64_of_mem (by unfold minInt64; omega) (by omega)
    refine Or.inr ⟨win, page, hd, ?_, ⟨rfl, hstatus, hquery, hlogs⟩, ?_⟩
    · rcases hwin with hwin | ⟨hidle, -, -, -, -, rfl⟩
      · exact Or.inl hwin
      · exact Or.inr ⟨hidle, rfl⟩
    · rcases pageWatermark_cases l since win page.next with ⟨hnext, hlt, heq⟩ | ⟨hlast, heq⟩
      · rw [heq] at hw
        rw [hpages] at hlt hw
        have hin : InInt64 (win.page + 1) := by
          rw [← hpages]
          exact inInt64_wrap64 _
        refine Or.inl ⟨hnext, hlt, ?_, ?_⟩
        · simp only [hw, Watermark.position]
        · simp only [hw, Watermark.position]
          exact draining_encode hd.nonneg hd.lt hd.year hin
      · rw [heq] at hw hmem
        rw [hpages] at hlast
        subst hw
        refine Or.inr ⟨?_, rfl⟩
        by_cases hnext : page.next = ""
        · exact Or.inl hnext
        · have hlt := hd.page_lt
          refine Or.inr ⟨?_, hmem _ (by simp [hnext])⟩
          rcases hlast with hlast | hlast
          · exact absurd hlast hnext
          · omega

section Extends

variable {p q : Position} {e : RunsEvent} {win : Window} {page : RunsPage}

private theorem Extends.sublist (hx : l.Extends h p e q win page) :
    ∃ as, (as ++ [⟨p, e, q, true⟩]).Sublist (h ++ [⟨p, e, q, true⟩]) ∧
      l.Pages win.winMin win.winMax as win.resume ∧ win.page = as.length := by
  obtain ⟨as, hsub, hpages, hlen⟩ := hx.window.pages
  exact ⟨as, hsub.append (List.Sublist.refl _), hpages, hlen⟩

theorem Extends.cursorOk (hx : l.Extends h p e q win page) :
    l.CursorOk (h ++ [⟨p, e, q, true⟩]) q := by
  intro w hw
  rcases hx.next with ⟨hnext, hlt, htime, hdraining⟩ | ⟨-, rfl⟩
  · obtain rfl := Option.some.inj (hdraining.symm.trans hw)
    obtain ⟨as, hsub, hpages, hlen⟩ := hx.sublist
    refine ⟨by rw [htime]; exact hx.window.start, hx.window.nonneg, hx.window.lt, hx.window.year,
      ⟨_, hsub, .more hpages hx.fetches hnext, ?_⟩, hlt⟩
    rw [List.length_append, List.length_singleton]
    push_cast
    omega
  · cases hw

theorem Extends.moved (hx : l.Extends h p e q win page) :
    l.Moved (h ++ [⟨p, e, q, true⟩]) p q := by
  rcases hx.next with ⟨-, -, htime, -⟩ | ⟨hlast, rfl⟩
  · exact Or.inl htime
  · obtain ⟨as, hsub, hpages, hlen⟩ := hx.sublist
    have hlength : ((as ++ [(⟨p, e, ⟨win.winMax, ""⟩, true⟩ : RunsAttempt)]).length : Int) =
        win.page + 1 := by
      rw [List.length_append, List.length_singleton]
      push_cast
      omega
    have hlt := hx.window.page_lt
    refine Or.inr ⟨win.winMin, hx.window.start, hx.window.lt, as, _, win.resume, page, hsub, hpages,
      hx.fetches, by rw [hlength]; omega, ?_⟩
    rw [hlength]
    exact hlast

end Extends

/-- A written call keeps the cursor true, and makes a move. -/
theorem kept_proposes (hl : l.Accepted) {p q : Position} {e : RunsEvent}
    (hc : l.CursorOk h p) (hp : l.Proposes l.EnvOk p e q) :
    l.CursorOk (h ++ [⟨p, e, q, true⟩]) q ∧ l.Moved (h ++ [⟨p, e, q, true⟩]) p q := by
  rcases proposes_cases hl hc hp with ⟨-, rfl⟩ | ⟨win, page, hx⟩
  · exact ⟨hc.mono _, Or.inl rfl⟩
  · exact ⟨hx.cursorOk, hx.moved⟩

/-! ### The pages of a window -/

/-- The attempts that fetched a page of a window. -/
def FetchesOf (l : RunsLoop) (winMin winMax : Int) (as : List RunsAttempt) : Prop :=
  ∀ a ∈ as, ∃ cursor page, l.Fetches winMin winMax cursor page a

/-- Where the pages fetched so far belong: to a window that is over, or to the one in the cursor, which
counts them. -/
structure Counted (l : RunsLoop) (h : List RunsAttempt) (p : Position) : Prop where
  window : ∀ a ∈ h, ∀ m M cursor page, l.Fetches m M cursor page a → M ≤ p.time ∨
    ∃ w, draining (decodeRunsCursor p.cursor) = some w ∧ w.winMin = m ∧ w.winMax = M
  count : ∀ m M as, as.Sublist h → l.FetchesOf m M as → (as.length : Int) ≤ l.maxPagesPerWindow
  current : ∀ w, draining (decodeRunsCursor p.cursor) = some w →
    ∀ as, as.Sublist h → l.FetchesOf w.winMin w.winMax as → (as.length : Int) ≤ w.page

private theorem sublist_snoc {as : List RunsAttempt} {a : RunsAttempt}
    (hsub : as.Sublist (h ++ [a])) : as.Sublist h ∨ ∃ as', as = as' ++ [a] ∧ as'.Sublist h := by
  obtain ⟨as₁, as₂, rfl, hsub₁, hsub₂⟩ := List.sublist_append_iff.mp hsub
  rcases List.sublist_singleton.mp hsub₂ with rfl | rfl
  · exact Or.inl (by rw [List.append_nil]; exact hsub₁)
  · exact Or.inr ⟨as₁, rfl, hsub₁⟩

private theorem Counted.skip {p : Position} (hk : l.Counted h p) {a : RunsAttempt}
    (hnone : ∀ m M cursor page, ¬l.Fetches m M cursor page a) : l.Counted (h ++ [a]) p := by
  have hold : ∀ {m M as}, as.Sublist (h ++ [a]) → l.FetchesOf m M as → as.Sublist h := by
    intro m M as hsub hof
    rcases sublist_snoc hsub with hsub | ⟨as', rfl, -⟩
    · exact hsub
    · obtain ⟨cursor, page, hf⟩ := hof a (by simp)
      exact absurd hf (hnone m M cursor page)
  refine ⟨fun b hb m M cursor page hf => ?_, fun m M as hsub hof => hk.count m M as (hold hsub hof) hof,
    fun w hw as hsub hof => hk.current w hw as (hold hsub hof) hof⟩
  rcases List.mem_append.mp hb with hb | hb
  · exact hk.window b hb m M cursor page hf
  · rw [List.mem_singleton.mp hb] at hf
    exact absurd hf (hnone m M cursor page)

private theorem Fetches.window_eq {m M m' M' : Int} {cursor cursor' : String} {page page' : RunsPage}
    {a : RunsAttempt} (hf : l.Fetches m M cursor page a) (hf' : l.Fetches m' M' cursor' page' a) :
    m' = m ∧ M' = M := by
  have heq := hf'.query.symm.trans hf.query
  simp only [List.cons.injEq, Prod.mk.injEq, and_true] at heq
  exact ⟨heq.1, heq.2.1⟩

/-- **The count goes on with the page.** -/
private theorem Counted.extend {p q : Position} {e : RunsEvent} {win : Window} {page : RunsPage}
    (hk : l.Counted h p) (hx : l.Extends h p e q win page) :
    l.Counted (h ++ [⟨p, e, q, true⟩]) q := by
  have hlt := hx.window.lt
  have hstart := hx.window.start
  have hpage := hx.window.page_lt
  -- the pages fetched before are of windows that are over, or of this one
  have hwindow : ∀ a ∈ h, ∀ m M cursor pg, l.Fetches m M cursor pg a →
      M ≤ p.time ∨ m = win.winMin ∧ M = win.winMax := by
    intro a ha m M cursor pg hf
    rcases hk.window a ha m M cursor pg hf with hpast | ⟨w, hw, rfl, rfl⟩
    · exact Or.inl hpast
    · rcases hx.cursor with hwin | ⟨hidle, -⟩
      · obtain rfl := Option.some.inj (hwin.symm.trans hw)
        exact Or.inr ⟨rfl, rfl⟩
      · cases hidle.symm.trans hw
  have hcount : ∀ as, as.Sublist h → l.FetchesOf win.winMin win.winMax as →
      (as.length : Int) ≤ win.page := by
    intro as hsub hof
    rcases hx.cursor with hwin | ⟨hidle, hzero⟩
    · exact hk.current win hwin as hsub hof
    · -- a new window has no pages yet
      cases as with
      | nil => simp [hzero]
      | cons a as =>
        obtain ⟨cursor, pg, hf⟩ := hof a List.mem_cons_self
        rcases hk.window a (hsub.subset List.mem_cons_self) _ _ cursor pg hf with hpast | ⟨w, hw, -⟩
        · omega
        · cases hidle.symm.trans hw
  have htime : p.time ≤ q.time := by
    rcases hx.next with ⟨-, -, htime, -⟩ | ⟨-, rfl⟩
    · omega
    · show p.time ≤ win.winMax
      omega
  have hnew : ∀ {m M cursor pg}, l.Fetches m M cursor pg ⟨p, e, q, true⟩ →
      m = win.winMin ∧ M = win.winMax := fun hf => hx.fetches.window_eq hf
  have hextended : ∀ as, as.Sublist (h ++ [⟨p, e, q, true⟩]) →
      l.FetchesOf win.winMin win.winMax as → (as.length : Int) ≤ win.page + 1 := by
    intro as hsub hof
    rcases sublist_snoc hsub with hold | ⟨as', rfl, hold⟩
    · have := hcount as hold hof
      omega
    · have := hcount as' hold fun a ha => hof a (List.mem_append_left _ ha)
      rw [List.length_append, List.length_singleton]
      push_cast
      omega
  refine ⟨?_, ?_, ?_⟩
  · intro a ha m M cursor pg hf
    have hcase : M ≤ p.time ∨ m = win.winMin ∧ M = win.winMax := by
      rcases List.mem_append.mp ha with ha | ha
      · exact hwindow a ha m M cursor pg hf
      · rw [List.mem_singleton.mp ha] at hf
        exact Or.inr (hnew hf)
    rcases hcase with hpast | ⟨rfl, rfl⟩
    · exact Or.inl (by omega)
    · rcases hx.next with ⟨-, -, -, hdraining⟩ | ⟨-, rfl⟩
      · exact Or.inr ⟨_, hdraining, rfl, rfl⟩
      · exact Or.inl (le_refl _)
  · intro m M as hsub hof
    rcases sublist_snoc hsub with hold | ⟨as', rfl, -⟩
    · exact hk.count m M as hold hof
    · obtain ⟨cursor, pg, hf⟩ := hof _ (List.mem_append_right _ (List.mem_singleton.mpr rfl))
      obtain ⟨rfl, rfl⟩ := hnew hf
      have := hextended _ hsub hof
      omega
  · intro w hw as hsub hof
    rcases hx.next with ⟨-, -, -, hdraining⟩ | ⟨-, rfl⟩
    · obtain rfl := Option.some.inj (hdraining.symm.trans hw)
      exact hextended as hsub hof
    · cases hw

private theorem counted_of_seenRun (hl : l.Accepted) {t₀ : Int}
    {s : Lib.Checkpointed Position RunsEvent}
    (hrun : Lib.Checkpointed.SeenRun (l.Proposes l.EnvOk) Position.admits (.start ⟨t₀, ""⟩) s) :
    l.Counted s.history s.memory := by
  refine (Lib.Checkpointed.SeenRun.holds (P := fun h p => l.CursorOk h p ∧ l.Counted h p)
    ⟨fun w hw => (by cases hw), ⟨by simp, ?_, fun w hw => (by cases hw)⟩⟩ ?_ ?_ hrun).2.2
  · intro m M as hsub _
    rw [List.sublist_nil.mp hsub]
    exact hl.maxPagesPerWindow.le
  · rintro h p e q ⟨hc, hk⟩
    exact ⟨hc.mono _, hk.skip fun _ _ _ _ hf => by cases hf.landed⟩
  · rintro h p e q ⟨hc, hk⟩ hp
    rcases proposes_cases hl hc hp with ⟨hquery, rfl⟩ | ⟨win, page, hx⟩
    · refine ⟨hc.mono _, hk.skip fun _ _ _ _ hf => ?_⟩
      cases hquery.symm.trans hf.query
    · exact ⟨hx.cursorOk, hk.extend hx⟩

/-! ### Runs -/

/-- **The runs loop drains every window.**  From any time and an empty cursor, through any answers,
failed or unseen writes and takeovers of the stored position: the time stands still or moves to the
end of a window that was fetched to its last page, or to the cap with the event that says so; it never
goes back; and if every write is seen, no more pages of a window are written than the cap. -/
theorem runs_drain_every_window {parseDuration : String → Option Int} {sourceInstance : String}
    {lp : LoopConfig} (haccepted : newRunsLoop parseDuration sourceInstance lp = .ok l)
    (t₀ : Int) {s s' : Lib.Checkpointed Position RunsEvent}
    (hrun : Lib.Checkpointed.Run (l.Proposes l.EnvOk) Position.admits (.start ⟨t₀, ""⟩) s)
    (hstep : Lib.Checkpointed.Step (l.Proposes l.EnvOk) Position.admits s s') :
    (s'.memory = s.memory ∨ l.Moved s'.history s.memory s'.memory) ∧
    (s'.stored = s.stored ∨ l.Moved s'.history s.memory s'.stored) ∧
    s.memory.time ≤ s'.memory.time ∧ s.stored.time ≤ s'.stored.time ∧
    (Lib.Checkpointed.SeenRun (l.Proposes l.EnvOk) Position.admits (.start ⟨t₀, ""⟩) s' →
      ∀ m M as, as.Sublist s'.history → l.FetchesOf m M as →
        (as.length : Int) ≤ l.maxPagesPerWindow) := by
  have hl := accepted_newRunsLoop haccepted
  have init : l.CursorOk [] ⟨t₀, ""⟩ := fun w hw => (by cases hw)
  have hmemory := Lib.Checkpointed.Run.moves (P := l.CursorOk) (M := l.Moved) init
    (fun hc => hc.mono _) (fun hc hp => (kept_proposes hl hc hp).1) (fun hm => hm.mono _)
    (fun hc hp => (kept_proposes hl hc hp).2) hrun hstep
  have hstored := Lib.Checkpointed.Run.stored_moves (P := l.CursorOk) (M := l.Moved) init
    (fun hc => hc.mono _) (fun hc hp => (kept_proposes hl hc hp).1)
    (fun hc hp => (kept_proposes hl hc hp).2) hrun hstep
  refine ⟨hmemory, hstored, ?_, stored_time_le_of_step hstep,
    fun hseen => (counted_of_seenRun hl hseen).count⟩
  rcases hmemory with heq | heq | ⟨m, htm, hmw, -⟩
  · rw [heq]
  · omega
  · omega

/-! ### Two loops -/

/-- A configuration with some settings. -/
def runsConfig (settings : Lib.SortedMap String String) : LoopConfig :=
  { enabled := true, cadence := minute, window := 0, bucketSettle := 0, bootstrapLookback := 0
    maxBackfill := 0, graphs := [], metricPrefix := "", settings }

/-- The default settings, for one project. -/
def defaultRuns : LoopConfig := runsConfig ⟨[("session_ids", "p")], by decide⟩

/-- The loop they build. -/
def defaultRunsLoop : RunsLoop :=
  { sourceInstance := "langsmith"
    sessionIDs := ["p"]
    sessionFilter := ""
    maxSessions := 1000
    selectFields := (runsFieldPolicy defaultRunsSettings).selectKeys
    window := hour
    settle := 10 * minute
    maxBackfill := 24 * hour
    pageSize := 100
    maxPagesPerWindow := 100
    sessionRefresh := 5 * minute
    rootOnly := false
    runType := ""
    policy := runsFieldPolicy defaultRunsSettings }

theorem defaultRunsLoop_accepted :
    newRunsLoop (fun _ => none) "langsmith" defaultRuns = .ok defaultRunsLoop := by
  decide +kernel

/-- An API that answers with an empty page and a token. -/
def tokenEnv (now : Int) (token : String) : RunsEnv :=
  { now
    listSessions := fun _ _ => .error ""
    query := fun _ => .ok ⟨[], token, 200, ""⟩ }

/-! #### A window of two pages -/

/-- Noon of 2026-06-01. -/
def runsNoon : Int := 63915912000000000000

/-- The pages of a window of three runs. -/
def firstPage : RunsPage := ⟨[.empty, .empty], "t", 200, ""⟩

def lastPage : RunsPage := ⟨[.empty], "", 200, ""⟩

/-- An API that has them for every window. -/
def twoPages (now : Int) : RunsEnv :=
  { tokenEnv now "" with
    query := fun request => if request.cursor = "" then .ok firstPage else .ok lastPage }

theorem envOk_twoPages {now : Int} (hnow : runsNoon ≤ now ∧ now ≤ runsNoon + 24 * hour) :
    defaultRunsLoop.EnvOk (twoPages now) := by
  have hlast : Lib.Rfc3339.year (runsNoon + 24 * hour) ≤ 9999 := by decide +kernel
  exact ⟨(Lib.Rfc3339.year_mono hnow.2).trans hlast,
    (by decide : defaultRunsLoop.maxBackfill ≤ runsNoon).trans hnow.1⟩

/-- The cursor after the first page of the window that starts at noon. -/
def tokenCursor : RunsCursor :=
  { winMin := formatCursorTime runsNoon, winMax := formatCursorTime (runsNoon + hour)
    next := "t", page := 1 }

/-- The records of the runs of a page. -/
def pageLogs (page : RunsPage) : List LogRecord :=
  page.runs.map fun raw => defaultRunsLoop.policy.strip raw (runsNoon + hour)

private theorem proposes_of_ok {ok : RunsEnv → Prop} {env : RunsEnv} {cache : SessionCache}
    {since w : Watermark} {logs : List LogRecord} (henv : ok env)
    (h : (l.collect env cache since).result = .ok (logs, w)) :
    l.Proposes ok since.position ⟨(l.collect env cache since).calls, logs⟩ w.position := by
  refine ⟨env, cache, (l.collect env cache since).cache, since, w, henv, rfl, rfl, ?_⟩
  rw [← h]

/-- A call of `Collect` that returns the records of a page. -/
def tokenEvent (env : RunsEnv) (since : Watermark) (page : RunsPage) : RunsEvent :=
  ⟨(defaultRunsLoop.collect env {} since).calls, pageLogs page⟩

/-- The positions the window goes through, with the calls that lead to them. -/
def tokenTrail : List (RunsEvent × Position) :=
  [(tokenEvent (twoPages (runsNoon + 3 * hour)) { time := runsNoon } firstPage,
      ⟨runsNoon, tokenCursor.encode⟩),
    (tokenEvent (twoPages (runsNoon + 3 * hour + minute))
      { time := runsNoon, cursor := tokenCursor.encode } lastPage, ⟨runsNoon + hour, ""⟩)]

/-- **The window is drained by a call at three and one a minute later.** -/
theorem trail_tokens :
    Lib.Checkpointed.Trail (defaultRunsLoop.Proposes defaultRunsLoop.EnvOk) Position.admits
      ⟨runsNoon, ""⟩ tokenTrail := by
  have hfirst : (defaultRunsLoop.collect (twoPages (runsNoon + 3 * hour)) {}
      { time := runsNoon }).result =
        .ok (pageLogs firstPage, { time := runsNoon, cursor := tokenCursor.encode }) := by
    decide +kernel
  have hlast : (defaultRunsLoop.collect (twoPages (runsNoon + 3 * hour + minute)) {}
      { time := runsNoon, cursor := tokenCursor.encode }).result =
        .ok (pageLogs lastPage, { time := runsNoon + hour }) := by
    decide +kernel
  exact ⟨proposes_of_ok (envOk_twoPages (by decide)) hfirst, Or.inr ⟨rfl, by decide +kernel⟩,
    proposes_of_ok (envOk_twoPages (by decide)) hlast, Or.inl (by decide), trivial⟩

/-- A window of three runs in two pages, which are written one after the other: with the second the
time moves to the end of the window. -/
theorem runs_drain_every_window_twoPages :
    ∃ s s' : Lib.Checkpointed Position RunsEvent,
      Lib.Checkpointed.Run (defaultRunsLoop.Proposes defaultRunsLoop.EnvOk) Position.admits
        (.start ⟨runsNoon, ""⟩) s ∧
      Lib.Checkpointed.Step (defaultRunsLoop.Proposes defaultRunsLoop.EnvOk) Position.admits s s' ∧
      s'.history.map (fun a => (a.event.logs.length, a.landed)) = [(2, true), (1, true)] ∧
      s.memory = ⟨runsNoon, tokenCursor.encode⟩ ∧ s'.memory = ⟨runsNoon + hour, ""⟩ ∧
      (∃ m, runsNoon ≤ m ∧ m < runsNoon + hour ∧
        defaultRunsLoop.Drained s'.history m (runsNoon + hour)) ∧
      ∀ m M as, as.Sublist s'.history → defaultRunsLoop.FetchesOf m M as → (as.length : Int) ≤ 100 := by
  obtain ⟨h₁, a₁, h₂, a₂, -⟩ := trail_tokens
  have hstart := @Lib.Checkpointed.Step.committed Position RunsEvent _ _
    ⟨⟨runsNoon, ""⟩, ⟨runsNoon, ""⟩, []⟩ _ _ h₁ a₁
  have hstep := @Lib.Checkpointed.Step.committed Position RunsEvent _ _
    ⟨⟨runsNoon, tokenCursor.encode⟩, ⟨runsNoon, tokenCursor.encode⟩,
      Lib.Checkpointed.written ⟨runsNoon, ""⟩ (tokenTrail.take 1)⟩ _ _ h₂ a₂
  obtain ⟨hmemory, -, -, -, hcount⟩ :=
    runs_drain_every_window defaultRunsLoop_accepted runsNoon (.single hstart) hstep
  have hseen : Lib.Checkpointed.SeenStep (defaultRunsLoop.Proposes defaultRunsLoop.EnvOk)
      Position.admits (.start ⟨runsNoon, ""⟩) _ := ⟨hstart, Or.inr rfl⟩
  refine ⟨_, _, .single hstart, hstep, rfl, rfl, rfl, ?_,
    hcount (.tail (.single hseen) ⟨hstep, Or.inr rfl⟩)⟩
  rcases hmemory with heq | htime | hdrained
  · cases congrArg Position.time heq
  · cases htime
  · exact hdrained

/-- Windows of more than two years, of at most two pages. -/
def longRuns : LoopConfig :=
  runsConfig ⟨[("max_backfill", "30000h"), ("max_pages_per_window", "2"), ("session_ids", "p"),
    ("window", "20000h")], by decide⟩

/-- The durations they name. -/
def longDurations (s : String) : Option Int :=
  if s = "20000h" then some (20000 * hour) else if s = "30000h" then some (30000 * hour) else none

/-- The loop they build. -/
def longLoop : RunsLoop :=
  { defaultRunsLoop with
    window := 20000 * hour, maxBackfill := 30000 * hour, maxPagesPerWindow := 2 }

/-- The cursor after its first page, at one o'clock of the first day of year 1. -/
def longCursor (token : String) : RunsCursor :=
  { winMin := formatCursorTime (-(19999 * hour)), winMax := formatCursorTime (50 * minute)
    next := token, page := 1 }

private theorem draining_longCursor (token : String) :
    draining (decodeRunsCursor (longCursor token).encode) = none := by
  have hmin : parseCursorTime (formatCursorTime (-(19999 * hour))) = none := by decide +kernel
  have hpage : InInt64 (longCursor token).page := show InInt64 1 from ⟨by decide, by decide⟩
  rw [decodeRunsCursor_encode hpage]
  unfold draining RunsCursor.windowBounds longCursor
  rw [hmin]
  split_ifs <;> rfl

private theorem collect_longLoop {cursor token : String}
    (hidle : draining (decodeRunsCursor cursor) = none) (htoken : token ≠ "") :
    longLoop.collect (tokenEnv hour token) {} { cursor } =
      ⟨[.query (-(19999 * hour)) (50 * minute) "" (.ok ⟨[], token, 200, ""⟩)], {},
        .ok ([], { cursor := (longCursor token).encode })⟩ := by
  have hbegin : longLoop.beginWindow 0 hour = ([], some (-(19999 * hour), 50 * minute)) := rfl
  have hpage : ∀ since, longLoop.pageWatermark since ⟨-(19999 * hour), 50 * minute, "", 0⟩ token =
      ([], { time := since.time, cursor := (longCursor token).encode }) := by
    intro since
    unfold pageWatermark
    exact if_pos ⟨htoken, by decide⟩
  unfold collect
  rw [hidle]
  dsimp only [tokenEnv]
  rw [hbegin]
  simp only [fetchPage, resolveSessions, hpage]
  rfl

/-- **A window that is never done**: in the first hour of year 1 the start of the window has no text
that can be read back, so that its first page is fetched and written again and again. -/
theorem runs_window_refetched :
    newRunsLoop longDurations "langsmith" longRuns = .ok longLoop ∧
    ∃ s', Lib.Checkpointed.SeenRun
        (longLoop.Proposes fun env => 0 ≤ env.now ∧ Lib.Rfc3339.year env.now ≤ 9999)
        Position.admits (.start ⟨0, ""⟩) s' ∧
      ∃ m M as, as.Sublist s'.history ∧ longLoop.FetchesOf m M as ∧
        longLoop.maxPagesPerWindow < as.length := by
  have hclock : ∀ token, 0 ≤ (tokenEnv hour token).now ∧
      Lib.Rfc3339.year (tokenEnv hour token).now ≤ 9999 := fun _ =>
    (by decide +kernel : 0 ≤ hour ∧ Lib.Rfc3339.year hour ≤ 9999)
  have hstep : ∀ (token : String) {cursor : String} {hist : List RunsAttempt},
      draining (decodeRunsCursor cursor) = none → token ≠ "" → (longCursor token).encode ≠ cursor →
      Lib.Checkpointed.SeenStep
        (longLoop.Proposes fun env => 0 ≤ env.now ∧ Lib.Rfc3339.year env.now ≤ 9999)
        Position.admits ⟨⟨0, cursor⟩, ⟨0, cursor⟩, hist⟩
        ⟨⟨0, (longCursor token).encode⟩, ⟨0, (longCursor token).encode⟩, hist ++
          [⟨⟨0, cursor⟩, ⟨[.query (-(19999 * hour)) (50 * minute) ""
            (.ok ⟨[], token, 200, ""⟩)], []⟩, ⟨0, (longCursor token).encode⟩, true⟩]⟩ := by
    intro token cursor hist hidle htoken hne
    exact ⟨.committed ⟨tokenEnv hour token, {}, {}, { cursor }, { cursor := (longCursor token).encode },
      hclock token, rfl, rfl, collect_longLoop hidle htoken⟩ (Or.inr ⟨rfl, hne⟩), Or.inr rfl⟩
  refine ⟨by decide +kernel, _, ((Relation.ReflTransGen.refl.tail
    (hstep "a" rfl (by decide) (by decide +kernel))).tail
    (hstep "b" (draining_longCursor _) (by decide) (by decide +kernel))).tail
    (hstep "a" (draining_longCursor _) (by decide) (by decide +kernel)),
    -(19999 * hour), 50 * minute, _, List.Sublist.refl _, ?_, by decide⟩
  intro a ha
  simp only [List.nil_append, List.cons_append, List.mem_cons,
    List.not_mem_nil, or_false] at ha
  rcases ha with rfl | rfl | rfl <;> exact ⟨"", _, rfl, rfl, rfl, rfl⟩

end RunsLoop

end GenaiBridge
