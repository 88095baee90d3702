/-
The sessions the pages of a window are asked for.

While a window is drained, a process uses the sessions it has kept, however old they are,
and an election does not drop them.  So the elections decide (`RestartsBetween`,
`OneLeads`): if a process that has ticked is restarted before it is elected again, its
sessions are those of its leadership, and if one process leads at a time, they were
discovered after every window of another process began (`Tracked`).
-/
import GenaiBridge.Bridge.RunsFleet
import GenaiBridge.Proofs.RunsRun

namespace GenaiBridge

namespace RunsLoop

variable {l : RunsLoop} {env : RunsEnv} {cache : SessionCache} {since : Watermark}

/-! ### What `Collect` asks for -/

theorem resolveSessions_of_reuses (hids : l.sessionIDs = []) {draining : Bool}
    (h : l.Reuses env cache draining) :
    l.resolveSessions env cache draining = (.ok cache.cachedSessions, [], cache) := by
  unfold resolveSessions
  rw [if_neg (by rw [hids]; simp)]
  exact if_pos h

theorem resolveSessions_of_not_reuses (hids : l.sessionIDs = []) {draining : Bool}
    (h : ¬l.Reuses env cache draining) :
    l.resolveSessions env cache draining =
      match l.listSessionIDs env 0 [] with
      | (.error err, calls) => (.error err, calls, cache)
      | (.ok ids, calls) =>
        if ids = [] then (.error .noSessions, calls, cache)
        else (.ok ids, calls, ⟨ids, env.now⟩) := by
  unfold resolveSessions
  rw [if_neg (by rw [hids]; simp)]
  exact if_neg h

/-- A discovery fails and changes nothing, or its sessions are returned and kept. -/
theorem resolveSessions_cases (hids : l.sessionIDs = []) {draining : Bool}
    (h : ¬l.Reuses env cache draining) :
    (∃ err, (l.resolveSessions env cache draining).1 = .error err ∧
      (l.resolveSessions env cache draining).2.2 = cache) ∨
    ∃ ids, (l.resolveSessions env cache draining).1 = .ok ids ∧
      (l.resolveSessions env cache draining).2.2 = ⟨ids, env.now⟩ := by
  rw [resolveSessions_of_not_reuses hids h]
  rcases l.listSessionIDs env 0 [] with ⟨result, calls⟩
  cases result with
  | error err => exact Or.inl ⟨err, rfl, rfl⟩
  | ok ids =>
    dsimp only
    by_cases hnone : ids = []
    · rw [if_pos hnone]
      exact Or.inl ⟨_, rfl, rfl⟩
    · rw [if_neg hnone]
      exact Or.inr ⟨ids, rfl, rfl⟩

/-- A page is asked for with the sessions that were resolved, unless there are none. -/
theorem fetchPage_of_resolve (win : Window) (draining : Bool) :
    (l.fetchPage env cache since win draining).cache =
      (l.resolveSessions env cache draining).2.2 ∧
    (∀ err, (l.resolveSessions env cache draining).1 = .error err →
      (l.fetchPage env cache since win draining).result = .error err) := by
  unfold fetchPage
  rcases l.resolveSessions env cache draining with ⟨result, calls, cache'⟩
  cases result with
  | error err => exact ⟨rfl, fun err' herr => by cases herr; rfl⟩
  | ok sessions =>
    refine ⟨?_, fun err herr => by cases herr⟩
    dsimp only
    split
    · rfl
    · split_ifs
      all_goals rfl

/-- The window a call asks for a page of. -/
def askedWindow (l : RunsLoop) (env : RunsEnv) (since : Watermark) : Option Window :=
  match draining (decodeRunsCursor since.cursor) with
  | some win => some win
  | none => (l.beginWindow since.time env.now).2.map fun b => ⟨b.1, b.2, "", 0⟩

/-- **`Collect` by the window it asks for**: without one it does nothing, and else it fetches a page
of it. -/
theorem collect_eq_fetchPage :
    (l.askedWindow env since = none ∧ isDraining since = false ∧ l.asks env cache since = none ∧
      (l.collect env cache since).cache = cache ∧
      (l.collect env cache since).result = .ok ([], since)) ∨
    ∃ win, l.askedWindow env since = some win ∧
      l.asks env cache since =
        (l.resolveSessions env cache (isDraining since)).1.toOption ∧
      (l.collect env cache since).cache =
        (l.fetchPage env cache since win (isDraining since)).cache ∧
      (l.collect env cache since).result =
        (l.fetchPage env cache since win (isDraining since)).result := by
  unfold askedWindow isDraining asks collect
  cases hdraining : draining (decodeRunsCursor since.cursor) with
  | some win => exact Or.inr ⟨win, rfl, rfl, rfl, rfl⟩
  | none =>
    rcases hbegin : l.beginWindow since.time env.now with ⟨hooks, window⟩
    cases window with
    | none => exact Or.inl ⟨rfl, rfl, rfl, rfl, rfl⟩
    | some b =>
      obtain ⟨winMin, winMax⟩ := b
      exact Or.inr ⟨⟨winMin, winMax, "", 0⟩, rfl, rfl, rfl, rfl⟩

private theorem query?_fetchPage (win : Window) (draining : Bool) :
    (l.fetchPage env cache since win draining).calls.filterMap RunsCall.query? =
      ((l.resolveSessions env cache draining).1.toOption.map fun sessions =>
        (win.winMin, win.winMax, win.resume,
          env.query (l.runsRequest sessions win.winMin win.winMax win.resume))).toList := by
  have hresolve := query?_resolveSessions l env cache draining
  unfold fetchPage
  rcases hresolved : l.resolveSessions env cache draining with ⟨result, calls, cache'⟩
  rw [hresolved] at hresolve
  cases result with
  | error err => exact hresolve
  | ok sessions =>
    show _ = [(win.winMin, win.winMax, win.resume,
      env.query (l.runsRequest sessions win.winMin win.winMax win.resume))]
    dsimp only at hresolve ⊢
    cases env.query (l.runsRequest sessions win.winMin win.winMax win.resume) with
    | error err =>
      dsimp only
      rw [List.filterMap_append, hresolve]
      rfl
    | ok page =>
      have hhooks := query?_pageWatermark l since win page.next
      dsimp only
      split_ifs
      · dsimp only
        rw [List.filterMap_append, List.filterMap_append, hresolve, hhooks]
        rfl
      all_goals
        simp only [List.filterMap_append, hresolve]
        rfl

/-- **The query of a call**: for a page of the window it asks for, with the sessions it asks for. -/
theorem query?_collect :
    (l.collect env cache since).calls.filterMap RunsCall.query? =
      ((l.askedWindow env since).bind fun win =>
        (l.asks env cache since).map fun sessions => (win.winMin, win.winMax, win.resume,
          env.query (l.runsRequest sessions win.winMin win.winMax win.resume))).toList := by
  unfold askedWindow asks collect
  cases hdraining : draining (decodeRunsCursor since.cursor) with
  | some win => exact query?_fetchPage win true
  | none =>
    have hhooks := query?_beginWindow l since.time env.now
    rcases hbegin : l.beginWindow since.time env.now with ⟨hooks, window⟩
    rw [hbegin] at hhooks
    cases window with
    | none => exact hhooks
    | some b =>
      obtain ⟨winMin, winMax⟩ := b
      dsimp only at hhooks ⊢
      rw [List.filterMap_append, hhooks, query?_fetchPage]
      rfl

/-- **A call that makes no query** keeps the sessions, and its watermark if it succeeds. -/
theorem collect_of_asks_none (hids : l.sessionIDs = []) (h : l.asks env cache since = none) :
    (l.collect env cache since).cache = cache ∧
    ∀ logs w, (l.collect env cache since).result = .ok (logs, w) →
      isDraining w = false := by
  rcases @collect_eq_fetchPage l env cache since with
    ⟨-, hidle, -, hcache, hresult⟩ | ⟨win, -, hasks, hcache, hresult⟩
  · refine ⟨hcache, fun logs w hok => ?_⟩
    rw [hresult] at hok
    cases hok
    exact hidle
  · obtain ⟨hfetch, herror⟩ :=
      @fetchPage_of_resolve l env cache since win (isDraining since)
    rw [hasks] at h
    rw [hcache, hfetch, hresult]
    by_cases hreuses : l.Reuses env cache (isDraining since)
    · rw [resolveSessions_of_reuses hids hreuses] at h
      cases h
    · rcases resolveSessions_cases hids hreuses with ⟨err, herr, hkept⟩ | ⟨ids, hok, -⟩
      · refine ⟨hkept, fun logs w hok => ?_⟩
        rw [herror err herr] at hok
        cases hok
      · rw [hok] at h
        cases h

/-- **A call that makes a query** makes it with the sessions kept from before, or with those it has
discovered and keeps. -/
theorem collect_of_asks_some (hids : l.sessionIDs = []) {sessions : List String}
    (h : l.asks env cache since = some sessions) :
    (l.Reuses env cache (isDraining since) → sessions = cache.cachedSessions ∧
      (l.collect env cache since).cache = cache) ∧
    (¬l.Reuses env cache (isDraining since) →
      (l.collect env cache since).cache = ⟨sessions, env.now⟩) := by
  rcases @collect_eq_fetchPage l env cache since with
    ⟨-, -, hnone, -, -⟩ | ⟨win, -, hasks, hcache, -⟩
  · cases hnone.symm.trans h
  · have hfetch := (@fetchPage_of_resolve l env cache since win (isDraining since)).1
    rw [hasks] at h
    rw [hcache, hfetch]
    constructor
    · intro hreuses
      rw [resolveSessions_of_reuses hids hreuses] at h ⊢
      exact ⟨(Option.some.inj h).symm, rfl⟩
    · intro hnot
      rcases resolveSessions_cases hids hnot with ⟨err, herr, -⟩ | ⟨ids, hok, hkept⟩
      · rw [herr] at h
        cases h
      · rw [hok] at h
        rw [hkept, Option.some.inj h]

end RunsLoop

/-! ### Elections -/

namespace RunsFleetEvent

def restarts (n : Nat) : RunsFleetEvent → Bool
  | restarted m => m == n
  | _ => false

/-- The event ends the leadership of a process. -/
def endsTerm (n : Nat) : RunsFleetEvent → Bool
  | deposed m => m == n
  | restarted m => m == n
  | _ => false

def elects (n : Nat) : RunsFleetEvent → Bool
  | elected m => m == n
  | _ => false

def electsOther (n : Nat) : RunsFleetEvent → Bool
  | elected m => m != n
  | _ => false

/-- None of the events is bad, or one before it stops that. -/
def NoneBefore (stop bad : RunsFleetEvent → Bool) : List RunsFleetEvent → Bool
  | [] => true
  | e :: rest => stop e || (!bad e && NoneBefore stop bad rest)

/-- **A process that has ticked is restarted before it is elected again.** -/
def RestartsBetween : List RunsFleetEvent → Bool
  | [] => true
  | collect n _ :: rest => NoneBefore (restarts n) (elects n) rest && RestartsBetween rest
  | _ :: rest => RestartsBetween rest

/-- **While a process leads, no other one is elected.** -/
def OneLeads : List RunsFleetEvent → Bool
  | [] => true
  | elected n :: rest => NoneBefore (endsTerm n) (electsOther n) rest && OneLeads rest
  | _ :: rest => OneLeads rest

variable {stop bad : RunsFleetEvent → Bool} {events before since : List RunsFleetEvent}
  {e : RunsFleetEvent} {n : Nat}

theorem NoneBefore.init : NoneBefore stop bad (events ++ [e]) = true →
    NoneBefore stop bad events = true := by
  induction events with
  | nil => exact fun _ => rfl
  | cons x events ih =>
    intro h
    simp only [List.cons_append, NoneBefore, Bool.or_eq_true, Bool.and_eq_true] at h ⊢
    exact h.imp_right fun hx => ⟨hx.1, ih hx.2⟩

theorem NoneBefore.stopped (hbad : bad e = true) : NoneBefore stop bad (events ++ [e]) = true →
    (∀ x ∈ events, stop x = false) → stop e = true := by
  induction events with
  | nil =>
    intro h _
    simpa [NoneBefore, hbad] using h
  | cons x events ih =>
    intro h hstop
    simp only [List.cons_append, NoneBefore, hstop x List.mem_cons_self, Bool.false_or,
      Bool.and_eq_true] at h
    exact ih h.2 fun y hy => hstop y (List.mem_cons_of_mem x hy)

theorem RestartsBetween.init : RestartsBetween (events ++ [e]) = true →
    RestartsBetween events = true := by
  induction events with
  | nil => exact fun _ => rfl
  | cons x events ih =>
    cases x with
    | collect n env =>
      intro h
      simp only [List.cons_append, RestartsBetween, Bool.and_eq_true] at h ⊢
      exact ⟨NoneBefore.init h.1, ih h.2⟩
    | _ => exact ih

theorem OneLeads.init : OneLeads (events ++ [e]) = true → OneLeads events = true := by
  induction events with
  | nil => exact fun _ => rfl
  | cons x events ih =>
    cases x with
    | elected n =>
      intro h
      simp only [List.cons_append, OneLeads, Bool.and_eq_true] at h ⊢
      exact ⟨NoneBefore.init h.1, ih h.2⟩
    | _ => exact ih

/-- The process has ticked since it was started. -/
def HasTicked (n : Nat) (events : List RunsFleetEvent) : Prop :=
  ∃ before env since, events = before ++ collect n env :: since ∧ ∀ e ∈ since, restarts n e = false

/-- The process was elected, and its leadership has not ended. -/
def Leads (n : Nat) (events : List RunsFleetEvent) : Prop :=
  ∃ before since, events = before ++ elected n :: since ∧ ∀ e ∈ since, endsTerm n e = false

theorem HasTicked.append (h : HasTicked n events) (he : restarts n e = false) :
    HasTicked n (events ++ [e]) := by
  obtain ⟨before, env, since, rfl, hsince⟩ := h
  refine ⟨before, env, since ++ [e], by simp, ?_⟩
  simpa [or_imp, forall_and] using ⟨hsince, he⟩

theorem Leads.append (h : Leads n events) (he : endsTerm n e = false) :
    Leads n (events ++ [e]) := by
  obtain ⟨before, since, rfl, hsince⟩ := h
  refine ⟨before, since ++ [e], by simp, ?_⟩
  simpa [or_imp, forall_and] using ⟨hsince, he⟩

theorem RestartsBetween.not_ticked (h : RestartsBetween (events ++ [elected n]) = true) :
    ¬HasTicked n events := by
  rintro ⟨before, env, since, rfl, hsince⟩
  induction before with
  | nil =>
    simp only [List.nil_append, List.cons_append, RestartsBetween, Bool.and_eq_true] at h
    cases NoneBefore.stopped (by simp [elects]) h.1 hsince
  | cons x before ih =>
    cases x with
    | collect m env =>
      simp only [List.cons_append, RestartsBetween, Bool.and_eq_true] at h
      exact ih h.2
    | _ => exact ih h

theorem OneLeads.not_leads (h : OneLeads (events ++ [elected n]) = true) {m : Nat} (hne : m ≠ n) :
    ¬Leads m events := by
  rintro ⟨before, since, rfl, hsince⟩
  induction before with
  | nil =>
    simp only [List.nil_append, List.cons_append, OneLeads, Bool.and_eq_true] at h
    cases NoneBefore.stopped (by simpa [electsOther] using hne.symm) h.1 hsince
  | cons x before ih =>
    cases x with
    | elected k =>
      simp only [List.cons_append, OneLeads, Bool.and_eq_true] at h
      exact ih h.2
    | _ => exact ih h

end RunsFleetEvent

open RunsFleetEvent (RestartsBetween OneLeads HasTicked Leads restarts endsTerm)

/-! ### Where windows began -/

section

variable (one : Prop)

/-- What can become of a process at an event: if it leads with sessions of its leadership, they are
the same ones as before or were discovered now. -/
def RunsReplica.Becomes (event : Nat) (r r' : RunsReplica) : Prop :=
  r'.leads = true → r'.fresh = true →
    (r.leads = true ∧ r.fresh = true ∧ r'.found = r.found) ∨ r'.found = event

/-- A watermark among the processes: inside a window it is known where that began, and if one
process leads at a time, every other one that leads has discovered its sessions after that. -/
structure Placed.Traced (event : Nat) (replicas : Nat → RunsReplica) (p : Placed) : Prop where
  begun : RunsLoop.isDraining p.watermark = true → ∃ b, p.begun = some b
  past : ∀ b, p.begun = some b → b.event < event
  found : one → ∀ b, p.begun = some b → ∀ m, m ≠ b.replica → (replicas m).leads = true →
    (replicas m).fresh = true → b.event < (replicas m).found

variable {one}

theorem Placed.Traced.update {event : Nat} {replicas : Nat → RunsReplica} {p : Placed}
    (h : p.Traced one event replicas) {n : Nat} {r : RunsReplica}
    (hr : (replicas n).Becomes event r) :
    p.Traced one (event + 1) (Function.update replicas n r) := by
  refine ⟨h.begun, fun b hb => Nat.lt_succ_of_lt (h.past b hb), fun hone b hb m hm => ?_⟩
  by_cases hmn : m = n
  · subst hmn
    rw [Function.update_self]
    intro hleads hfresh
    rcases hr hleads hfresh with ⟨hled, hkept, hsame⟩ | hnow
    · rw [hsame]
      exact h.found hone b hb m hm hled hkept
    · rw [hnow]
      exact h.past b hb
  · rw [Function.update_of_ne hmn]
    exact h.found hone b hb m hm

/-- What is known of a query for a later page. -/
structure LaterPage.Explained (one : Prop) (q : LaterPage) (b : Begun) : Prop where
  begun : q.begun = some b
  fresh : q.fresh = true
  found : one → b.replica ≠ q.replica → b.event < q.found

namespace RunsReplica

variable {l : RunsLoop} {n event : Nat} {r : RunsReplica} {env : RunsEnv} {since : Placed}

theorem discovers_of_reuses
    (h : l.Reuses env r.cache (RunsLoop.isDraining since.watermark)) :
    r.discovers l env since = false := by
  unfold discovers
  rw [decide_eq_true h, Bool.not_true, Bool.and_false]

theorem discovers_of_not_reuses
    (h : ¬l.Reuses env r.cache (RunsLoop.isDraining since.watermark)) :
    r.discovers l env since = (l.asks env r.cache since.watermark).isSome := by
  unfold discovers
  rw [decide_eq_false h, Bool.not_false, Bool.and_true]

theorem cache_collect (hids : l.sessionIDs = []) (h : r.discovers l env since = false) :
    (r.collect l n event env since).cache = r.cache := by
  show (l.collect env r.cache since.watermark).cache = r.cache
  cases hasks : l.asks env r.cache since.watermark with
  | none => exact (RunsLoop.collect_of_asks_none hids hasks).1
  | some sessions =>
    by_cases hreuses : l.Reuses env r.cache (RunsLoop.isDraining since.watermark)
    · exact ((RunsLoop.collect_of_asks_some hids hasks).1 hreuses).2
    · rw [discovers_of_not_reuses hreuses, hasks] at h
      cases h

theorem becomes_collect : r.Becomes event (r.collect l n event env since) := by
  intro hleads hfresh
  cases hdiscovers : r.discovers l env since with
  | true => exact Or.inr (if_pos hdiscovers)
  | false =>
    refine Or.inl ⟨hleads, ?_, if_neg (by rw [hdiscovers]; decide)⟩
    have h : (r.fresh || r.discovers l env since) = true := hfresh
    rw [hdiscovers, Bool.or_false] at h
    exact h

/-- **What is collected is traced.**  It continues a window that was, or begins one now. -/
theorem traced_collect (hids : l.sessionIDs = []) {replicas : Nat → RunsReplica}
    (hsince : since.Traced one event replicas)
    (halone : one → ∀ m, m ≠ n → (replicas m).leads = false) {p : Placed}
    (hp : ((replicas n).collect l n event env since).queued = some p) :
    p.Traced one (event + 1)
      (Function.update replicas n ((replicas n).collect l n event env since)) := by
  have hold := hsince.update (@becomes_collect l n event (replicas n) env since)
  obtain ⟨logs, hresult, hbegun⟩ : ∃ logs,
      (l.collect env (replicas n).cache since.watermark).result = .ok (logs, p.watermark) ∧
      p.begun = (replicas n).begins l n event env since := by
    unfold RunsReplica.collect at hp
    dsimp only at hp
    cases hresult : (l.collect env (replicas n).cache since.watermark).result with
    | error err =>
      rw [hresult] at hp
      cases hp
    | ok b =>
      rw [hresult] at hp
      cases hp
      exact ⟨b.1, rfl, rfl⟩
  unfold begins at hbegun
  by_cases hdraining : RunsLoop.isDraining since.watermark = true
  · rw [if_pos hdraining] at hbegun
    refine ⟨fun _ => ?_, fun b hb => hold.past b (hbegun ▸ hb),
      fun hone b hb => hold.found hone b (hbegun ▸ hb)⟩
    rw [hbegun]
    exact hsince.begun hdraining
  · rw [if_neg hdraining] at hbegun
    cases hasks : l.asks env (replicas n).cache since.watermark with
    | none =>
      rw [hasks, Option.map_none] at hbegun
      have hidle := (RunsLoop.collect_of_asks_none hids hasks).2 logs p.watermark hresult
      refine ⟨fun hp => ?_, fun b hb => ?_, fun _ b hb => ?_⟩
      · cases hp.symm.trans hidle
      · cases hbegun.symm.trans hb
      · cases hbegun.symm.trans hb
    | some sessions =>
      rw [hasks, Option.map_some] at hbegun
      refine ⟨fun _ => ⟨_, hbegun⟩, fun b hb => ?_, fun hone b hb m hm hleads => ?_⟩
      · obtain rfl := Option.some.inj (hbegun.symm.trans hb)
        exact Nat.lt_succ_self _
      · -- no other process leads while it begins a window
        obtain rfl := Option.some.inj (hbegun.symm.trans hb)
        rw [Function.update_of_ne hm, halone hone m hm] at hleads
        cases hleads

/-- A query for a later page is made with sessions that the leadership has discovered, if those that
the process has kept are. -/
theorem explained_laterPage {replicas : Nat → RunsReplica}
    (hsince : since.Traced one event replicas) (hleads : (replicas n).leads = true)
    (hfresh : (replicas n).cache.cachedSessions ≠ [] → (replicas n).fresh = true) {q : LaterPage}
    (hq : (replicas n).laterPage l n event env since = some q) : ∃ b, q.Explained one b := by
  unfold laterPage at hq
  by_cases hdraining : RunsLoop.isDraining since.watermark = true
  · rw [if_pos hdraining] at hq
    obtain ⟨sessions, hasks, rfl⟩ := Option.map_eq_some_iff.mp hq
    obtain ⟨b, hb⟩ := hsince.begun hdraining
    refine ⟨b, hb, ?_, fun hone hne => ?_⟩
    · show ((replicas n).fresh || (replicas n).discovers l env since) = true
      by_cases hempty : (replicas n).cache.cachedSessions = []
      · rw [discovers_of_not_reuses fun h => h.1 hempty, hasks, Option.isSome_some, Bool.or_true]
      · rw [hfresh hempty, Bool.true_or]
    · show b.event < if (replicas n).discovers l env since then event else (replicas n).found
      by_cases hempty : (replicas n).cache.cachedSessions = []
      · rw [if_pos (by rw [discovers_of_not_reuses fun h => h.1 hempty, hasks]; rfl)]
        exact hsince.past b hb
      · rw [discovers_of_reuses ⟨hempty, Or.inl hdraining⟩]
        exact hsince.found hone b hb n (fun h => hne h.symm) hleads (hfresh hempty)
  · rw [if_neg hdraining] at hq
    cases hq

end RunsReplica

namespace RunsFleet

variable {l : RunsLoop} {s : RunsFleet} {events : List RunsFleetEvent}

/-- After some events: every watermark of the fleet is traced, every process that leads has
discovered its sessions in its leadership, and every query for a later page is explained. -/
structure Tracked (one : Prop) (events : List RunsFleetEvent) (s : RunsFleet) : Prop where
  stored : s.stored.Traced one s.event s.replicas
  frontier : ∀ n p, (s.replicas n).frontier = some p → p.Traced one s.event s.replicas
  queued : ∀ n p, (s.replicas n).queued = some p → p.Traced one s.event s.replicas
  ticked : ∀ n, (s.replicas n).cache.cachedSessions ≠ [] → HasTicked n events
  leads : ∀ n, (s.replicas n).leads = true → Leads n events
  alone : one → ∀ m n, m ≠ n → (s.replicas m).leads = true → (s.replicas n).leads = false
  fresh : ∀ n, (s.replicas n).leads = true → (s.replicas n).cache.cachedSessions ≠ [] →
    (s.replicas n).fresh = true
  pages : ∀ q ∈ s.laterPages, ∃ b, q.Explained one b

theorem tracked_fresh {w : Watermark} (hidle : RunsLoop.isDraining w = false) :
    (fresh w).Tracked one [] where
  stored := by
    refine ⟨fun h => ?_, fun b hb => ?_, fun _ b hb => ?_⟩
    · cases hidle.symm.trans h
    · cases hb
    · cases hb
  frontier n p hp := by cases hp
  queued n p hp := by cases hp
  ticked n hne := absurd rfl hne
  leads n hleads := by cases hleads
  alone _ m n _ hleads := by cases hleads
  fresh n hleads := by cases hleads
  pages q hq := by cases hq

/-- **One process changes at an event.** -/
theorem Tracked.set (h : s.Tracked one events) {e : RunsFleetEvent} {n : Nat} {r : RunsReplica}
    (he : ∀ m, m ≠ n → restarts m e = false ∧ endsTerm m e = false)
    (hr : (s.replicas n).Becomes s.event r)
    (hfrontier : ∀ p, r.frontier = some p →
      p.Traced one (s.event + 1) (Function.update s.replicas n r))
    (hqueued : ∀ p, r.queued = some p → p.Traced one (s.event + 1) (Function.update s.replicas n r))
    (hticked : r.cache.cachedSessions ≠ [] → HasTicked n (events ++ [e]))
    (hleads : r.leads = true → Leads n (events ++ [e]))
    (halone : one → r.leads = true → ∀ m, m ≠ n → (s.replicas m).leads = false)
    (hfresh : r.leads = true → r.cache.cachedSessions ≠ [] → r.fresh = true) :
    RunsFleet.Tracked one (events ++ [e]) { s.set n r with event := s.event + 1 } := by
  -- what holds of the process and of every other one holds of all
  have hall : ∀ {P : Nat → RunsReplica → Prop}, P n r → (∀ m, m ≠ n → P m (s.replicas m)) →
      ∀ m, P m (Function.update s.replicas n r m) := by
    intro P hn hothers m
    by_cases hm : m = n
    · subst hm
      rw [Function.update_self]
      exact hn
    · rw [Function.update_of_ne hm]
      exact hothers m hm
  refine ⟨h.stored.update hr, ?_, ?_, ?_, ?_, fun hone => ?_, ?_, h.pages⟩
  · exact hall (P := fun _ r' => ∀ p, r'.frontier = some p → p.Traced one (s.event + 1) _) hfrontier
      fun m _ p hp => (h.frontier m p hp).update hr
  · exact hall (P := fun _ r' => ∀ p, r'.queued = some p → p.Traced one (s.event + 1) _) hqueued
      fun m _ p hp => (h.queued m p hp).update hr
  · exact hall (P := fun m r' => r'.cache.cachedSessions ≠ [] → HasTicked m (events ++ [e])) hticked
      fun m hm hne => (h.ticked m hne).append (he m hm).1
  · exact hall (P := fun m r' => r'.leads = true → Leads m (events ++ [e])) hleads
      fun m hm hled => (h.leads m hled).append (he m hm).2
  · intro m k hmk hm
    show (Function.update s.replicas n r k).leads = false
    change (Function.update s.replicas n r m).leads = true at hm
    by_cases hmn : m = n
    · subst hmn
      rw [Function.update_self] at hm
      rw [Function.update_of_ne fun hk => hmk hk.symm]
      exact halone hone hm k fun hk => hmk hk.symm
    · rw [Function.update_of_ne hmn] at hm
      by_cases hkn : k = n
      · subst hkn
        rw [Function.update_self]
        by_contra hled
        cases hm.symm.trans (halone hone (by simpa using hled) m hmn)
      · rw [Function.update_of_ne hkn]
        exact h.alone hone m k hmk hm
  · exact hall (P := fun _ r' => r'.leads = true → r'.cache.cachedSessions ≠ [] → r'.fresh = true)
      hfresh fun m _ => h.fresh m

/-- **The runner of a process changes.** -/
theorem Tracked.setRunner (h : s.Tracked one events) {e : RunsFleetEvent} {n : Nat}
    {frontier queued : Option Placed} {leads : Bool}
    (he : ∀ m, restarts m e = false ∧ (endsTerm m e = true → m = n ∧ leads = false))
    (hled : leads = true → (s.replicas n).leads = true)
    (hfrontier : ∀ p, frontier = some p → p.Traced one s.event s.replicas)
    (hqueued : ∀ p, queued = some p → p.Traced one s.event s.replicas) :
    RunsFleet.Tracked one (events ++ [e])
      { s.set n { s.replicas n with frontier, queued, leads } with event := s.event + 1 } := by
  have hr : (s.replicas n).Becomes s.event { s.replicas n with frontier, queued, leads } :=
    fun hleads hfresh => Or.inl ⟨hled hleads, hfresh, rfl⟩
  have hends : ∀ m, (m = n → leads = true) → endsTerm m e = false := fun m hm => by
    by_contra hend
    obtain ⟨hn, hleads⟩ := (he m).2 (by simpa using hend)
    cases hleads.symm.trans (hm hn)
  refine h.set (fun m hm => ⟨(he m).1, hends m fun hn => absurd hn hm⟩) hr
    (fun p hp => (hfrontier p hp).update hr) (fun p hp => (hqueued p hp).update hr)
    (fun hne => (h.ticked n hne).append (he n).1)
    (fun hleads => (h.leads n (hled hleads)).append (hends n fun _ => hleads))
    (fun hone hleads m hm => h.alone hone n m (fun hn => hm hn.symm) (hled hleads))
    (fun hleads => h.fresh n (hled hleads))

theorem Tracked.since (h : s.Tracked one events) (n : Nat) :
    ((s.replicas n).since s.stored).Traced one s.event s.replicas := by
  unfold RunsReplica.since
  cases hfrontier : (s.replicas n).frontier with
  | none => exact h.stored
  | some p => exact h.frontier n p hfrontier

theorem Tracked.follow (h : s.Tracked one events) {n : Nat} {p : Placed}
    (hp : p.Traced one s.event s.replicas) :
    ((s.replicas n).follow p).Traced one s.event s.replicas := by
  unfold RunsReplica.follow
  cases hfrontier : (s.replicas n).frontier with
  | none => exact hp
  | some f =>
    dsimp only
    split_ifs
    · exact hp
    · exact h.frontier n f hfrontier

/-- **A tick.** -/
private theorem Tracked.collect (hids : l.sessionIDs = []) (h : s.Tracked one events) {n : Nat}
    {env : RunsEnv} (hleads : (s.replicas n).leads = true) :
    RunsFleet.Tracked one (events ++ [.collect n env])
      { s.set n ((s.replicas n).collect l n s.event env ((s.replicas n).since s.stored)) with
        event := s.event + 1
        laterPages := s.laterPages ++
          ((s.replicas n).laterPage l n s.event env ((s.replicas n).since s.stored)).toList } := by
  have hr := @RunsReplica.becomes_collect l n s.event (s.replicas n) env
    ((s.replicas n).since s.stored)
  have halone : one → ∀ m, m ≠ n → (s.replicas m).leads = false :=
    fun hone m hm => h.alone hone n m (fun hn => hm hn.symm) hleads
  have hset := h.set (e := .collect n env) (fun m _ => ⟨rfl, rfl⟩) hr
    (fun p hp => (h.frontier n p hp).update hr)
    (fun p hp => RunsReplica.traced_collect hids (h.since n) halone hp)
    (fun _ => ⟨events, env, [], rfl, by simp⟩)
    (fun _ => (h.leads n hleads).append rfl) (fun hone _ => halone hone)
    (fun _ hne => ?_)
  · refine ⟨hset.stored, hset.frontier, hset.queued, hset.ticked, hset.leads, hset.alone, hset.fresh,
      fun q hq => ?_⟩
    rcases List.mem_append.mp hq with hq | hq
    · exact h.pages q hq
    · exact RunsReplica.explained_laterPage (h.since n) hleads (h.fresh n hleads)
        (Option.mem_toList.mp hq)
  · -- sessions are kept, or discovered now
    show ((s.replicas n).fresh || _) = true
    cases hdiscovers : (s.replicas n).discovers l env ((s.replicas n).since s.stored) with
    | true => exact Bool.or_true _
    | false =>
      rw [RunsReplica.cache_collect hids hdiscovers] at hne
      rw [h.fresh n hleads hne, Bool.true_or]

/-- **One event.** -/
theorem Tracked.apply (hids : l.sessionIDs = []) (h : s.Tracked one events) {e : RunsFleetEvent}
    (hrestarts : RestartsBetween (events ++ [e]) = true)
    (hone : one → OneLeads (events ++ [e]) = true) :
    (s.apply l e).Tracked one (events ++ [e]) := by
  cases e with
  | elected n =>
    -- what the process kept it has discovered since it was started
    have hempty : ¬(s.replicas n).cache.cachedSessions ≠ [] :=
      fun hne => RestartsBetween.not_ticked hrestarts (h.ticked n hne)
    refine h.set (fun m _ => ⟨rfl, rfl⟩) (fun _ hfresh => by cases hfresh)
      (fun p hp => by cases hp) (fun p hp => by cases hp) (fun hne => absurd hne hempty)
      (fun _ => ⟨events, [], rfl, by simp⟩) (fun hone' _ m hm => ?_)
      (fun _ hne => absurd hne hempty)
    by_contra hled
    exact OneLeads.not_leads (hone hone') hm (h.leads m (by simpa using hled))
  | deposed n =>
    exact h.setRunner
      (fun m => ⟨rfl, fun hm => ⟨(by simpa [endsTerm] using hm : n = m).symm, rfl⟩⟩)
      (fun hled => by cases hled) (h.frontier n) (h.queued n)
  | restarted n =>
    have hothers : ∀ m, m ≠ n → (n == m) = false := fun m hm => by simpa using hm.symm
    exact h.set (fun m hm => ⟨hothers m hm, hothers m hm⟩) (fun hleads => by cases hleads)
      (fun p hp => by cases hp) (fun p hp => by cases hp) (fun hne => absurd rfl hne)
      (fun hleads => by cases hleads) (fun _ hleads => by cases hleads)
      (fun hleads => by cases hleads)
  | collect n env =>
    unfold RunsFleet.apply act
    dsimp only
    by_cases hfree : (s.replicas n).leads = true ∧ (s.replicas n).queued.isNone = true
    · rw [if_pos hfree]
      exact h.collect hids hfree.1
    · rw [if_neg hfree]
      have hsame := h.setRunner (e := .collect n env) (n := n) (fun m => ⟨rfl, fun hm => by cases hm⟩) id
        (h.frontier n) (h.queued n)
      unfold RunsFleet.set at hsame
      rwa [Function.update_eq_self] at hsame
  | dropped n =>
    exact h.setRunner (fun m => ⟨rfl, fun hm => by cases hm⟩) id (h.frontier n)
      (fun p hp => by cases hp)
  | saved n outcome =>
    have he : ∀ m, restarts m (.saved n outcome) = false ∧
        (endsTerm m (.saved n outcome) = true → m = n ∧ (s.replicas n).leads = false) :=
      fun m => ⟨rfl, fun hm => by cases hm⟩
    unfold RunsFleet.apply act
    dsimp only
    cases hqueued : (s.replicas n).queued with
    | none =>
      have hsame := h.setRunner he id (h.frontier n) (h.queued n)
      unfold RunsFleet.set at hsame
      rwa [Function.update_eq_self] at hsame
    | some p =>
      have hp := h.queued n p hqueued
      have hr : ∀ frontier, (s.replicas n).Becomes s.event
          { s.replicas n with frontier, queued := none } :=
        fun _ hleads hfresh => Or.inl ⟨hleads, hfresh, rfl⟩
      -- another checkpoint is traced too
      have hstore : ∀ {s' : RunsFleet}, s'.Tracked one (events ++ [.saved n outcome]) →
          ∀ {p : Placed}, p.Traced one s'.event s'.replicas →
          RunsFleet.Tracked one (events ++ [.saved n outcome]) { s' with stored := p } :=
        fun hs' _ hp' => ⟨hp', hs'.frontier, hs'.queued, hs'.ticked, hs'.leads, hs'.alone,
          hs'.fresh, hs'.pages⟩
      cases outcome with
      | ok =>
        refine hstore (h.setRunner he id (fun f hf => ?_) (fun f hf => by cases hf))
          (hp.update (hr _))
        obtain rfl := Option.some.inj hf
        exact h.follow hp
      | stale =>
        refine h.setRunner he id (fun f hf => ?_) (fun f hf => by cases hf)
        obtain rfl := Option.some.inj hf
        exact h.stored
      | failed landed =>
        refine hstore (h.setRunner he id (h.frontier n) (fun f hf => by cases hf)) ?_
        dsimp only
        split_ifs
        · exact hp.update (hr _)
        · exact h.stored.update (hr _)

/-- **A run.** -/
theorem Tracked.run (hids : l.sessionIDs = []) {w : Watermark}
    (hidle : RunsLoop.isDraining w = false) (events : List RunsFleetEvent)
    (hrestarts : RestartsBetween events = true) (hone : one → OneLeads events = true) :
    ((RunsFleet.fresh w).run l events).Tracked one events := by
  induction events using List.reverseRecOn with
  | nil => exact tracked_fresh hidle
  | append_singleton events e ih =>
    unfold RunsFleet.run
    rw [List.foldl_append]
    exact (ih (RestartsBetween.init hrestarts) fun h => OneLeads.init (hone h)).apply hids
      hrestarts hone

end RunsFleet

end

namespace RunsFleet

/-- **One scope per window.**  Along every run in which a process that has ticked is restarted before
it is elected again, every later page is asked for with the sessions of the first one or with
sessions discovered in the current leadership; if besides one process leads at a time, never with
sessions kept from before another process began the window. -/
theorem one_scope_per_window (l : RunsLoop) (hids : l.sessionIDs = []) (w : Watermark)
    (hidle : RunsLoop.isDraining w = false) (events : List RunsFleetEvent)
    (hrestarts : RestartsBetween events = true) :
    ∀ q ∈ ((fresh w).run l events).laterPages, ∃ b, q.begun = some b ∧
      (q.sessions = b.sessions ∨ q.fresh = true) ∧
      (OneLeads events = true → b.replica ≠ q.replica → b.event < q.found) := by
  intro q hq
  obtain ⟨b, hbegun, hfresh, hfound⟩ :=
    (Tracked.run hids hidle events hrestarts (id : OneLeads events = true → _)).pages q hq
  exact ⟨b, hbegun, Or.inr hfresh, hfound⟩

/-! ### Two processes -/

section

open RunsLoop

/-- The default settings, for the projects of a filter. -/
def scopeLoop : RunsLoop := { defaultRunsLoop with sessionIDs := [], sessionFilter := "f" }

theorem scopeLoop_accepted :
    newRunsLoop (fun _ => none) "langsmith" (runsConfig ⟨[("session_filter", "f")], by decide⟩) =
      .ok scopeLoop := by
  decide +kernel

/-- An API that lists some projects and answers every query in one way. -/
def scopeEnv (now : Int) (ids : List String) (answer : Except String RunsPage) : RunsEnv :=
  { now, listSessions := fun _ _ => .ok ⟨200, "", ids⟩, query := fun _ => answer }

/-- Process 0 is elected, discovers one project, and its query fails. -/
def zeroTicks : List RunsFleetEvent :=
  [.elected 0, .collect 0 (scopeEnv runsNoon ["a"] (.error ""))]

/-- Process 1 is elected, discovers two projects, and begins the window. -/
def oneBegins : List RunsFleetEvent :=
  [.elected 1, .collect 1 (scopeEnv runsNoon ["a", "b"] (.ok ⟨[], "t", 200, ""⟩)), .saved 1 .ok]

/-- Process 0 asks for the second page. -/
def zeroResumes : List RunsFleetEvent :=
  [.collect 0 (scopeEnv (runsNoon + minute) ["a", "b"] (.ok ⟨[], "", 200, ""⟩))]

/-- Process 0 ticks and is deposed, process 1 begins the window, and process 0 is elected again. -/
def returnEvents : List RunsFleetEvent :=
  zeroTicks ++ [.deposed 0] ++ oneBegins ++ [.deposed 1, .elected 0] ++ zeroResumes

/-- Process 1 is elected while process 0 leads. -/
def overlapEvents : List RunsFleetEvent := zeroTicks ++ oneBegins ++ zeroResumes

/-- **A window changes its scope.**  Process 0, elected again without a restart, asks for the second
page of the window of process 1 with the project it had discovered in an earlier leadership and
before that window began.  And while two processes lead, process 0 does so with a project it has
discovered in its leadership, but again before the window began. -/
theorem scope_changes_inside_window :
    newRunsLoop (fun _ => none) "langsmith" (runsConfig ⟨[("session_filter", "f")], by decide⟩) =
      .ok scopeLoop ∧
    (OneLeads returnEvents = true ∧
      ⟨0, some ⟨1, 4, ["a", "b"]⟩, ["a"], false, 1⟩ ∈
        ((fresh {}).run scopeLoop returnEvents).laterPages) ∧
    RestartsBetween overlapEvents = true ∧
      ⟨0, some ⟨1, 3, ["a", "b"]⟩, ["a"], true, 1⟩ ∈
        ((fresh {}).run scopeLoop overlapEvents).laterPages := by
  exact ⟨scopeLoop_accepted, ⟨by decide, by decide +kernel⟩, by decide, by decide +kernel⟩

/-- Process 0 is restarted before it is elected again. -/
def restartEvents : List RunsFleetEvent :=
  zeroTicks ++ [.deposed 0, .restarted 0] ++ oneBegins ++ [.deposed 1, .elected 0] ++ zeroResumes

/-- It asks for the second page with projects that it discovers again. -/
theorem one_scope_per_window_restart :
    ⟨0, some ⟨1, 5, ["a", "b"]⟩, ["a", "b"], true, 9⟩ ∈
      ((fresh {}).run scopeLoop restartEvents).laterPages ∧
    ∀ q ∈ ((fresh {}).run scopeLoop restartEvents).laterPages, ∃ b, q.begun = some b ∧
      (q.sessions = b.sessions ∨ q.fresh = true) ∧ (b.replica ≠ q.replica → b.event < q.found) := by
  refine ⟨by decide +kernel, ?_⟩
  intro q hq
  obtain ⟨b, hbegun, hscope, hfound⟩ :=
    one_scope_per_window scopeLoop rfl {} rfl restartEvents (by decide) q hq
  exact ⟨b, hbegun, hscope, hfound (by decide)⟩

end

end RunsFleet

end GenaiBridge
