/-
# OrmpIndexer.Ops.Refreshes — what the cache knows, and what requests are answered

The cache is what its refreshes made it: it has the snapshot of the last one that succeeded and the error of the
last one if that failed (`Tells`). One refresh runs at a time, and a request runs one only as long as none has
succeeded (`one_refresh_at_a_time`). A request is answered with the last snapshot there was at some instant after
it came in; if there was none, then a refresh had been tried, and the answer is its error (`answers_tell`).

Tasks share the cache, so the rule is the one for processes on one state. While a task has the guard of
`refresh_lock` the others change nothing (`Undisturbed`).
-/
import OrmpIndexer.Ops.Cache

namespace OrmpIndexer

open Foundation Foundation.Task

namespace Ops

/-! ## What refreshes tell -/

section

variable {Time : Type}

def Refresh.snapshot (refresh : Refresh Time) : Option DbMetricsSnapshot :=
  match refresh.result with
  | .ok snapshot => some snapshot
  | .error _ => none

def Refresh.error (refresh : Refresh Time) : Option String :=
  match refresh.result with
  | .ok _ => none
  | .error error => some error

def Refresh.succeeded (refresh : Refresh Time) : Bool := refresh.snapshot.isSome

/-- The last refresh that succeeded. -/
def lastSuccess (refreshes : List (Refresh Time)) : Option (Refresh Time) :=
  refreshes.find? Refresh.succeeded

/-- The number of refreshes that failed, as a `u64`. -/
def failures (refreshes : List (Refresh Time)) : Nat :=
  min (refreshes.countP fun refresh => !refresh.succeeded) u64Max

theorem lastSuccess_eq_none {refreshes : List (Refresh Time)} (h : lastSuccess refreshes = none)
    (hne : refreshes ≠ []) : ∃ error, refreshes.head?.bind Refresh.error = some error := by
  cases refreshes with
  | nil => exact absurd rfl hne
  | cons refresh refreshes =>
      have hfailed := List.find?_eq_none.mp h refresh List.mem_cons_self
      obtain ⟨result, startedAt, endedAt, timestamp⟩ := refresh
      cases result with
      | ok snapshot => exact absurd rfl hfailed
      | error error => exact ⟨error, rfl⟩

/-- The snapshot is that of a refresh that succeeded. -/
theorem snapshot_of_lastSuccess {refreshes : List (Refresh Time)} {refresh : Refresh Time}
    (h : lastSuccess refreshes = some refresh) : ∃ snapshot, refresh.snapshot = some snapshot := by
  have hsucceeded : refresh.succeeded = true := List.find?_some h
  exact Option.isSome_iff_exists.mp hsucceeded

variable (asSecsF64 : Nat → Time)

/-- The state of a cache with these refreshes. -/
structure Tells (refreshes : List (Refresh Time)) (state : MetricsCacheState Time) : Prop where
  snapshot : state.snapshot = (lastSuccess refreshes).bind (·.snapshot)
  lastSuccessAt : state.lastSuccessAt = (lastSuccess refreshes).map (·.endedAt)
  timestamp : state.lastSuccessTimestampSeconds = (lastSuccess refreshes).map (·.timestamp)
  duration : state.lastRefreshDurationSeconds =
    refreshes.head?.map fun refresh => asSecsF64 (refresh.endedAt - refresh.startedAt)
  success : state.lastRefreshSuccess = refreshes.head?.all Refresh.succeeded
  errors : state.refreshErrorsTotal = failures refreshes
  error : state.lastError = refreshes.head?.bind Refresh.error

theorem tells_new : Tells asSecsF64 [] (MetricsCacheState.new Time) :=
  ⟨rfl, rfl, rfl, rfl, rfl, rfl, rfl⟩

theorem failures_cons_of_failed {refreshes : List (Refresh Time)} {refresh : Refresh Time}
    (h : refresh.succeeded = false) :
    failures (refresh :: refreshes) = saturatingAdd (failures refreshes) 1 := by
  rw [failures, failures, saturatingAdd, List.countP_cons_of_pos (by rw [h]; rfl)]
  omega

variable {asSecsF64} in
/-- A refresh that ends makes the cache what it tells. -/
theorem Tells.ended {refreshes : List (Refresh Time)} {state : MetricsCacheState Time}
    (h : Tells asSecsF64 refreshes state) (refresh : Refresh Time) :
    Tells asSecsF64 (refresh :: refreshes) (ended asSecsF64 refresh state) := by
  obtain ⟨result, startedAt, endedAt, timestamp⟩ := refresh
  cases result with
  | ok snapshot =>
      refine ⟨rfl, rfl, rfl, rfl, rfl, h.errors.trans ?_, rfl⟩
      rw [failures, failures, List.countP_cons_of_neg (by exact Bool.false_ne_true)]
  | error error =>
      refine ⟨h.snapshot, h.lastSuccessAt, h.timestamp, rfl, rfl, ?_, rfl⟩
      rw [failures_cons_of_failed rfl, ← h.errors]
      rfl

variable [LT Time] [DecidableLT Time] (cache : MetricsCache)

/-- The status that a page shows after these refreshes, at some instant. -/
def statusAfter (refreshes : List (Refresh Time)) (now : Nat) : MetricsCacheStatus Time :=
  let age := (lastSuccess refreshes).map fun refresh => asSecsF64 (now - refresh.endedAt)
  { lastSuccessTimestampSeconds := (lastSuccess refreshes).map (·.timestamp)
    snapshotAgeSeconds := age
    lastRefreshDurationSeconds :=
      refreshes.head?.map fun refresh => asSecsF64 (refresh.endedAt - refresh.startedAt)
    lastRefreshSuccess := refreshes.head?.all Refresh.succeeded
    refreshErrorsTotal := failures refreshes
    stale := (age.map fun age => decide (asSecsF64 cache.staleAfter < age)).getD true }

variable {asSecsF64} in
theorem Tells.view {refreshes : List (Refresh Time)} {state : MetricsCacheState Time}
    (h : Tells asSecsF64 refreshes state) (now : Nat) :
    Ops.snapshot asSecsF64 cache state now =
      ((lastSuccess refreshes).bind (·.snapshot), statusAfter asSecsF64 cache refreshes now,
        refreshes.head?.bind Refresh.error) := by
  have hage : state.lastSuccessAt.map (fun lastSuccessAt => asSecsF64 (now - lastSuccessAt)) =
      (lastSuccess refreshes).map fun refresh => asSecsF64 (now - refresh.endedAt) := by
    rw [h.lastSuccessAt, Option.map_map]
    rfl
  rw [Ops.snapshot, statusAfter, hage, h.timestamp, h.duration, h.success, h.errors, h.snapshot,
    h.error]

variable [ToString Time]

/-- The answer of a request that read the cache after these refreshes. -/
def Shows (refreshes : List (Refresh Time)) (now : Nat) (response : Response) : Prop :=
  match lastSuccess refreshes with
  | some refresh => ∃ snapshot runtime, refresh.snapshot = some snapshot ∧
      response = ⟨200, formatMetricsWithStatus snapshot.checkpoints snapshot.rowCounts runtime
        (statusAfter asSecsF64 cache refreshes now)⟩
  | none => ∃ error, refreshes.head?.bind Refresh.error = some error ∧
      response = ⟨503, "metrics unavailable: " ++ ("metrics snapshot unavailable" ++ (": " ++ error))⟩

/-- It read the cache after its request came in. -/
def Right (refreshes : List (Refresh Time)) (answer : Answer Time) : Prop :=
  ∃ seen now, answer.began <:+ seen ∧ seen <:+ refreshes ∧ Shows asSecsF64 cache seen now answer.response

variable {asSecsF64 cache} in
theorem Right.later {refreshes refreshes' : List (Refresh Time)} {answer : Answer Time}
    (h : Right asSecsF64 cache refreshes answer) (hlater : refreshes <:+ refreshes') :
    Right asSecsF64 cache refreshes' answer := by
  obtain ⟨seen, now, hbegan, hseen, hshows⟩ := h
  exact ⟨seen, now, hbegan, hseen.trans hlater, hshows⟩

/-! ## The tasks on one cache -/

/-- The cache tells its refreshes, and every answer is right. -/
structure CacheInv (w : CacheWorld Time) : Prop where
  tells : Tells asSecsF64 w.refreshes w.state
  right : ∀ answer ∈ w.answers, Right asSecsF64 cache w.refreshes answer

omit [LT Time] [DecidableLT Time] [ToString Time] in
/-- What a task relies on: refreshes are not forgotten, and while it has the guard there are no others. -/
structure Undisturbed (i : Nat) (w w' : CacheWorld Time) : Prop where
  began : w'.began i = w.began i
  refreshes : w.refreshes <:+ w'.refreshes
  guarded : w.holder = some i → w'.holder = some i ∧ w'.refreshes = w.refreshes

/-- No refresh and no answer is forgotten. -/
def Later (w w' : CacheWorld Time) : Prop :=
  w.refreshes <:+ w'.refreshes ∧ w.answers <:+ w'.answers

/-- What a task must meet at a call. -/
def CacheObligation (i : Nat) (w : CacheWorld Time) : CacheOp → Prop
  | .collect force => w.holder = some i ∧ (force = false → lastSuccess w.refreshes = none)
  | .storeSnapshot .. | .recordRefreshFailure .. | .unlockRefresh => w.holder = some i
  | .respond response => Right asSecsF64 cache w.refreshes ⟨(w.began i).getD [], response⟩
  | _ => True

variable {asSecsF64 cache} {i : Nat} {w w' : CacheWorld Time}

omit [LT Time] [DecidableLT Time] [ToString Time] in
theorem undisturbed_refl (i : Nat) (w : CacheWorld Time) : Undisturbed i w w :=
  ⟨rfl, List.suffix_refl _, fun h => ⟨h, rfl⟩⟩

omit [LT Time] [DecidableLT Time] [ToString Time] in
theorem Undisturbed.trans {w'' : CacheWorld Time} (h : Undisturbed i w w') (h' : Undisturbed i w' w'') :
    Undisturbed i w w'' where
  began := h'.began.trans h.began
  refreshes := h.refreshes.trans h'.refreshes
  guarded hholder := by
    obtain ⟨hholder', hsame⟩ := h.guarded hholder
    obtain ⟨hholder'', hsame'⟩ := h'.guarded hholder'
    exact ⟨hholder'', hsame'.trans hsame⟩

/-- The clock makes no difference. -/
theorem CacheInv.congr (h : CacheInv asSecsF64 cache w) (hstate : w'.state = w.state)
    (hrefreshes : w'.refreshes = w.refreshes) (hanswers : w'.answers = w.answers) :
    CacheInv asSecsF64 cache w' := by
  refine ⟨?_, ?_⟩
  · rw [hstate, hrefreshes]
    exact h.tells
  · rw [hanswers, hrefreshes]
    exact h.right

/-- A call that changes nothing that the others see. -/
theorem guarantees_same (h : CacheInv asSecsF64 cache w) (hstate : w'.state = w.state)
    (hrefreshes : w'.refreshes = w.refreshes) (hanswers : w'.answers = w.answers)
    (hbegan : ∀ j, j ≠ i → w'.began j = w.began j)
    (hholder : ∀ j, j ≠ i → w.holder = some j → w'.holder = some j) :
    Guarantees (CacheInv asSecsF64 cache) Undisturbed Later i w w' := by
  refine ⟨h.congr hstate hrefreshes hanswers, ⟨?_, ?_⟩, fun j hj => ⟨hbegan j hj, ?_, fun hj' => ?_⟩⟩
  · rw [hrefreshes]
  · rw [hanswers]
  · rw [hrefreshes]
  · exact ⟨hholder j hj hj', hrefreshes⟩

/-- A refresh that ends under the guard. -/
theorem guarantees_ended (h : CacheInv asSecsF64 cache w) (hholder : w.holder = some i) (now : Nat)
    (refresh : Refresh Time) : Guarantees (CacheInv asSecsF64 cache) Undisturbed Later i w
      ({ w with now }.ended asSecsF64 refresh) := by
  have hlater : w.refreshes <:+ refresh :: w.refreshes := List.suffix_cons _ _
  refine ⟨⟨h.tells.ended refresh, fun answer hanswer => (h.right answer hanswer).later hlater⟩,
    ⟨hlater, List.suffix_refl _⟩, fun j hj => ⟨rfl, hlater, fun hj' => ?_⟩⟩
  exact absurd (Option.some.inj (hj'.symm.trans hholder)) hj

theorem guarantees_cacheCall {w₁ : CacheWorld Time} {op : CacheOp}
    {r : Except Empty (CacheReply Time op)} (hop : CacheObligation asSecsF64 cache i w op)
    (hothers : Undisturbed i w w₁) (hinv : CacheInv asSecsF64 cache w₁)
    (hserves : CacheServes asSecsF64 cache i w₁ op r w') :
    Guarantees (CacheInv asSecsF64 cache) Undisturbed Later i w₁ w' := by
  cases r with
  | error e => exact e.elim
  | ok a =>
      obtain ⟨now, timestamp, hnow, hanswer, rfl⟩ := hserves
      cases op with
      | accept =>
          refine guarantees_same hinv rfl rfl rfl (fun j hj => ?_) fun _ _ h => h
          exact Function.update_of_ne hj _ _
      | lockRefresh =>
          have hfree : w₁.holder = none := hanswer
          refine guarantees_same hinv rfl rfl rfl (fun _ _ => rfl) fun j hj h => ?_
          rw [hfree] at h
          cases h
      | unlockRefresh =>
          have hholder := (hothers.guarded hop).1
          refine guarantees_same hinv rfl rfl rfl (fun _ _ => rfl) fun j hj h => ?_
          exact absurd (Option.some.inj (h.symm.trans hholder)) hj
      | storeSnapshot | recordRefreshFailure =>
          exact guarantees_ended hinv (hothers.guarded hop).1 now _
      | respond response =>
          have hright : Right asSecsF64 cache w₁.refreshes ⟨(w₁.began i).getD [], response⟩ := by
            rw [hothers.began]
            exact Right.later hop hothers.refreshes
          refine ⟨⟨hinv.tells, fun answer hanswer => ?_⟩, ⟨List.suffix_refl _, List.suffix_cons _ _⟩,
            fun j _ => ⟨rfl, List.suffix_refl _, fun h => ⟨h, rfl⟩⟩⟩
          rcases List.mem_cons.mp hanswer with rfl | hanswer
          · exact hright
          · exact hinv.right answer hanswer
      | snapshotIsSome | now | collect | snapshot | runtimeMetrics | sleep =>
          exact guarantees_same hinv rfl rfl rfl (fun _ _ => rfl) fun _ _ h => h

theorem guarantees_cacheEnds (h : CacheInv asSecsF64 cache w) :
    Guarantees (CacheInv asSecsF64 cache) Undisturbed Later i w (cacheEnds i w) := by
  refine guarantees_same h rfl rfl rfl (fun j hj => Function.update_of_ne hj _ _) fun j hj hj' => ?_
  have hne : w.holder ≠ some i := fun h => hj (Option.some.inj (hj'.symm.trans h))
  show (if w.holder = some i then none else w.holder) = some j
  rw [if_neg hne]
  exact hj'

/-! ## One task -/

section

variable {α : Type} {Q : α → CacheWorld Time → Prop} {E : Empty → CacheWorld Time → Prop}

variable (asSecsF64 cache i) in
/-- What one task sees: the others may move before every answer. -/
abbrev Seeing : CacheWorld Time → (op : CacheOp) → Except Empty (CacheReply Time op) →
    CacheWorld Time → Prop :=
  Disturbed (CacheServes asSecsF64 cache) (CacheInv asSecsF64 cache) Undisturbed i

theorem wp_cacheCall {op : CacheOp} {next : Except Empty (CacheReply Time op) → Cached Time α}
    (hop : CacheObligation asSecsF64 cache i w op)
    (hnext : ∀ w₁ a now timestamp, Undisturbed i w w₁ → CacheInv asSecsF64 cache w₁ →
      cacheAnswers asSecsF64 cache { w₁ with now } op a →
      Wp (Seeing asSecsF64 cache i) (CacheObligation asSecsF64 cache i) Q E (next (.ok a))
        ({ w₁ with now }.record asSecsF64 i timestamp op)) :
    Wp (Seeing asSecsF64 cache i) (CacheObligation asSecsF64 cache i) Q E (.call op next) w := by
  refine ⟨hop, fun r w' hs => ?_⟩
  obtain ⟨w₁, hothers, hinv, hserves⟩ := hs
  cases r with
  | error e => exact e.elim
  | ok a =>
      obtain ⟨now, timestamp, _, hanswer, rfl⟩ := hserves
      exact hnext w₁ a now timestamp hothers hinv hanswer

/-- The rule of a call. -/
theorem wp_cacheBind {op : CacheOp} {f : CacheReply Time op → Cached Time α}
    (hop : CacheObligation asSecsF64 cache i w op)
    (hnext : ∀ w₁ a now timestamp, Undisturbed i w w₁ → CacheInv asSecsF64 cache w₁ →
      cacheAnswers asSecsF64 cache { w₁ with now } op a →
      Wp (Seeing asSecsF64 cache i) (CacheObligation asSecsF64 cache i) Q E (f a)
        ({ w₁ with now }.record asSecsF64 i timestamp op)) :
    Wp (Seeing asSecsF64 cache i) (CacheObligation asSecsF64 cache i) Q E (await op >>= f) w :=
  wp_cacheCall hop hnext

end

/-- The task has the guard, and knows the refreshes. -/
structure Guarding (i : Nat) (refreshes : List (Refresh Time))
    (began : Option (List (Refresh Time))) (w : CacheWorld Time) : Prop where
  holder : w.holder = some i
  refreshes : w.refreshes = refreshes
  began : w.began i = began

omit [LT Time] [DecidableLT Time] [ToString Time] in
theorem Guarding.others {refreshes : List (Refresh Time)} {began : Option (List (Refresh Time))}
    (h : Guarding i refreshes began w) (hothers : Undisturbed i w w') (now : Nat) :
    Guarding i refreshes began { w' with now } := by
  obtain ⟨hholder, hsame⟩ := hothers.guarded h.holder
  exact ⟨hholder, hsame.trans h.refreshes, hothers.began.trans h.began⟩

/-- The snapshot is there when a refresh has succeeded. -/
theorem CacheInv.isSome (h : CacheInv asSecsF64 cache w) :
    w.state.snapshot.isSome = (lastSuccess w.refreshes).isSome := by
  rw [h.tells.snapshot]
  cases hlast : lastSuccess w.refreshes with
  | none => rfl
  | some refresh =>
      obtain ⟨snapshot, hsnapshot⟩ := snapshot_of_lastSuccess hlast
      rw [Option.bind_some, hsnapshot]
      rfl

omit [LT Time] [DecidableLT Time] [ToString Time] in
theorem ne_nil_of_lastSuccess {refreshes : List (Refresh Time)}
    (h : (lastSuccess refreshes).isSome) : refreshes ≠ [] := by
  rintro rfl
  cases h

section

variable {start refreshes : List (Refresh Time)} {began : Option (List (Refresh Time))}

/-- There has been a refresh, and what had been is not forgotten. -/
structure Refreshed (i : Nat) (start : List (Refresh Time)) (began : Option (List (Refresh Time)))
    (w : CacheWorld Time) : Prop where
  began : w.began i = began
  refreshes : start <:+ w.refreshes
  some : w.refreshes ≠ []

/-- The guard is dropped at the end. -/
theorem wp_unlockRefresh (h : Guarding i refreshes began w) (hstart : start <:+ refreshes)
    (hsome : refreshes ≠ []) :
    Wp (Seeing asSecsF64 cache i) (CacheObligation asSecsF64 cache i)
      (fun _ => Refreshed i start began) (fun _ _ => True) (await CacheOp.unlockRefresh) w := by
  refine wp_cacheCall h.holder fun w₁ _ now _ hothers _ _ => ?_
  have hguard := h.others hothers now
  exact ⟨hguard.began, hguard.refreshes ▸ hstart, hguard.refreshes ▸ hsome⟩

/-- A refresh that ended is the last one. -/
theorem wp_collectGuarded {force : Bool} (h : Guarding i refreshes began w)
    (hstart : start <:+ refreshes) (hnone : force = false → lastSuccess refreshes = none) :
    Wp (Seeing asSecsF64 cache i) (CacheObligation asSecsF64 cache i)
      (fun _ => Refreshed i start began) (fun _ _ => True) (collectGuarded asSecsF64 cache force) w := by
  have hended : ∀ {w} (refresh : Refresh Time), Guarding i refreshes began w →
      Wp (Seeing asSecsF64 cache i) (CacheObligation asSecsF64 cache i)
        (fun _ => Refreshed i start began) (fun _ _ => True) (await CacheOp.unlockRefresh)
        (w.ended asSecsF64 refresh) := fun {w} refresh h => by
    have hguard : Guarding i (refresh :: refreshes) began (w.ended asSecsF64 refresh) :=
      ⟨h.holder, congrArg (refresh :: ·) h.refreshes, h.began⟩
    exact wp_unlockRefresh hguard (hstart.trans (List.suffix_cons _ _)) (List.cons_ne_nil _ _)
  unfold collectGuarded
  refine wp_cacheBind trivial fun w₁ startedAt now₁ _ hothers₁ _ _ => ?_
  have h₁ := h.others hothers₁ now₁
  have hcollect : CacheObligation asSecsF64 cache i { w₁ with now := now₁ } (.collect force) := by
    refine ⟨h₁.holder, fun hforce => ?_⟩
    rw [h₁.refreshes]
    exact hnone hforce
  refine wp_cacheBind hcollect fun w₂ result now₂ _ hothers₂ _ _ => ?_
  have h₂ := h₁.others hothers₂ now₂
  cases result with
  | ok snapshot =>
      refine wp_cacheBind h₂.holder fun w₃ _ now₃ _ hothers₃ _ _ => hended _ ?_
      exact h₂.others hothers₃ now₃
  | failed error =>
      refine wp_cacheBind h₂.holder fun w₃ _ now₃ _ hothers₃ _ _ => hended _ ?_
      exact h₂.others hothers₃ now₃
  | elapsed =>
      refine wp_cacheBind h₂.holder fun w₃ _ now₃ _ hothers₃ _ _ => hended _ ?_
      exact h₂.others hothers₃ now₃

/-- After `refresh` there has been one; without force it collects only if none has succeeded. -/
theorem wp_refresh (force : Bool) (hbegan : w.began i = began) (hstart : start <:+ w.refreshes) :
    Wp (Seeing asSecsF64 cache i) (CacheObligation asSecsF64 cache i)
      (fun _ => Refreshed i start began) (fun _ _ => True) (refresh asSecsF64 cache force) w := by
  unfold refresh
  refine wp_cacheBind trivial fun w₁ _ now₁ timestamp hothers₁ _ _ => ?_
  have hstart₁ : start <:+ w₁.refreshes := hstart.trans hothers₁.refreshes
  have h₁ : Guarding i w₁.refreshes began
      ({ w₁ with now := now₁ }.record asSecsF64 i timestamp .lockRefresh) :=
    ⟨rfl, rfl, hothers₁.began.trans hbegan⟩
  cases force with
  | true => exact wp_collectGuarded h₁ hstart₁ (by rintro ⟨⟩)
  | false =>
      refine wp_cacheBind trivial fun w₂ isSome now₂ _ hothers₂ hinv₂ hanswer => ?_
      have h₂ := h₁.others hothers₂ now₂
      have hisSome : isSome = (lastSuccess w₁.refreshes).isSome := by
        rw [← h₂.refreshes]
        exact hanswer.trans hinv₂.isSome
      cases hlast : isSome with
      | true => exact wp_unlockRefresh h₂ hstart₁ (ne_nil_of_lastSuccess (hisSome ▸ hlast))
      | false =>
          refine wp_collectGuarded h₂ hstart₁ fun _ => ?_
          exact Option.isNone_iff_eq_none.mp (Option.isSome_eq_false_iff.mp (hisSome ▸ hlast))

/-- The task of the background collects and sleeps. -/
theorem wp_refreshLoop (turns : Nat) :
    Wp (Seeing asSecsF64 cache i) (CacheObligation asSecsF64 cache i) (fun _ _ => True)
      (fun _ _ => True) (refreshLoop asSecsF64 cache turns) w := by
  induction turns generalizing w with
  | zero => trivial
  | succ turns ih =>
      refine wp_bind.mpr ((wp_refresh true rfl (List.suffix_refl _)).imp (fun _ w₁ _ => ?_) fun _ _ h => h)
      exact wp_cacheBind trivial fun _ _ _ _ _ _ _ => ih

/-- What is read from a cache that was refreshed. -/
theorem wp_renderSnapshot (h : Refreshed i start began w) :
    Wp (Seeing asSecsF64 cache i) (CacheObligation asSecsF64 cache i)
      (fun result w' => w'.began i = began ∧ ∃ seen now, start <:+ seen ∧ seen <:+ w'.refreshes ∧
        Shows asSecsF64 cache seen now (metricsResponse result))
      (fun _ _ => True) renderSnapshot w := by
  unfold renderSnapshot
  refine wp_cacheBind trivial fun w₁ view now₁ _ hothers₁ hinv₁ hanswer => ?_
  obtain rfl : view = _ := hanswer.trans (hinv₁.tells.view cache now₁)
  have hbegan₁ : w₁.began i = began := hothers₁.began.trans h.began
  have hseen : start <:+ w₁.refreshes := h.refreshes.trans hothers₁.refreshes
  have hsome : w₁.refreshes ≠ [] := fun hnil => h.some (List.suffix_nil.mp (hnil ▸ hothers₁.refreshes))
  cases hlast : lastSuccess w₁.refreshes with
  | some refresh =>
      obtain ⟨snapshot, hsnapshot⟩ := snapshot_of_lastSuccess hlast
      dsimp only
      rw [Option.bind_some, hsnapshot]
      refine wp_cacheBind trivial fun w₂ runtime now₂ _ hothers₂ _ _ => ?_
      refine ⟨hothers₂.began.trans hbegan₁, w₁.refreshes, now₁, hseen, hothers₂.refreshes, ?_⟩
      rw [Shows, hlast]
      exact ⟨snapshot, runtime, hsnapshot, rfl⟩
  | none =>
      obtain ⟨error, herror⟩ := lastSuccess_eq_none hlast hsome
      dsimp only
      rw [Option.bind_none, herror]
      refine ⟨hbegan₁, w₁.refreshes, now₁, hseen, List.suffix_refl _, ?_⟩
      rw [Shows, hlast]
      exact ⟨error, herror, rfl⟩

/-- A request is answered with what it read after it came in. -/
theorem wp_metricsHandler :
    Wp (Seeing asSecsF64 cache i) (CacheObligation asSecsF64 cache i) (fun _ _ => True)
      (fun _ _ => True) (metricsHandler asSecsF64 cache) w := by
  refine wp_cacheBind trivial fun w₁ _ now₁ timestamp _ _ _ => ?_
  have hbegan : ({ w₁ with now := now₁ }.record asSecsF64 i timestamp .accept).began i =
      some w₁.refreshes := Function.update_self i _ _
  have hstart : w₁.refreshes <:+
      ({ w₁ with now := now₁ }.record asSecsF64 i timestamp .accept).refreshes := List.suffix_refl _
  generalize { w₁ with now := now₁ }.record asSecsF64 i timestamp .accept = w₂ at hbegan hstart ⊢
  generalize w₁.refreshes = start at hbegan hstart
  refine wp_bind.mpr (wp_cacheBind trivial fun w₃ isSome now₃ _ hothers₃ hinv₃ hanswer => ?_)
  have hbegan₃ : w₃.began i = some start := hothers₃.began.trans hbegan
  have hstart₃ : start <:+ w₃.refreshes := hstart.trans hothers₃.refreshes
  have hrespond : ∀ {w₄}, Refreshed i start (some start) w₄ →
      Wp (Seeing asSecsF64 cache i) (CacheObligation asSecsF64 cache i)
        (fun result => Wp (Seeing asSecsF64 cache i) (CacheObligation asSecsF64 cache i)
          (fun _ _ => True) (fun _ _ => True) (await (CacheOp.respond (metricsResponse result))))
        (fun _ _ => True) renderSnapshot w₄ := fun h₄ => by
    refine (wp_renderSnapshot h₄).imp (fun result w₅ h₅ => ?_) fun _ _ h => h
    obtain ⟨hbegan₅, hright⟩ := h₅
    refine wp_cacheCall ?_ fun _ _ _ _ _ _ _ => trivial
    show Right asSecsF64 cache w₅.refreshes ⟨(w₅.began i).getD [], _⟩
    rw [hbegan₅]
    exact hright
  -- when the cache is read, it has been refreshed
  cases hlast : isSome with
  | true =>
      have hisSome : true = (lastSuccess w₃.refreshes).isSome :=
        hlast.symm.trans (hanswer.trans hinv₃.isSome)
      exact hrespond ⟨hbegan₃, hstart₃, ne_nil_of_lastSuccess hisSome.symm⟩
  | false =>
      exact wp_bind.mpr (Wp.imp (wp_refresh (w := { w₃ with now := now₃ }) false hbegan₃ hstart₃)
        (fun _ _ h₄ => hrespond h₄) fun _ _ h => h)

end

/-! ## All tasks -/

variable (asSecsF64 cache) in
theorem cacheRelyGuarantee : RelyGuarantee (CacheServes asSecsF64 cache) cacheBegins cacheEnds
    (role asSecsF64 cache) (CacheInv asSecsF64 cache) Undisturbed (CacheObligation asSecsF64 cache)
    Later where
  refl := undisturbed_refl
  trans _ _ _ _ h h' := h.trans h'
  start _ _ _ h := ⟨h, ⟨List.suffix_refl _, List.suffix_refl _⟩, fun j _ => undisturbed_refl j _⟩
  stop _ _ h := guarantees_cacheEnds h
  call _ _ _ _ _ _ hop hothers hinv hserves := guarantees_cacheCall hop hothers hinv hserves
  process i arg w h := by
    cases arg with
    | request => exact wp_metricsHandler
    | refreshLoop turns => exact wp_refreshLoop turns

/-- A new cache tells that nothing was refreshed. -/
theorem cacheInv_new (now : Nat) : CacheInv asSecsF64 cache (CacheWorld.new now) :=
  ⟨tells_new asSecsF64, fun _ hanswer => absurd hanswer List.not_mem_nil⟩

section

variable {now : Nat} {c : System CacheOp (CacheReply Time) Empty Unit (CacheWorld Time) Nat}

theorem sound_cache (hmoves : Moves (CacheServes asSecsF64 cache) cacheBegins cacheEnds
      (role asSecsF64 cache) (idle (CacheWorld.new now)) c) :
    Sound (CacheServes asSecsF64 cache) (CacheInv asSecsF64 cache) Undisturbed
      (CacheObligation asSecsF64 cache) c :=
  ((cacheRelyGuarantee asSecsF64 cache).moves (fun _ => ⟨List.suffix_refl _, List.suffix_refl _⟩)
    (fun _ _ _ h h' => ⟨h.1.trans h'.1, h.2.trans h'.2⟩) (sound_idle (cacheInv_new now)) hmoves).1

/-- Who collects has the guard, and who does so without force only as long as nothing has succeeded. -/
theorem guarded_of_collect (h : Sound (CacheServes asSecsF64 cache) (CacheInv asSecsF64 cache) Undisturbed
      (CacheObligation asSecsF64 cache) c) {i : Nat} {force : Bool}
    {next : Except Empty (CacheReply Time (.collect force)) → Cached Time Unit}
    (hi : c.2 i = some (.call (.collect force) next)) :
    c.1.holder = some i ∧ (force = false → lastSuccess c.1.refreshes = none) := by
  obtain ⟨w, hothers, hwp⟩ := h.2 i _ hi
  obtain ⟨hholder, hnone⟩ := hwp.1
  obtain ⟨hholder', hsame⟩ := hothers.guarded hholder
  exact ⟨hholder', fun hforce => hsame ▸ hnone hforce⟩

/-- **One refresh at a time.** However many requests come, and wherever they or the task in the background are
stopped, the cache is what its refreshes made it, no two tasks collect at once, and a request collects only as
long as no refresh has succeeded. -/
theorem one_refresh_at_a_time (hmoves : Moves (CacheServes asSecsF64 cache) cacheBegins cacheEnds
      (role asSecsF64 cache) (idle (CacheWorld.new now)) c) :
    Tells asSecsF64 c.1.refreshes c.1.state ∧
      (∀ i j force force' next next', c.2 i = some (.call (.collect force) next) →
        c.2 j = some (.call (.collect force') next') → i = j) ∧
      ∀ i next, c.2 i = some (.call (.collect false) next) → lastSuccess c.1.refreshes = none := by
  have sound := sound_cache hmoves
  refine ⟨sound.1.tells, fun i j force force' next next' hi hj => ?_, fun i next hi => ?_⟩
  · have hholder := (guarded_of_collect sound hi).1
    rw [(guarded_of_collect sound hj).1] at hholder
    exact (Option.some.inj hholder).symm
  · exact (guarded_of_collect sound hi).2 rfl

end

end

/-! ### Two requests -/

def asSeconds (nanoseconds : Nat) : Nat := nanoseconds / 1000000000

def defaultCache : MetricsCache := .new ⟨5000, 10000⟩

/-- A cache whose first collection fails; every call takes a second. -/
def cacheReply (w : CacheWorld Nat) : (op : CacheOp) → CacheReply Nat op
  | .snapshotIsSome => w.state.snapshot.isSome
  | .now => w.now
  | .collect _ =>
      if w.refreshes.isEmpty then .failed "connection refused"
      else .ok (collectDbMetricsSnapshot (fun _ => ("", none)) .empty)
  | .snapshot => snapshot asSeconds defaultCache w.state w.now
  | .runtimeMetrics => ⟨[], []⟩
  | .accept | .lockRefresh | .unlockRefresh | .storeSnapshot .. | .recordRefreshFailure .. | .sleep _
  | .respond _ => ()

def simulateCache (i : Nat) (w : CacheWorld Nat) (op : CacheOp) :
    Except Empty (CacheReply Nat op) × CacheWorld Nat :=
  let w := { w with now := w.now + 1000000000 }
  (.ok (cacheReply w op), w.record asSeconds i 0 op)

/-- Only the lock may have to wait. -/
def cacheReady (w : CacheWorld Nat) : CacheOp → Bool
  | .lockRefresh => w.holder.isNone
  | _ => true

theorem serves_simulateCache (i : Nat) (w : CacheWorld Nat) (op : CacheOp)
    (hready : cacheReady w op = true) :
    CacheServes asSeconds defaultCache i w op (simulateCache i w op).1 (simulateCache i w op).2 := by
  refine ⟨w.now + 1000000000, 0, Nat.le_add_right _ _, ?_, rfl⟩
  cases op with
  | lockRefresh => exact Option.isNone_iff_eq_none.mp hready
  | snapshotIsSome | now | snapshot => rfl
  | _ => trivial

/-- The world after a request that nobody disturbs. -/
def afterRequest (i : Nat) (w : CacheWorld Nat) : CacheWorld Nat :=
  ((metricsHandler asSeconds defaultCache).eval (simulateCache i) w).2

def servedTwice : CacheWorld Nat := afterRequest 1 (cacheEnds 0 (afterRequest 0 (.new 0)))

theorem moves_servedTwice : ∃ tasks, Moves (CacheServes asSeconds defaultCache) cacheBegins cacheEnds
    (role asSeconds defaultCache) (idle (CacheWorld.new 0)) (servedTwice, tasks) := by
  have hstart : ∀ (i : Nat) (w : CacheWorld Nat) (tasks : Nat → Option (Cached Nat Unit)),
      tasks i = none → (metricsHandler asSeconds defaultCache).meets (simulateCache i) cacheReady w =
        true → ∃ t, Moves (CacheServes asSeconds defaultCache) cacheBegins cacheEnds
          (role asSeconds defaultCache) (w, tasks)
          (afterRequest i w, Function.update tasks i (some t)) := by
    intro i w tasks hi hmeets
    have hrun : Moves (CacheServes asSeconds defaultCache) cacheBegins cacheEnds
        (role asSeconds defaultCache) _ _ :=
      moves_of_reaches (Function.update_self i (some (metricsHandler asSeconds defaultCache)) tasks)
        (reaches_eval_of_meets (serves_simulateCache i) hmeets)
    rw [Function.update_idem] at hrun
    have hmove : Move (CacheServes asSeconds defaultCache) cacheBegins cacheEnds
        (role asSeconds defaultCache) (w, tasks)
        (w, Function.update tasks i (some (metricsHandler asSeconds defaultCache))) :=
      .start Role.request hi
    exact ⟨_, .head hmove hrun⟩
  obtain ⟨t, hfirst⟩ := hstart 0 (.new 0) (fun _ => none) rfl rfl
  have hstopped := hfirst.tail (.stop (Function.update_self _ _ _))
  obtain ⟨t', hsecond⟩ := hstart 1 (cacheEnds 0 (afterRequest 0 (.new 0)))
    (Function.update (Function.update (fun _ => none) 0 (some t)) 0 none) rfl rfl
  exact ⟨_, hstopped.trans hsecond⟩

/-- The first request is refused, the second one has the page; one refresh has failed. -/
theorem one_refresh_at_a_time_servedTwice : servedTwice.answers.map (·.response.status) = [200, 503] ∧
    servedTwice.state.refreshErrorsTotal = 1 ∧ servedTwice.state.lastError = none := by
  obtain ⟨tasks, hmoves⟩ := moves_servedTwice
  have htells := (one_refresh_at_a_time hmoves).1
  refine ⟨by rfl, htells.errors.trans ?_, htells.error.trans ?_⟩
  · show failures servedTwice.refreshes = 1
    rfl
  · show servedTwice.refreshes.head?.bind Refresh.error = none
    rfl

end Ops

end OrmpIndexer
