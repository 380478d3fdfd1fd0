/-
# OrmpIndexer.TronRecovery.Ranges — the ranges of a scan

What a scan has done is read off the calls it has made (`Call`, the LATEST FIRST): the ranges whose logs it
got (`acceptedRanges`) and the ends it committed (`committedEnds`). Nothing is assumed of the replies.

The inner loop halves a range until a query succeeds or the range is one block, and the outer loop goes on
right behind the range that succeeded. So the accepted ranges tile the blocks from the first one on
(`Scanned`), and a failing query ends the scan only if it was for the one block they end before.
-/
import OrmpIndexer.Decoder.RoundTrip
import OrmpIndexer.Foundation.Tiling
import OrmpIndexer.TronRecovery.Scan

namespace OrmpIndexer

open Foundation Foundation.Task

namespace TronRecovery

/-- An answered call. -/
structure Call where
  op : Op
  reply : Except Error (Reply op)

/-- Any call may be answered by anything. -/
def Records (past : List Call) (op : Op) (r : Except Error (Reply op)) (past' : List Call) : Prop :=
  past' = ⟨op, r⟩ :: past

/-- The range of a query that succeeded: its logs arrived, and there were not too many of them. -/
def acceptedRange : Call → Option BlockRange
  | ⟨.getLogs fromBlock toBlock, .ok logs⟩ =>
      if logs.length < 10000 then some ⟨fromBlock, toBlock⟩ else none
  | _ => none

/-- The ranges that were accepted, in their order. -/
def acceptedRanges : List Call → List BlockRange
  | [] => []
  | c :: past => acceptedRanges past ++ (acceptedRange c).toList

/-- The checkpoint of a successful transaction. -/
def committedEnd : Call → Option Nat
  | ⟨.writeEventsAndAdvanceCheckpoint _ _ _ _ nextBlock, .ok _⟩ => some nextBlock
  | _ => none

/-- The checkpoints that were committed, in their order. -/
def committedEnds : List Call → List Nat
  | [] => []
  | c :: past => committedEnds past ++ (committedEnd c).toList

/-- The range of the last call, if that was a log query that failed. -/
def failedQuery : List Call → Option BlockRange
  | ⟨.getLogs fromBlock toBlock, r⟩ :: _ =>
      if (acceptedRange ⟨.getLogs fromBlock toBlock, r⟩).isSome then none
      else some ⟨fromBlock, toBlock⟩
  | _ => none

/-- A call that is neither a log query nor a transaction. -/
def Aside : Op → Prop
  | .getLogs .. | .writeEventsAndAdvanceCheckpoint .. => False
  | _ => True

/-- Nothing has been accepted or committed in between. -/
structure SameRanges (past past' : List Call) : Prop where
  accepted : acceptedRanges past' = acceptedRanges past
  committed : committedEnds past' = committedEnds past

theorem sameRanges_refl (past : List Call) : SameRanges past past := ⟨rfl, rfl⟩

theorem SameRanges.trans {past past' past'' : List Call} (h : SameRanges past past')
    (h' : SameRanges past' past'') : SameRanges past past'' :=
  ⟨h'.accepted.trans h.accepted, h'.committed.trans h.committed⟩

/-- A call that is neither accepted nor committed. -/
theorem SameRanges.cons {past past' : List Call} (h : SameRanges past past') {c : Call}
    (haccepted : acceptedRange c = none) (hcommitted : committedEnd c = none) :
    SameRanges past (c :: past') := by
  refine ⟨Eq.trans ?_ h.accepted, Eq.trans ?_ h.committed⟩
  · rw [acceptedRanges, haccepted]
    exact List.append_nil _
  · rw [committedEnds, hcommitted]
    exact List.append_nil _

theorem sameRanges_of_aside {past past' : List Call} {op : Op} {r : Except Error (Reply op)}
    (hop : Aside op) (h : SameRanges past past') :
    SameRanges past (⟨op, r⟩ :: past') ∧ failedQuery (⟨op, r⟩ :: past') = none := by
  refine ⟨h.cons ?_ ?_, ?_⟩ <;> cases op <;> first | rfl | exact hop.elim

/-! ## The calls of the parts -/

theorem calls_check (p : Bool) (message : String) : Calls Aside (check p message) := by
  cases p <;> trivial

theorem calls_blockOf (seen : Seen) (number : Nat) : Calls Aside (blockOf seen number) := by
  unfold blockOf
  split
  · trivial
  · refine calls_bind ⟨trivial, fun _ => trivial⟩ fun block => ?_
    exact calls_bind trivial fun _ => calls_bind (calls_check _ _) fun _ => trivial

theorem calls_transactionOf (seen : Seen) (hash : String) : Calls Aside (transactionOf seen hash) := by
  unfold transactionOf
  split
  · trivial
  · exact ⟨trivial, fun _ => trivial⟩

theorem calls_decodeLogs (crates : Crates) (start stop : Nat) (seen : Seen) (logs : List RpcLog) :
    Calls Aside (decodeLogs crates start stop seen logs) := by
  induction logs generalizing seen with
  | nil => trivial
  | cons log logs ih =>
      refine calls_bind trivial fun located => calls_bind (calls_check _ _) fun _ => ?_
      refine calls_bind (calls_blockOf _ _) fun block => calls_bind trivial fun _ => ?_
      refine calls_bind (calls_transactionOf _ _) fun tx => calls_bind trivial fun event => ?_
      exact calls_bind (ih _) fun _ => trivial

theorem calls_adjustEvent (event : LegacyOrmPEvent) :
    Calls Aside (RecoveryStore.adjustEvent event) := by
  cases event with
  | messageAccepted e =>
      refine calls_bind (calls_bind ⟨trivial, fun _ => trivial⟩ fun _ => calls_check _ _) fun _ => ?_
      refine calls_bind ⟨trivial, fun _ => trivial⟩ fun metadata => ?_
      cases metadata <;> trivial
  | messageAssigned e =>
      refine calls_bind trivial fun _ => calls_bind ⟨trivial, fun _ => trivial⟩ fun ids => ?_
      refine calls_bind (calls_check _ _) fun _ => ?_
      cases ids <;> trivial
  | _ => trivial

theorem calls_adjustEvents (events : List LegacyOrmPEvent) :
    Calls Aside (RecoveryStore.adjustEvents events) := by
  induction events with
  | nil => trivial
  | cons event events ih =>
      exact calls_bind (calls_adjustEvent event) fun _ => calls_bind ih fun _ => trivial

/-! ## The inner loop -/

section

variable {G : List Call → Op → Prop} {cursor : Nat}

theorem wp_logs_records {toBlock : Nat} {Q : Except Error (List RpcLog) → List Call → Prop}
    {E : Error → List Call → Prop} {past : List Call} (hG : G past (.getLogs cursor toBlock))
    (hok : ∀ logs past', acceptedRanges past' = acceptedRanges past ++ [⟨cursor, toBlock⟩] →
      committedEnds past' = committedEnds past → failedQuery past' = none → Q (.ok logs) past')
    (herror : ∀ error past', SameRanges past past' → failedQuery past' = some ⟨cursor, toBlock⟩ →
      Q (.error error) past') :
    Wp Records G Q E (TronRpc.logs cursor toBlock).attempt past := by
  refine wp_attempt.mpr (wp_bind.mpr (wp_await.mpr ⟨hG, ?_, ?_⟩))
  · rintro logs _ rfl
    refine wp_bind.mpr (wp_ofExcept.mpr ⟨fun _ hlength => ?_, fun error hlength => ?_⟩)
    · have hlength : logs.length < 10000 := of_decide_eq_true (ensure_eq_ok.mp hlength)
      have haccepted : acceptedRange ⟨.getLogs cursor toBlock, .ok logs⟩ =
          some ⟨cursor, toBlock⟩ := if_pos hlength
      refine hok logs _ ?_ ?_ ?_
      · rw [acceptedRanges, haccepted]
        rfl
      · exact List.append_nil _
      · rw [failedQuery, haccepted]
        rfl
    · have haccepted : acceptedRange ⟨.getLogs cursor toBlock, .ok logs⟩ = none := by
        refine if_neg fun hshort => ?_
        rw [decide_eq_true hshort] at hlength
        cases hlength
      refine herror error _ ((sameRanges_refl past).cons haccepted rfl) ?_
      rw [failedQuery, haccepted]
      rfl
  · rintro error _ rfl
    exact herror error _ ((sameRanges_refl past).cons rfl rfl) rfl

/-- The loop ends with the logs of a range from the cursor on, or after a query for the block at the cursor. -/
theorem wp_fetchLogs_records {Q : List RpcLog × Nat → List Call → Prop}
    {E : Error → List Call → Prop} {start : List Call} (fuel : Nat) {rangeEnd : Nat}
    {past : List Call} (hle : cursor ≤ rangeEnd) (hfuel : rangeEnd - cursor ≤ fuel)
    (hsame : SameRanges start past) (hG : ∀ past' op, SameRanges start past' → G past' op)
    (hQ : ∀ logs stop past', acceptedRanges past' = acceptedRanges start ++ [⟨cursor, stop⟩] →
      committedEnds past' = committedEnds start → failedQuery past' = none → cursor ≤ stop →
      stop ≤ rangeEnd → Q (logs, stop) past')
    (hE : ∀ error past', SameRanges start past' → failedQuery past' = some ⟨cursor, cursor⟩ →
      E error past') :
    Wp Records G Q E (fetchLogs cursor fuel rangeEnd) past := by
  induction fuel generalizing rangeEnd past with
  | zero =>
      obtain rfl : rangeEnd = cursor := by omega
      rw [fetchLogs]
      refine wp_bind.mpr (wp_logs_records (hG past _ hsame) ?_ ?_)
      · intro logs past' haccepted hcommitted hnone
        exact hQ logs _ past' (haccepted.trans (by rw [hsame.accepted]))
          (hcommitted.trans hsame.committed) hnone (Nat.le_refl _) (Nat.le_refl _)
      · intro error past' hsame' hfailed
        dsimp only
        rw [if_pos rfl]
        exact hE _ past' (hsame.trans hsame') hfailed
  | succ fuel ih =>
      rw [fetchLogs]
      refine wp_bind.mpr (wp_logs_records (hG past _ hsame) ?_ ?_)
      · intro logs past' haccepted hcommitted hnone
        exact hQ logs _ past' (haccepted.trans (by rw [hsame.accepted]))
          (hcommitted.trans hsame.committed) hnone hle (Nat.le_refl _)
      · intro error past' hsame' hfailed
        dsimp only
        split
        · rename_i hone
          rw [hone] at hfailed
          exact hE _ past' (hsame.trans hsame') hfailed
        · refine ih (by omega) (by omega) (hsame.trans hsame') fun logs stop past'' haccepted
            hcommitted hnone hstart hstop => ?_
          exact hQ logs stop past'' haccepted hcommitted hnone hstart (by omega)

end

/-! ## The outer loop -/

/-- The accepted ranges tile the blocks from `start` up to `next`, and what has been committed are their ends, in
their order. -/
structure Scanned (start stop batchSize : Nat) (past : List Call) (next : Nat) : Prop where
  tiles : Tiles BlockRange.fromBlock BlockRange.toBlock start (acceptedRanges past) next
  bounded : ∀ r ∈ acceptedRanges past, r.toBlock < r.fromBlock + batchSize ∧ r.toBlock ≤ stop
  committed : committedEnds past <+: (acceptedRanges past).map (·.toBlock + 1)

/-- With a store every accepted range has been committed. -/
def CaughtUp (store : Bool) (past : List Call) : Prop :=
  committedEnds past = if store then (acceptedRanges past).map (·.toBlock + 1) else []

section

variable {start stop batchSize next : Nat} {past past' : List Call}

theorem Scanned.congr (h : Scanned start stop batchSize past next) (hsame : SameRanges past past') :
    Scanned start stop batchSize past' next := by
  refine ⟨?_, ?_, ?_⟩
  · rw [hsame.accepted]
    exact h.tiles
  · rw [hsame.accepted]
    exact h.bounded
  · rw [hsame.accepted, hsame.committed]
    exact h.committed

/-- One more range has been accepted. -/
theorem Scanned.accept (h : Scanned start stop batchSize past next) {toBlock : Nat}
    (haccepted : acceptedRanges past' = acceptedRanges past ++ [⟨next, toBlock⟩])
    (hcommitted : committedEnds past' = committedEnds past) (hle : next ≤ toBlock)
    (hbatch : toBlock < next + batchSize) (hstop : toBlock ≤ stop) :
    Scanned start stop batchSize past' (toBlock + 1) where
  tiles := by
    rw [haccepted]
    exact Tiles.concat (i := (⟨next, toBlock⟩ : BlockRange)) h.tiles hle
  bounded r hr := by
    rw [haccepted] at hr
    rcases List.mem_append.mp hr with hr | hr
    · exact h.bounded r hr
    · obtain rfl := List.mem_singleton.mp hr
      exact ⟨hbatch, hstop⟩
  committed := by
    rw [haccepted, hcommitted, List.map_append]
    exact h.committed.trans (List.prefix_append _ _)

variable {store : Bool}

/-- What holds of the calls of a scan that has not ended. -/
def Scanning (start stop batchSize : Nat) (past : List Call) (_ : Op) : Prop :=
  ∃ next, next ≤ stop + 1 ∧ Scanned start stop batchSize past next

/-- What holds of the calls of a scan that ended with an error. -/
def Aborted (start stop batchSize : Nat) (_ : Error) (past : List Call) : Prop :=
  ∃ next, next ≤ stop + 1 ∧ Scanned start stop batchSize past next ∧
    ∀ r, failedQuery past = some r → r = ⟨next, next⟩

theorem records_aside {start' : List Call} {op : Op} (hop : Aside op)
    (h : SameRanges start' past ∧ failedQuery past = none) {r : Except Error (Reply op)}
    (hrecords : Records past op r past') : SameRanges start' past' ∧ failedQuery past' = none := by
  obtain rfl := hrecords
  exact sameRanges_of_aside hop h.1

/-- The parts between a query and its commit. -/
theorem wp_aside {α : Type} {t : Async α} (ht : Calls Aside t) {Q : α → List Call → Prop}
    (hscanned : Scanned start stop batchSize past next) (hnext : next ≤ stop + 1)
    (hnone : failedQuery past = none)
    (hQ : ∀ a past', SameRanges past past' → failedQuery past' = none → Q a past') :
    Wp Records (Scanning start stop batchSize) Q (Aborted start stop batchSize) t past := by
  refine ht.wp (A := fun past' => SameRanges past past' ∧ failedQuery past' = none)
    (fun past' op hop h => ⟨⟨next, hnext, hscanned.congr h.1⟩, fun r past'' => records_aside hop h⟩)
    (fun a past' h => hQ a past' h.1 h.2) (fun e past' h => ?_) ⟨sameRanges_refl past, hnone⟩
  refine ⟨next, hnext, hscanned.congr h.1, fun r hr => ?_⟩
  rw [h.2] at hr
  cases hr

theorem wp_commit_records {events : List LegacyOrmPEvent} {Q : Unit → List Call → Prop}
    (hscanned : Scanned start stop batchSize past next) (hnext : next ≤ stop + 1)
    (hnone : failedQuery past = none)
    (hQ : ∀ past', acceptedRanges past' = acceptedRanges past →
      committedEnds past' = committedEnds past ++ [next] → Q () past') :
    Wp Records (Scanning start stop batchSize) Q (Aborted start stop batchSize)
      (RecoveryStore.commit events next) past := by
  refine wp_bind.mpr (wp_aside (calls_adjustEvents events) hscanned hnext hnone ?_)
  intro adjusted past' hsame _
  refine wp_bind.mpr (wp_mapError.mpr (wp_await.mpr ⟨⟨next, hnext, hscanned.congr hsame⟩, ?_, ?_⟩))
  · rintro written _ rfl
    refine hQ _ ?_ ?_
    · rw [acceptedRanges, hsame.accepted]
      exact List.append_nil _
    · rw [committedEnds, hsame.committed]
      rfl
  · rintro error _ rfl
    exact ⟨next, hnext, hscanned.congr (hsame.cons rfl rfl), fun _ hr => nomatch hr⟩

/-- The loop accepts and commits range after range. -/
theorem wp_recoverRanges_records (crates : Crates) (hmax : stop ≤ u64Max) (hbatch : 0 < batchSize)
    (fuel : Nat) (ranges count : Nat) (hnext : next ≤ stop + 1) (hfuel : stop + 1 - next ≤ fuel)
    (hscanned : Scanned start stop batchSize past next) (hcaught : CaughtUp store past) :
    Wp Records (Scanning start stop batchSize)
      (fun _ past' => Scanned start stop batchSize past' (stop + 1) ∧ CaughtUp store past')
      (Aborted start stop batchSize)
      (recoverRanges crates store stop batchSize fuel next ranges count) past := by
  induction fuel generalizing next ranges count past with
  | zero =>
      obtain rfl : next = stop + 1 := by omega
      exact ⟨hscanned, hcaught⟩
  | succ fuel ih =>
      rw [recoverRanges]
      split
      · rename_i hle
        have hend : next ≤ min (saturatingAdd next (batchSize - 1)) stop := by
          unfold saturatingAdd
          exact Nat.le_min.mpr ⟨Nat.le_min.mpr ⟨Nat.le_add_right _ _, hle.trans hmax⟩, hle⟩
        have hbound : min (saturatingAdd next (batchSize - 1)) stop < next + batchSize := by
          have : saturatingAdd next (batchSize - 1) ≤ next + (batchSize - 1) := Nat.min_le_left _ _
          omega
        refine wp_bind.mpr (wp_fetchLogs_records _ hend (Nat.le_refl _) (sameRanges_refl past)
          (fun past' _ hsame => ⟨next, hnext, hscanned.congr hsame⟩) ?_ ?_)
        · intro logs toBlock past₁ haccepted hcommitted hnone hstart htoBlock
          have hstop : toBlock ≤ stop := htoBlock.trans (Nat.min_le_right _ _)
          have hscanned₁ := hscanned.accept haccepted hcommitted hstart (by omega) hstop
          refine wp_bind.mpr (wp_aside (calls_decodeLogs crates _ _ _ _) hscanned₁ (by omega) hnone ?_)
          intro events past₂ hsame hnone₂
          have hscanned₂ := hscanned₁.congr hsame
          refine wp_bind.mpr (wp_ofExcept.mpr ⟨fun next' hnext' => ?_, fun error _ => ?_⟩)
          · obtain ⟨rfl, _⟩ := checkedAdd_eq_some.mp (contextOption_eq_ok.mp hnext')
            have hranges : acceptedRanges past₂ = acceptedRanges past ++ [⟨next, toBlock⟩] :=
              hsame.accepted.trans haccepted
            have hends : committedEnds past₂ = committedEnds past :=
              hsame.committed.trans hcommitted
            cases store with
            | false => exact ih _ _ (by omega) (by omega) hscanned₂ (hends.trans hcaught)
            | true =>
                refine wp_bind.mpr (wp_commit_records hscanned₂ (by omega) hnone₂ ?_)
                intro past₃ haccepted₃ hcommitted₃
                have hcaught : committedEnds past = (acceptedRanges past).map (·.toBlock + 1) :=
                  hcaught
                have hcaught₃ : committedEnds past₃ = (acceptedRanges past₃).map (·.toBlock + 1) := by
                  rw [haccepted₃, hcommitted₃, hranges, hends, hcaught, List.map_append]
                  rfl
                refine ih _ _ (by omega) (by omega) ⟨?_, ?_, ?_⟩ hcaught₃
                · rw [haccepted₃]
                  exact hscanned₂.tiles
                · rw [haccepted₃]
                  exact hscanned₂.bounded
                · rw [hcaught₃]
          · exact ⟨toBlock + 1, by omega, hscanned₂, fun r hr => by rw [hnone₂] at hr; cases hr⟩
        · intro error past' hsame hfailed
          refine ⟨next, hnext, hscanned.congr hsame, fun r hr => ?_⟩
          rw [hfailed] at hr
          exact (Option.some.inj hr).symm
      · obtain rfl : next = stop + 1 := by omega
        exact ⟨hscanned, hcaught⟩

end

/-! ## The loops end -/

/-- `recoverRanges` without the check of its addition. -/
def recoverUnchecked (crates : Crates) (store : Bool) (stop batchSize : Nat) :
    Nat → Nat → Nat → Nat → Async (Nat × Nat)
  | 0, _, ranges, count => return (ranges, count)
  | fuel + 1, cursor, ranges, count =>
      if cursor ≤ stop then do
        let rangeEnd := min (cursor + (batchSize - 1)) stop
        let (logs, rangeEnd) ← fetchLogs cursor (rangeEnd - cursor) rangeEnd
        let events ← decodeRange crates (sortLogs logs) cursor rangeEnd
        if store then RecoveryStore.commit events (rangeEnd + 1)
        recoverUnchecked crates store stop batchSize fuel (rangeEnd + 1) (ranges + 1)
          (count + events.length)
      else return (ranges, count)

theorem returns_fetchLogs {cursor fuel rangeEnd : Nat} (hle : cursor ≤ rangeEnd) :
    Returns (fun found => cursor ≤ found.2 ∧ found.2 ≤ rangeEnd) (fetchLogs cursor fuel rangeEnd) := by
  induction fuel generalizing rangeEnd with
  | zero =>
      rw [fetchLogs]
      refine returns_bind.mpr (returns_of_forall (fun answer => ?_) _)
      cases answer with
      | ok logs => exact ⟨hle, Nat.le_refl _⟩
      | error e =>
          dsimp only
          split <;> trivial
  | succ fuel ih =>
      rw [fetchLogs]
      refine returns_bind.mpr (returns_of_forall (fun answer => ?_) _)
      cases answer with
      | ok logs => exact ⟨hle, Nat.le_refl _⟩
      | error e =>
          dsimp only
          split
          · trivial
          · have hhalf : cursor ≤ cursor + (rangeEnd - cursor) / 2 := by omega
            refine (ih hhalf).imp fun found h => ?_
            exact ⟨h.1, by omega⟩

/-- No addition overflows, and the number of blocks that are left is fuel enough. -/
theorem recoverRanges_eq_unchecked (crates : Crates) (store : Bool) {stop batchSize : Nat}
    (hmax : stop < u64Max) {fuel fuel' next : Nat} (ranges count : Nat)
    (h : stop + 1 - next ≤ fuel) (h' : stop + 1 - next ≤ fuel') :
    recoverRanges crates store stop batchSize fuel next ranges count =
      recoverUnchecked crates store stop batchSize fuel' next ranges count := by
  induction fuel generalizing fuel' next ranges count with
  | zero =>
      have hnext : ¬next ≤ stop := by omega
      cases fuel' with
      | zero => rfl
      | succ fuel' =>
          rw [recoverUnchecked, if_neg hnext]
          rfl
  | succ fuel ih =>
      by_cases hnext : next ≤ stop
      · obtain ⟨fuel', rfl⟩ : ∃ n, fuel' = n + 1 := ⟨fuel' - 1, by omega⟩
        have hend : min (saturatingAdd next (batchSize - 1)) stop = min (next + (batchSize - 1)) stop := by
          unfold saturatingAdd
          rw [Nat.min_assoc, Nat.min_eq_right hmax.le]
        rw [recoverRanges, recoverUnchecked, if_pos hnext, if_pos hnext, hend]
        refine (returns_fetchLogs (Nat.le_min.mpr ⟨Nat.le_add_right _ _, hnext⟩)).bind_congr ?_
        rintro ⟨logs, toBlock⟩ ⟨hstart, hstop⟩
        have hstop : toBlock ≤ stop := hstop.trans (Nat.min_le_right _ _)
        have hchecked : checkedAdd toBlock 1 = some (toBlock + 1) :=
          checkedAdd_eq_some.mpr ⟨rfl, by omega⟩
        have hsome : ∀ message, contextOption message (some (toBlock + 1)) = .ok (toBlock + 1) :=
          fun _ => rfl
        have hrest : ∀ n, recoverRanges crates store stop batchSize fuel (toBlock + 1) (ranges + 1) n =
            recoverUnchecked crates store stop batchSize fuel' (toBlock + 1) (ranges + 1) n :=
          fun n => ih _ _ (by omega) (by omega)
        simp only [hchecked, hsome, Task.ofExcept, done_ok_bind, hrest]
      · rw [recoverRanges, if_neg hnext]
        cases fuel' with
        | zero => rfl
        | succ fuel' => rw [recoverUnchecked, if_neg hnext]

/-- **The scan ends and tiles its range.** Whatever the node and the database answer: more fuel changes
nothing, no addition overflows, and after any number of answers the accepted ranges tile the blocks from
`start` on. If the scan has ended with an error after a query, that was for the one block behind them. -/
theorem recover_tiles (crates : Crates) (store : Bool) {start stop batchSize : Nat}
    (hle : start ≤ stop) (hmax : stop < u64Max) (hbatch : 1 ≤ batchSize) :
    (∀ fuel, stop + 1 - start ≤ fuel →
      recoverRanges crates store stop batchSize fuel start 0 0 =
        recover crates store start stop batchSize) ∧
    (∀ cursor rangeEnd fuel, cursor ≤ rangeEnd → rangeEnd - cursor ≤ fuel →
      fetchLogs cursor fuel rangeEnd = fetchLogs cursor (rangeEnd - cursor) rangeEnd) ∧
    recover crates store start stop batchSize =
      recoverUnchecked crates store stop batchSize (stop + 1 - start) start 0 0 ∧
    ∀ past t, Reaches Records ([], recover crates store start stop batchSize) (past, t) →
      ∃ next, next ≤ stop + 1 ∧
        Tiles BlockRange.fromBlock BlockRange.toBlock start (acceptedRanges past) next ∧
        (∀ r ∈ acceptedRanges past, r.toBlock < r.fromBlock + batchSize ∧ r.toBlock ≤ stop) ∧
        committedEnds past <+: (acceptedRanges past).map (·.toBlock + 1) ∧
        (∀ result, t = .done (.ok result) → next = stop + 1) ∧
        ∀ error, t = .done (.error error) →
          ∀ r, failedQuery past = some r → r = ⟨next, next⟩ := by
  have hunchecked : ∀ fuel, stop + 1 - start ≤ fuel →
      recoverRanges crates store stop batchSize fuel start 0 0 =
        recoverUnchecked crates store stop batchSize (stop + 1 - start) start 0 0 :=
    fun fuel hfuel => recoverRanges_eq_unchecked crates store hmax 0 0 hfuel (Nat.le_refl _)
  have hrecover := hunchecked _ (Nat.le_refl _)
  refine ⟨fun fuel hfuel => (hunchecked fuel hfuel).trans hrecover.symm, ?_, hrecover, ?_⟩
  · exact fun cursor rangeEnd fuel hcursor hfuel =>
      fetchLogs_congr_fuel hfuel (Nat.le_refl _) hcursor
  intro past t hreaches
  have hstart : Scanned start stop batchSize [] start :=
    ⟨.nil, nofun, List.nil_prefix⟩
  have hnothing : CaughtUp store [] := by cases store <;> rfl
  have hwp := (wp_recoverRanges_records crates hmax.le hbatch _ 0 0 (by omega) (Nat.le_refl _)
    hstart hnothing).reaches hreaches
  match t with
  | .done (.ok result) =>
      obtain ⟨hscanned, _⟩ := hwp
      exact ⟨_, Nat.le_refl _, hscanned.tiles, hscanned.bounded, hscanned.committed,
        fun _ _ => rfl, nofun⟩
  | .done (.error error) =>
      obtain ⟨next, hnext, hscanned, hfailed⟩ := hwp
      exact ⟨next, hnext, hscanned.tiles, hscanned.bounded, hscanned.committed,
        nofun, fun _ _ => hfailed⟩
  | .call op f =>
      obtain ⟨next, hnext, hscanned⟩ := hwp.1
      exact ⟨next, hnext, hscanned.tiles, hscanned.bounded, hscanned.committed,
        nofun, nofun⟩

/-- A node without logs that fails on ranges of more than two blocks, and a scan that records its calls. -/
def narrowReply (past : List Call) : (op : Op) → Except Error (Reply op) × List Call
  | .getLogs fromBlock toBlock =>
      let r : Except Error (List RpcLog) :=
        if fromBlock + 2 ≤ toBlock then .error ["query timeout"] else .ok []
      (r, ⟨.getLogs fromBlock toBlock, r⟩ :: past)
  | op => (.error ["unexpected call"], ⟨op, .error ["unexpected call"]⟩ :: past)

theorem records_narrowReply (past : List Call) (op : Op) :
    Records past op (narrowReply past op).1 (narrowReply past op).2 := by
  cases op <;> rfl

/-- Four blocks in two ranges, after the query for all four has failed. -/
theorem recover_tiles_narrow :
    ∃ past, acceptedRanges past = [⟨5, 6⟩, ⟨7, 8⟩] ∧
      ∃ next, next = 9 ∧
        Tiles BlockRange.fromBlock BlockRange.toBlock 5 (acceptedRanges past) next := by
  set ending := (recover wordCrates false 5 8 4).eval narrowReply [] with hend
  have hresult : ending.1 = .ok (2, 0) := by decide +kernel
  have hreaches := reaches_eval records_narrowReply (recover wordCrates false 5 8 4) []
  rw [← hend, hresult] at hreaches
  obtain ⟨next, _, htiles, _, _, hok, _⟩ :=
    (recover_tiles wordCrates false (by decide) (by decide) (by decide)).2.2.2 _ _ hreaches
  exact ⟨ending.2, by decide +kernel, next, hok _ rfl, htiles⟩

end TronRecovery

end OrmpIndexer
