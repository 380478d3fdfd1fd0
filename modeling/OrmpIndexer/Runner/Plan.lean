/-
# OrmpIndexer.Runner.Plan — the loop and the query planner

The same interval of blocks is cut twice in the source: by `plan_evm_log_queries` in one go, and by the loop
of a pass, one range at a time from the checkpoint on. Both cut the last range off at the target. The planner
adds a batch to the start with saturation; the loop adds it with `checked_add`, and before the end is cut
off. So the two agree unless the last batch, uncut, goes beyond `u64::MAX`: the planner then still lists a
query for it, and the pass ends with an error (`run_follows_planner_iff`).

The mode is `finalized`, where a pass makes no other queries; the reader serves in full, and nothing fails.
-/
import OrmpIndexer.Planner.Partition
import OrmpIndexer.Runner.Queries
import OrmpIndexer.Runner.Writers

namespace OrmpIndexer

open Foundation Foundation.Task

/-! ## Cutting an interval into batches -/

/-- The batch that holds the target ends at a `u64`, also before it is cut off. -/
def LastRangeFits (batchSize first targetBlock : Nat) : Prop :=
  first + batchSize * ((targetBlock - first) / batchSize) + (batchSize - 1) ≤ u64Max

instance (batchSize first targetBlock : Nat) :
    Decidable (LastRangeFits batchSize first targetBlock) :=
  inferInstanceAs (Decidable (_ ≤ _))

section

variable {batchSize first targetBlock : Nat}

/-- If the first batch holds the target, it is the last. -/
theorem lastRangeFits_iff_first (hle : first ≤ targetBlock) (hlast : targetBlock < first + batchSize) :
    LastRangeFits batchSize first targetBlock ↔ first + (batchSize - 1) ≤ u64Max := by
  rw [LastRangeFits, Nat.div_eq_of_lt (by omega), Nat.mul_zero, Nat.add_zero]

/-- Otherwise the last batch is that of the rest. -/
theorem lastRangeFits_iff_rest (hbatch : 0 < batchSize) (hrest : first + batchSize ≤ targetBlock) :
    LastRangeFits batchSize first targetBlock ↔
      LastRangeFits batchSize (first + batchSize) targetBlock := by
  have hdiv : (targetBlock - first) / batchSize =
      (targetBlock - (first + batchSize)) / batchSize + 1 := by
    rw [Nat.div_eq_sub_div hbatch (by omega), Nat.sub_add_eq]
  have hstart : first + batchSize * ((targetBlock - first) / batchSize) =
      first + batchSize + batchSize * ((targetBlock - (first + batchSize)) / batchSize) := by
    rw [hdiv, Nat.mul_add_one]
    omega
  rw [LastRangeFits, LastRangeFits, hstart]

end

namespace Runner

variable {Env : Type}

/-- The range of the loop at a checkpoint. -/
def batchRange (chain : ChainConfig) (targetBlock first : Nat) : BlockRange where
  fromBlock := first
  toBlock := min (first + (chain.batchSize - 1)) targetBlock

section

variable {chain : ChainConfig} {targetBlock first : Nat}

theorem batchRange_last (hle : first ≤ targetBlock) (hlast : targetBlock < first + chain.batchSize) :
    (batchRange chain targetBlock first).toBlock = targetBlock := by
  show min (first + (chain.batchSize - 1)) targetBlock = targetBlock
  omega

theorem batchRange_rest (hbatch : chain.batchSize ≠ 0) (hrest : first + chain.batchSize ≤ targetBlock) :
    (batchRange chain targetBlock first).toBlock + 1 = first + chain.batchSize := by
  show min (first + (chain.batchSize - 1)) targetBlock + 1 = _
  omega

/-- The query of the loop is the planner's for the range with the same end. -/
theorem logQuery_batchRange {stop : Nat} (h : (batchRange chain targetBlock first).toBlock = stop) :
    logQuery chain (batchRange chain targetBlock first) =
      (plannedRange chain chain.finalityMode first stop).query := by
  subst h
  rfl

end

/-! ## The pass, executed -/

/-- The reader is at this head, and serves every log query in full, with logs that decode. -/
structure ServesInFull (decoder : EventDecoder) (chain : ChainConfig) (latestBlock : Nat)
    (reader : World Env → (op : Op) → Except Error (Reply op)) : Prop where
  head : ∀ w, reader w (headOp chain) = .ok latestBlock
  logs : ∀ w query, ∃ result, reader w (.queryLogs query) = .ok result ∧
    result.servedStart = some query.fromBlock ∧
    (∃ servedEnd, result.servedEnd = some servedEnd ∧ query.toBlock ≤ servedEnd) ∧
    result.incompleteReason = none ∧ ∃ events, decodeAll decoder result.logs = .ok events

section

variable {ix : Indexer} {reader : World Env → (op : Op) → Except Error (Reply op)}
variable {chain : ChainConfig} {latestBlock targetBlock : Nat} (dataset : String)

/-- A range that is served in full is committed, and the pass goes on. -/
theorem eval_processRange_served (served : ServesInFull ix.decoder chain latestBlock reader)
    (hmode : chain.finalityMode = .finalized) {range : BlockRange} (hmax : range.toBlock < u64Max)
    (w : World Env) : ∃ report w', (processRange chain dataset range).eval (simulate ix reader) w =
        (.ok report, w') ∧
      report.nextBlock = range.toBlock + 1 ∧ report.stopPoll = false ∧
      nextBlock chain dataset w'.db = range.toBlock + 1 ∧
      logQueries w'.past = logQueries w.past ++ [logQuery chain range] := by
  obtain ⟨result, hlogs, hstart, ⟨servedEnd, hend, hfull⟩, hcomplete, events, hdecoded⟩ :=
    served.logs w (logQuery chain range)
  have hmin : min servedEnd range.toBlock = range.toBlock := Nat.min_eq_right hfull
  obtain ⟨w₁, hdecode⟩ := eval_decodeLogs reader
    (w.record ix.postgres (.queryLogs (logQuery chain range)) (.ok result)) hdecoded
  have hanchors : (blockAnchorsForRange chain dataset (servedTo range servedEnd) result.logs).eval
      (simulate ix reader) w₁ =
        (.ok (some (blockAnchorsFromLogs chain.chainId dataset chain.finalityMode result.logs)),
          w₁) := by
    unfold blockAnchorsForRange
    rw [hmode]
    rfl
  obtain ⟨report, heval, hnext, hstop⟩ := eval_processRange hlogs hstart hend hdecode
    (by omega) hanchors
  refine ⟨report, _, heval, hnext.trans (by rw [hmin]), ?_, ?_, ?_⟩
  · rw [hstop, hcomplete, hmin]
    simp
  · show nextBlock chain dataset
      (ix.postgres.writeEventsAndAdvanceCheckpoint _ _ _ _ _ (min servedEnd range.toBlock + 1)) = _
    rw [nextBlock_commit, hmin]
  · have hserves : ∀ w op, Serves ix AnyAnswer w op (simulate ix reader w op).1
        (simulate ix reader w op).2 := fun w op => serves_simulate (fun _ _ _ _ => trivial) w op
    exact (wp_asked.eval hserves heval).queries

/-- One turn of the loop, if the batch fits. -/
theorem eval_turn (served : ServesInFull ix.decoder chain latestBlock reader)
    (hmode : chain.finalityMode = .finalized) (hlt : targetBlock < u64Max)
    (hbatch : chain.batchSize ≠ 0) {checkpoint : Checkpoint}
    (hle : checkpoint.nextBlock ≤ targetBlock)
    (hfits : checkpoint.nextBlock + (chain.batchSize - 1) ≤ u64Max) (fuel : Nat)
    (report : ChainRunReport) (w : World Env) : ∃ report' w',
      (runRanges chain dataset targetBlock (fuel + 1) checkpoint report false).eval
          (simulate ix reader) w =
        (runRanges chain dataset targetBlock fuel
          { checkpoint with nextBlock :=
              (batchRange chain targetBlock checkpoint.nextBlock).toBlock + 1 }
          report' false).eval (simulate ix reader) w' ∧
      nextBlock chain dataset w'.db =
        (batchRange chain targetBlock checkpoint.nextBlock).toBlock + 1 ∧
      logQueries w'.past = logQueries w.past ++
        [logQuery chain (batchRange chain targetBlock checkpoint.nextBlock)] := by
  have hplan : planNextRange checkpoint chain.batchSize = .ok
      ⟨checkpoint.nextBlock, checkpoint.nextBlock + (chain.batchSize - 1)⟩ := by
    rw [planNextRange, if_neg hbatch, checkedAdd, if_pos hfits]
    rfl
  have hmax : (batchRange chain targetBlock checkpoint.nextBlock).toBlock < u64Max :=
    Nat.lt_of_le_of_lt (Nat.min_le_right _ _) hlt
  obtain ⟨rangeReport, w', heval, hnext, hstop, hcheckpoint, hqueries⟩ :=
    eval_processRange_served dataset served hmode hmax w
  refine ⟨addRangeReport report rangeReport, w', ?_, hcheckpoint, hqueries⟩
  rw [runRanges, if_pos ⟨hle, rfl⟩, hplan, ← hnext, ← hstop]
  exact eval_bind_of_ok heval

/-- The loop from a checkpoint on, if all batches fit. -/
theorem eval_runRanges_of_fits (served : ServesInFull ix.decoder chain latestBlock reader)
    (hmode : chain.finalityMode = .finalized) (hlt : targetBlock < u64Max)
    (hbatch : chain.batchSize ≠ 0) {fuel : Nat} (checkpoint : Checkpoint)
    (hle : checkpoint.nextBlock ≤ targetBlock) (hfuel : targetBlock + 1 - checkpoint.nextBlock ≤ fuel)
    (hfits : LastRangeFits chain.batchSize checkpoint.nextBlock targetBlock)
    (report : ChainRunReport) (w : World Env) : ∃ report' w',
      (runRanges chain dataset targetBlock fuel checkpoint report false).eval (simulate ix reader) w =
        (.ok report', w') ∧
      nextBlock chain dataset w'.db = targetBlock + 1 ∧
      logQueries w'.past = logQueries w.past ++
        (planQueries chain targetBlock chain.batchSize chain.finalityMode checkpoint.nextBlock).map
          (·.query) := by
  induction fuel generalizing checkpoint report w with
  | zero => omega
  | succ fuel ih =>
      rcases Nat.lt_or_ge targetBlock (checkpoint.nextBlock + chain.batchSize) with hlast | hrest
      -- the last range ends at the target
      · have hend := batchRange_last hle hlast
        obtain ⟨report', w', heval, hcheckpoint, hqueries⟩ := eval_turn dataset served
          hmode hlt hbatch hle ((lastRangeFits_iff_first hle hlast).mp hfits) fuel report w
        refine ⟨report', w', ?_, hcheckpoint.trans (by rw [hend]), ?_⟩
        · rw [heval, runRanges_caughtUp]
          · rfl
          · show targetBlock < (batchRange chain targetBlock checkpoint.nextBlock).toBlock + 1
            omega
        · rw [hqueries, logQuery_batchRange hend, planQueries_last hle (Nat.le_of_lt hlt) hlast]
          rfl
      -- any other is a whole batch
      · have hend := batchRange_rest hbatch hrest
        obtain ⟨report', w', heval, -, hqueries⟩ := eval_turn dataset served
          hmode hlt hbatch hle (by omega) fuel report w
        have hfits' := (lastRangeFits_iff_rest (Nat.pos_of_ne_zero hbatch) hrest).mp hfits
        rw [planQueries_rest (Nat.le_of_lt hlt) (Nat.pos_of_ne_zero hbatch) hrest, List.map_cons,
          ← logQuery_batchRange (Nat.eq_sub_of_add_eq hend)]
        rw [← hend] at hfits' hrest ⊢
        obtain ⟨report'', w'', heval', hcheckpoint, hqueries'⟩ := ih ⟨_, _, _⟩ hrest
          (show targetBlock + 1 - (_ + 1) ≤ fuel by omega) hfits' report' w'
        refine ⟨report'', w'', heval.trans heval', hcheckpoint, ?_⟩
        rw [hqueries', hqueries, List.append_assoc]
        rfl

/-- If the last batch does not fit, the loop cannot plan it. -/
theorem eval_runRanges_of_not_fits (served : ServesInFull ix.decoder chain latestBlock reader)
    (hmode : chain.finalityMode = .finalized) (hlt : targetBlock < u64Max)
    (hbatch : chain.batchSize ≠ 0) {fuel : Nat} (checkpoint : Checkpoint)
    (hle : checkpoint.nextBlock ≤ targetBlock) (hfuel : targetBlock + 1 - checkpoint.nextBlock ≤ fuel)
    (hfits : ¬LastRangeFits chain.batchSize checkpoint.nextBlock targetBlock)
    (report : ChainRunReport) (w : World Env) : ∃ message w',
      (runRanges chain dataset targetBlock fuel checkpoint report false).eval (simulate ix reader) w =
        (.error [message, "checkpoint range overflow"], w') := by
  induction fuel generalizing checkpoint report w with
  | zero => omega
  | succ fuel ih =>
      rcases Nat.lt_or_ge targetBlock (checkpoint.nextBlock + chain.batchSize) with hlast | hrest
      · rw [lastRangeFits_iff_first hle hlast] at hfits
        have hplan : planNextRange checkpoint chain.batchSize =
            .error ["checkpoint range overflow"] := by
          rw [planNextRange, if_neg hbatch, checkedAdd, if_neg hfits]
          rfl
        refine ⟨s!"plan ORMP checkpoint range chain_id={chain.chainId} dataset={dataset} checkpoint_next_block={checkpoint.nextBlock} batch_size={chain.batchSize}",
          w, ?_⟩
        rw [runRanges, if_pos ⟨hle, rfl⟩, hplan]
        exact eval_bind_of_error rfl
      · rw [lastRangeFits_iff_rest (Nat.pos_of_ne_zero hbatch) hrest] at hfits
        have hend := batchRange_rest hbatch hrest
        obtain ⟨report', w', heval, -, -⟩ := eval_turn dataset served
          hmode hlt hbatch hle (by omega) fuel report w
        rw [← hend] at hfits hrest
        obtain ⟨e, w'', heval'⟩ := ih ⟨_, _, _⟩ hrest
          (show targetBlock + 1 - (_ + 1) ≤ fuel by omega) hfits report' w'
        exact ⟨e, w'', heval.trans heval'⟩

/-- `read_or_create` answers the first block that is not indexed. -/
theorem eval_readOrCreate (ix : Indexer)
    (reader : World Env → (op : Op) → Except Error (Reply op)) (chain : ChainConfig)
    (message : String) (db : Database) (env : Env) : ∃ w,
    (withContext message (readOrCreate chain.chainId dataset chain.startBlock)).eval
        (simulate ix reader) ⟨db, [], env⟩ =
      (.ok ⟨chain.chainId, dataset, nextBlock chain dataset db⟩, w) ∧ logQueries w.past = [] := by
  let inserted : World Env := World.record ix.postgres ⟨db, [], env⟩ (insertOp chain dataset) (.ok ())
  obtain ⟨stored, hstored⟩ :
      ∃ stored, inserted.db.checkpoint.get (chain.chainId, dataset) = some stored := by
    show ∃ stored, (Table.insertIfAbsent _ _).get _ = some stored
    rw [Table.get_insertIfAbsent]
    exact ⟨_, if_pos rfl⟩
  have hnext : stored.nextBlock = nextBlock chain dataset db :=
    (nextBlock_of_get hstored).symm.trans nextBlock_insert
  have hselect : reply ix reader inserted (.selectCheckpoint chain.chainId dataset) =
      .ok (nextBlock chain dataset db) := by
    simp only [reply, hstored, hnext]
  refine ⟨inserted.record ix.postgres (.selectCheckpoint chain.chainId dataset)
    (.ok (nextBlock chain dataset db)), eval_mapError_of_ok ?_, rfl⟩
  have hinsert : (await (insertOp chain dataset) : Async Unit).eval (simulate ix reader)
      ⟨db, [], env⟩ = (.ok (), inserted) := rfl
  have hread : (await (.selectCheckpoint chain.chainId dataset)).eval (simulate ix reader) inserted =
      (.ok (nextBlock chain dataset db), inserted.record ix.postgres
        (.selectCheckpoint chain.chainId dataset) (.ok (nextBlock chain dataset db))) := by
    show simulate ix reader inserted (.selectCheckpoint chain.chainId dataset) = _
    rw [simulate, hselect]
  exact (eval_bind_of_ok hinsert).trans (eval_bind_of_ok hread)

/-- Up to the loop, a pass in this mode reads its checkpoint and the head. -/
theorem eval_runChainOnce (config : RuntimeConfig) (env : Env)
    (served : ServesInFull ix.decoder chain latestBlock reader)
    (hmode : chain.finalityMode = .finalized) (hchecked : chain.Checked) {db : Database}
    (htarget : targetBlock = latestBlock - config.datalens.headBufferBlocks)
    (hle : nextBlock chain EVM_LOGS_DATASET db ≤ targetBlock) :
    ∃ (checkpoint : Checkpoint) (w : World Env),
      checkpoint.nextBlock = nextBlock chain EVM_LOGS_DATASET db ∧ logQueries w.past = [] ∧
      (runChainOnce config chain).eval (simulate ix reader) ⟨db, [], env⟩ =
        (do
          let report ← runRanges chain EVM_LOGS_DATASET targetBlock
            (targetBlock + 1 - checkpoint.nextBlock) checkpoint .default false
          return { report with
            chainsProcessed := if 0 < report.rangesQueried then 1 else report.chainsProcessed
            caughtUp := true } : Async ChainRunReport).eval (simulate ix reader) w := by
  subst htarget
  obtain ⟨w, hread, hnone⟩ := eval_readOrCreate EVM_LOGS_DATASET ix reader chain
    s!"read or create ORMP checkpoint chain_id={chain.chainId} dataset={EVM_LOGS_DATASET} start_block={chain.startBlock}" db env
  refine ⟨⟨chain.chainId, EVM_LOGS_DATASET, nextBlock chain EVM_LOGS_DATASET db⟩,
    w.record ix.postgres (headOp chain) (.ok latestBlock), rfl, hnone, ?_⟩
  have hcheck : ∀ checkpoint, (checkedCheckpoint config chain EVM_LOGS_DATASET checkpoint).eval
      (simulate ix reader) w = (.ok checkpoint, w) := by
    intro checkpoint
    unfold checkedCheckpoint
    rw [hmode]
    rfl
  rw [runChainOnce, hchecked.dataset]
  refine (eval_bind_of_ok (eval_ofExcept _ _)).trans ((eval_bind_of_ok hread).trans
    ((eval_bind_of_ok (hcheck _)).trans ?_))
  rw [runToHead, eval_bind_of_ok (eval_call (headOp chain) (served.head w))]
  dsimp only
  rw [if_neg (Nat.not_lt.mpr hle)]

end

/-- The pass asks for what the planner plans from the checkpoint to the target, in that order, and leaves
the checkpoint right after the target. -/
def FollowsPlanner (ix : Indexer) (reader : World Env → (op : Op) → Except Error (Reply op))
    (config : RuntimeConfig) (chain : ChainConfig) (targetBlock : Nat) (db : Database) (env : Env) :
    Prop :=
  ∃ report w plans,
    (runChainOnce config chain).eval (simulate ix reader) ⟨db, [], env⟩ = (.ok report, w) ∧
    planEvmLogQueries EVM_LOGS_DATASET chain (nextBlock chain EVM_LOGS_DATASET db) targetBlock
      chain.batchSize chain.finalityMode = .ok plans ∧
    logQueries w.past = plans.map (·.query) ∧
    nextBlock chain EVM_LOGS_DATASET w.db = targetBlock + 1

/-- **The run loop and the query planner.** In the `finalized` mode, with a reader that serves in full and
nothing that fails: a pass from a checkpoint up to a target below `u64::MAX` asks for the queries of the plan
and ends right after the target, exactly if the last batch, before it is cut off, ends at a `u64`. -/
theorem run_follows_planner_iff {ix : Indexer}
    {reader : World Env → (op : Op) → Except Error (Reply op)} {config : RuntimeConfig}
    {chain : ChainConfig} {latestBlock targetBlock : Nat}
    (served : ServesInFull ix.decoder chain latestBlock reader)
    (hmode : chain.finalityMode = .finalized) (hchecked : chain.Checked)
    (hcontracts : chain.contracts ≠ []) (htopics : chain.topics ≠ [])
    (htarget : targetBlock = latestBlock - config.datalens.headBufferBlocks)
    (hlt : targetBlock < u64Max) {db : Database} {env : Env}
    (hle : nextBlock chain EVM_LOGS_DATASET db ≤ targetBlock) :
    FollowsPlanner ix reader config chain targetBlock db env ↔
      LastRangeFits chain.batchSize (nextBlock chain EVM_LOGS_DATASET db) targetBlock := by
  obtain ⟨checkpoint, w, hfirst, hnone, heval⟩ :=
    eval_runChainOnce config env served hmode hchecked htarget hle
  rw [← hfirst] at hle
  constructor
  · rintro ⟨report, w', plans, hrun, -⟩
    by_contra hfits
    rw [← hfirst] at hfits
    obtain ⟨message, w'', hloop⟩ := eval_runRanges_of_not_fits EVM_LOGS_DATASET served
      hmode hlt hchecked.batchSize checkpoint hle le_rfl hfits .default w
    rw [heval, eval_bind_of_error hloop] at hrun
    cases hrun
  · intro hfits
    rw [← hfirst] at hfits
    obtain ⟨report, w', hloop, hcheckpoint, hqueries⟩ := eval_runRanges_of_fits
      EVM_LOGS_DATASET served hmode hlt hchecked.batchSize checkpoint hle le_rfl hfits .default w
    rw [hnone, List.nil_append, hfirst] at hqueries
    rw [hfirst] at hle
    refine ⟨_, w', _, heval.trans (eval_bind_of_ok hloop), ?_, hqueries, hcheckpoint⟩
    simp [planEvmLogQueries, ensure, Nat.pos_of_ne_zero hchecked.batchSize, hle, hcontracts, htopics]
    rfl

theorem servesInFull_servesUpTo (decoder : EventDecoder) (chain : ChainConfig) (head : Nat) :
    ServesInFull decoder chain head (servesUpTo head) where
  head _ := rfl
  logs _ query :=
    ⟨⟨[], some query.fromBlock, some query.toBlock, none⟩, rfl, rfl, ⟨_, rfl, le_rfl⟩, rfl, [], rfl⟩

/-- Darwinia with its defaults, eleven blocks from its start, 4 at a time. -/
theorem run_follows_planner_fours :
    FollowsPlanner hashIndexer (servesUpTo 2830111) ⟨⟨1⟩, [], 128⟩
      { byDefault 46 2830100 true with batchSize := 4 } 2830110 .empty () :=
  (run_follows_planner_iff (servesInFull_servesUpTo _ _ _) rfl ⟨rfl, by decide⟩ (by decide)
    (by decide) rfl (by decide) (by decide)).mpr (by decide)

/-- The largest batch there is. -/
def largestBatch : EnvMap := fun key =>
  if key = "ORMPINDEXER_ENABLED_CHAINS" then some "46"
  else if key = "ORMPINDEXER_BATCH_SIZE" then some "18446744073709551615"
  else none

def largestBatchChain : ChainConfig := { byDefault 46 2830100 true with batchSize := u64Max }

def largestBatchSettings : Settings :=
  { defaultSettings [largestBatchChain] with batchSize := u64Max }

/-- The configuration is accepted, and the planner lists one query for the eleven blocks; the pass ends
with an error before it asks for anything. -/
theorem largest_batch_not_planned :
    Settings.fromEnvMap largestBatch = .ok largestBatchSettings ∧
      ServesInFull hashIndexer.decoder largestBatchChain 2830111 (servesUpTo 2830111) ∧
      ¬FollowsPlanner hashIndexer (servesUpTo 2830111) largestBatchSettings.runtimeConfig
        largestBatchChain 2830110 .empty () := by
  refine ⟨by decide +kernel, servesInFull_servesUpTo _ _ _, ?_⟩
  rintro ⟨report, w, plans, hrun, -⟩
  have hfails : ((runChainOnce largestBatchSettings.runtimeConfig largestBatchChain).eval
      (simulate hashIndexer (servesUpTo 2830111)) ⟨.empty, [], ()⟩).1.isOk = false := by
    decide +kernel
  rw [hrun] at hfails
  cases hfails

end Runner

end OrmpIndexer
