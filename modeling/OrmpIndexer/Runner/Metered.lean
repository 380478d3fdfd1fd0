/-
# OrmpIndexer.Runner.Metered — a pass, and the loop around it, with what they report

`runner.rs` once more, with its calls of `crate::metrics` and its sleeps. They are asides: nothing in a pass
depends on them, and without them it is the pass of `OrmpIndexer.Runner` (`erase_runChainOnce`), the loop of a
chain that pass some number of times (`erase_runChainLoop`). So whatever `run_loop` does, the plain passes
side by side can do (`run_loop_refines`), and everything shown of those holds of it.

`run_chain_loop` never ends. `runChainLoop n` is its first `n` turns. A pass that fails is an error for the
loop only: it counts, sleeps, and goes on.
-/
import OrmpIndexer.Foundation.Asides
import OrmpIndexer.Metrics
import OrmpIndexer.Runner.Coverage
import OrmpIndexer.Runner.Writers

namespace OrmpIndexer

open Foundation Foundation.Task

def IncompleteReason.asStr : IncompleteReason → String
  | pending => "pending"
  | providerError => "provider_error"
  | budgetExhausted => "budget_exhausted"
  | notFollowedYet => "not_followed_yet"

namespace Runner

/-- What the runner does besides its calls. -/
inductive Aside where
  | record (chainId : Nat) (dataset : String) (note : Metrics.Note)
  | sleep (millis : Nat)
deriving DecidableEq, Repr

/-- A function of the runner with its asides. -/
abbrev Metered (α : Type) := Task (Op ⊕ Aside) (WithAsides Aside Reply) Error α

namespace Metered

/-- A call of `crate::metrics`. -/
def record (chainId : Nat) (dataset : String) (note : Metrics.Note) : Metered Unit :=
  Task.aside (.record chainId dataset note)

def sleep (millis : Nat) : Metered Unit := Task.aside (.sleep millis)

def warnStuckIncomplete (chainId : Nat) (dataset : String) : Option IncompleteReason → Metered Unit
  | some .providerError =>
      record chainId dataset (.incompleteServe IncompleteReason.providerError.asStr)
  | some .budgetExhausted =>
      record chainId dataset (.incompleteServe IncompleteReason.budgetExhausted.asStr)
  | _ => return ()

/-- A block query, reported before its error is given its context. -/
def queryBlocks (chainId : Nat) (dataset message : String) (query : DatalensBlockQuery) :
    Metered DatalensBlockQueryResult := do
  let result ← (await (Op.queryBlocks query)).attempt.lift
  record chainId dataset (.datalensRequest "blocks" result.isOk)
  Task.ofExcept (context message result)

def rollbackReorgedAnchors (config : RuntimeConfig) (chain : ChainConfig) (dataset : String)
    (checkpointNextBlock : Nat) : Metered (Option Nat) :=
  match checkedSub checkpointNextBlock 1 with
  | none => return none
  | some toBlock => do
      let finalized ← (finalizedHead chain.chainId).lift
      let fromBlock := windowStart config chain checkpointNextBlock finalized
      if toBlock < fromBlock then return none
      else do
        let anchors ← (withContext
          s!"read ORMP block anchors chain_id={chain.chainId} dataset={dataset} from_block={fromBlock} to_block={toBlock}"
          (await (Op.readBlockAnchors chain.chainId dataset fromBlock toBlock))).lift
        let currentBlocks ← queryBlocks chain.chainId dataset
          s!"query ORMP Datalens reorg block anchors chain_id={chain.chainId} dataset={dataset} from_block={fromBlock} to_block={toBlock}"
          { chainId := chain.chainId, fromBlock, toBlock, finalityMode := chain.finalityMode }
        if !currentBlocks.covers fromBlock toBlock then do
          warnStuckIncomplete chain.chainId dataset currentBlocks.incompleteReason
          return none
        else
          match (blockNumbers { fromBlock, toBlock }).find?
            (diverges anchors currentBlocks.blocks) with
          | none => return none
          | some rollbackBlock => do
              (withContext
                s!"rollback ORMP legacy rows chain_id={chain.chainId} dataset={dataset} rollback_block={rollbackBlock}"
                (await (Op.rollbackLegacyFrom chain.chainId dataset rollbackBlock))).lift
              record chain.chainId dataset .reorgRollback
              return some rollbackBlock

def blockAnchorsForRange (chain : ChainConfig) (dataset : String) (range : BlockRange)
    (logs : List DatalensLog) : Metered (Option (List BlockAnchor)) :=
  if !chain.finalityMode.usesReorgProtection then
    return some (blockAnchorsFromLogs chain.chainId dataset chain.finalityMode logs)
  else do
    let finalized ← (finalizedHead chain.chainId).lift
    let fromBlock := max range.fromBlock (saturatingAdd finalized 1)
    if range.toBlock < fromBlock then return some []
    else do
      let range : BlockRange := { fromBlock, toBlock := range.toBlock }
      let blocks ← queryBlocks chain.chainId dataset
        s!"query ORMP Datalens block anchors chain_id={chain.chainId} dataset={dataset} from_block={range.fromBlock} to_block={range.toBlock}"
        { chainId := chain.chainId, fromBlock := range.fromBlock, toBlock := range.toBlock,
          finalityMode := chain.finalityMode }
      if !blocks.covers range.fromBlock range.toBlock then do
        warnStuckIncomplete chain.chainId dataset blocks.incompleteReason
        return none
      else do
        let anchors ← Task.ofExcept (blockAnchorsFromBlocks chain.chainId dataset
          chain.finalityMode range blocks.blocks)
        return some anchors

/-- The blocks of a batch and the blocks after it, of `batch_progress`. -/
structure BatchProgress where
  batchBlocks : Nat
  remainingBlocks : Nat
deriving DecidableEq, Repr

def batchProgress (range : BlockRange) (targetBlock nextBlock : Nat) : BatchProgress where
  batchBlocks := saturatingAdd (range.toBlock - range.fromBlock) 1
  remainingBlocks :=
    if targetBlock < nextBlock then 0 else saturatingAdd (targetBlock - nextBlock) 1

def processSuccessfulRange (chain : ChainConfig) (dataset : String) (range : BlockRange)
    (targetBlock : Nat) (result : DatalensLogQueryResult) : Metered ProcessedRangeReport :=
  match result.servedEnd with
  | none => do
      warnStuckIncomplete chain.chainId dataset result.incompleteReason
      return stoppedReport range result.logs.length
  | some servedEnd => do
      let servedStart ← Task.ofExcept (contextOption
        s!"Datalens log query served end without start chain_id={chain.chainId} dataset={dataset} from_block={range.fromBlock} to_block={range.toBlock}"
        result.servedStart)
      if servedStart ≠ range.fromBlock then
        Task.ofExcept (.error
          [s!"Datalens log query served start {servedStart} does not match from_block {range.fromBlock} chain_id={chain.chainId} dataset={dataset} to_block={range.toBlock}"])
      else do
        let servedEnd := min servedEnd range.toBlock
        warnStuckIncomplete chain.chainId dataset result.incompleteReason
        let stopPoll := result.incompleteReason.isSome || decide (servedEnd < range.toBlock)
        let events ← (decodeLogs result.logs).lift
        let nextBlock ← Task.ofExcept (contextOption
          s!"ORMP checkpoint next block overflow chain_id={chain.chainId} dataset={dataset} served_end={servedEnd}"
          (checkedAdd servedEnd 1))
        let servedRange : BlockRange := { fromBlock := range.fromBlock, toBlock := servedEnd }
        match ← blockAnchorsForRange chain dataset servedRange result.logs with
        | none => return stoppedReport range result.logs.length
        | some anchors => do
            let written ← (withContext
              s!"write ORMP events chain_id={chain.chainId} dataset={dataset} from_block={range.fromBlock} served_end={servedEnd} next_block={nextBlock}"
              (await (Op.writeEventsAndAdvanceCheckpoint events anchors chain.chainId dataset
                nextBlock))).lift
            let progress := batchProgress servedRange targetBlock nextBlock
            record chain.chainId dataset (.rangeSuccess {
              blocksProcessed := progress.batchBlocks
              recordsRead := result.logs.length
              recordsDecoded := events.length
              recordsWritten := written
              remainingBlocks := progress.remainingBlocks })
            return {
              nextBlock
              rangesQueried := 1
              recordsRead := result.logs.length
              recordsDecoded := events.length
              recordsWritten := written
              checkpointsAdvanced := 1
              stopPoll }

def processRange (chain : ChainConfig) (dataset : String) (range : BlockRange) (targetBlock : Nat) :
    Metered ProcessedRangeReport := do
  match ← (queryRangeOnce chain dataset range).attempt.lift with
  | .ok result => do
      record chain.chainId dataset (.datalensRequest "logs" true)
      processSuccessfulRange chain dataset range targetBlock result
  | .error error => do
      record chain.chainId dataset (.datalensRequest "logs" false)
      record chain.chainId dataset .rangeFailure
      Task.ofExcept (.error error)

def runRanges (chain : ChainConfig) (dataset : String) (targetBlock : Nat) :
    Nat → Checkpoint → ChainRunReport → Bool → Metered ChainRunReport
  | 0, _, report, _ => return report
  | fuel + 1, checkpoint, report, stopPoll =>
      if checkpoint.nextBlock ≤ targetBlock ∧ !stopPoll then do
        let range ← Task.ofExcept (context
          s!"plan ORMP checkpoint range chain_id={chain.chainId} dataset={dataset} checkpoint_next_block={checkpoint.nextBlock} batch_size={chain.batchSize}"
          (planNextRange checkpoint chain.batchSize))
        let range : BlockRange := { range with toBlock := min range.toBlock targetBlock }
        let rangeReport ← processRange chain dataset range targetBlock
        runRanges chain dataset targetBlock fuel
          { checkpoint with nextBlock := rangeReport.nextBlock }
          (addRangeReport report rangeReport) rangeReport.stopPoll
      else return report

def runToHead (config : RuntimeConfig) (chain : ChainConfig) (dataset : String)
    (checkpoint : Checkpoint) : Metered ChainRunReport := do
  let latestBlock ← (withContext s!"query Datalens chain head for chain {chain.chainId}"
    (await (Op.latestBlock chain.chainId chain.finalityMode))).lift
  let targetBlock := latestBlock - config.datalens.headBufferBlocks
  record chain.chainId dataset (.chainHead latestBlock targetBlock)
  if targetBlock < checkpoint.nextBlock then do
    record chain.chainId dataset (.remainingBlocks 0)
    return { ChainRunReport.default with caughtUp := true }
  else do
    let report ← runRanges chain dataset targetBlock (targetBlock + 1 - checkpoint.nextBlock)
      checkpoint .default false
    return { report with
      chainsProcessed := if 0 < report.rangesQueried then 1 else report.chainsProcessed
      caughtUp := true }

def checkedCheckpoint (config : RuntimeConfig) (chain : ChainConfig) (dataset : String)
    (checkpoint : Checkpoint) : Metered Checkpoint :=
  if chain.finalityMode.usesReorgProtection then do
    match ← rollbackReorgedAnchors config chain dataset checkpoint.nextBlock with
    | none => return checkpoint
    | some rollbackBlock => return { checkpoint with nextBlock := rollbackBlock }
  else return checkpoint

def runChainOnce (config : RuntimeConfig) (chain : ChainConfig) : Metered ChainRunReport := do
  let dataset ← Task.ofExcept (chainDataset chain.chainId)
  let checkpoint ← (withContext
    s!"read or create ORMP checkpoint chain_id={chain.chainId} dataset={dataset} start_block={chain.startBlock}"
    (readOrCreate chain.chainId dataset chain.startBlock)).lift
  let checkpoint ← checkedCheckpoint config chain dataset checkpoint
  runToHead config chain dataset checkpoint

/-! ## The loop of a chain -/

/-- `should_sleep_after_run` of the report of a chain. -/
def shouldSleepAfterReport (report : ChainRunReport) : Bool :=
  report.caughtUp || report.rangesQueried == 0

/-- The backoff after this many failures in a row, in milliseconds: `u128` arithmetic that saturates. -/
def failureBackoff (pollMillis consecutiveFailures : Nat) : Nat :=
  let multiplier := 2 ^ min (consecutiveFailures - 1) 10
  let millis := min (max pollMillis 1 * multiplier) (2 ^ 128 - 1)
  min millis 60000

/-- The result of a pass is reported if the chain has a dataset. -/
def recordChainPass (chainId : Nat) (success : Bool) (consecutiveFailures : Nat) : Metered Unit :=
  match chainDataset chainId with
  | .ok dataset => record chainId dataset (.chainPass success consecutiveFailures)
  | .error _ => return ()

/-- The first turns of `run_chain_loop`, after this many failures in a row. -/
def runChainLoop (config : RuntimeConfig) (pollMillis : Nat) (chain : ChainConfig) :
    Nat → Nat → Metered Unit
  | 0, _ => return ()
  | turns + 1, consecutiveFailures => do
      match ← (runChainOnce config chain).attempt with
      | .ok report => do
          recordChainPass chain.chainId true 0
          if shouldSleepAfterReport report then sleep pollMillis
          runChainLoop config pollMillis chain turns 0
      | .error _ => do
          let consecutiveFailures := consecutiveFailures + 1
          recordChainPass chain.chainId false consecutiveFailures
          sleep (failureBackoff pollMillis consecutiveFailures)
          runChainLoop config pollMillis chain turns consecutiveFailures

/-! ## Without the asides -/

@[simp]
theorem erase_record_bind {α : Type} (chainId : Nat) (dataset : String) (note : Metrics.Note)
    (f : Unit → Metered α) : (record chainId dataset note >>= f).erase = (f ()).erase := rfl

@[simp]
theorem erase_warnStuckIncomplete_bind {α : Type} (chainId : Nat) (dataset : String)
    (reason : Option IncompleteReason) (f : Unit → Metered α) :
    (warnStuckIncomplete chainId dataset reason >>= f).erase = (f ()).erase := by
  cases reason with
  | none => rfl
  | some reason => cases reason <;> rfl

@[simp]
theorem erase_queryBlocks (chainId : Nat) (dataset message : String) (query : DatalensBlockQuery) :
    (queryBlocks chainId dataset message query).erase =
      withContext message (await (Op.queryBlocks query)) := by
  refine congrArg (Task.call (Op.queryBlocks query)) (funext fun r => ?_)
  cases r <;> rfl

@[simp]
theorem erase_rollbackReorgedAnchors (config : RuntimeConfig) (chain : ChainConfig)
    (dataset : String) (checkpointNextBlock : Nat) :
    (rollbackReorgedAnchors config chain dataset checkpointNextBlock).erase =
      Runner.rollbackReorgedAnchors config chain dataset checkpointNextBlock := by
  unfold rollbackReorgedAnchors Runner.rollbackReorgedAnchors
  cases checkedSub checkpointNextBlock 1 with
  | none => rfl
  | some toBlock => ?_
  rw [erase_bind, erase_lift]
  refine congrArg _ (funext fun finalized => ?_)
  dsimp only
  split
  · rfl
  rw [erase_bind, erase_lift]
  refine congrArg _ (funext fun anchors => ?_)
  rw [erase_bind, erase_queryBlocks]
  refine congrArg _ (funext fun blocks => ?_)
  split
  · rw [erase_warnStuckIncomplete_bind]
    rfl
  · cases (blockNumbers _).find? (diverges anchors blocks.blocks) with
    | none => rfl
    | some rollbackBlock =>
        dsimp only
        rw [erase_bind, erase_lift]
        rfl

@[simp]
theorem erase_blockAnchorsForRange (chain : ChainConfig) (dataset : String) (range : BlockRange)
    (logs : List DatalensLog) : (blockAnchorsForRange chain dataset range logs).erase =
      Runner.blockAnchorsForRange chain dataset range logs := by
  unfold blockAnchorsForRange Runner.blockAnchorsForRange
  split
  · rfl
  rw [erase_bind, erase_lift]
  refine congrArg _ (funext fun finalized => ?_)
  dsimp only
  split
  · rfl
  rw [erase_bind, erase_queryBlocks]
  refine congrArg _ (funext fun blocks => ?_)
  split
  · rw [erase_warnStuckIncomplete_bind]
    rfl
  · rw [erase_bind, erase_ofExcept]
    rfl

@[simp]
theorem erase_processSuccessfulRange (chain : ChainConfig) (dataset : String) (range : BlockRange)
    (targetBlock : Nat) (result : DatalensLogQueryResult) :
    (processSuccessfulRange chain dataset range targetBlock result).erase =
      Runner.processSuccessfulRange chain dataset range result := by
  unfold processSuccessfulRange Runner.processSuccessfulRange
  cases result.servedEnd with
  | none =>
      dsimp only
      rw [erase_warnStuckIncomplete_bind]
      rfl
  | some servedEnd => ?_
  dsimp only
  rw [erase_bind, erase_ofExcept]
  refine congrArg _ (funext fun servedStart => ?_)
  split
  · rfl
  rw [erase_warnStuckIncomplete_bind, erase_bind, erase_lift]
  refine congrArg _ (funext fun events => ?_)
  rw [erase_bind, erase_ofExcept]
  refine congrArg _ (funext fun nextBlock => ?_)
  rw [erase_bind, erase_blockAnchorsForRange]
  refine congrArg _ (funext fun anchors => ?_)
  cases anchors with
  | none => rfl
  | some anchors =>
      dsimp only
      rw [erase_bind, erase_lift]
      rfl

@[simp]
theorem erase_processRange (chain : ChainConfig) (dataset : String) (range : BlockRange)
    (targetBlock : Nat) : (processRange chain dataset range targetBlock).erase =
      Runner.processRange chain dataset range := by
  rw [processRange, erase_bind, erase_lift, Runner.processRange]
  refine (attempt_bind _ _ ?_).trans (congrArg _ (funext fun result => ?_))
  · exact fun _ => rfl
  rw [erase_record_bind, erase_processSuccessfulRange]

@[simp]
theorem erase_runRanges (chain : ChainConfig) (dataset : String) (targetBlock fuel : Nat)
    (checkpoint : Checkpoint) (report : ChainRunReport) (stopPoll : Bool) :
    (runRanges chain dataset targetBlock fuel checkpoint report stopPoll).erase =
      Runner.runRanges chain dataset targetBlock fuel checkpoint report stopPoll := by
  induction fuel generalizing checkpoint report stopPoll with
  | zero => rfl
  | succ fuel ih =>
      unfold runRanges Runner.runRanges
      split
      · rw [erase_bind, erase_ofExcept]
        refine congrArg _ (funext fun range => ?_)
        rw [erase_bind, erase_processRange]
        exact congrArg _ (funext fun rangeReport => ih _ _ _)
      · rfl

@[simp]
theorem erase_runToHead (config : RuntimeConfig) (chain : ChainConfig) (dataset : String)
    (checkpoint : Checkpoint) : (runToHead config chain dataset checkpoint).erase =
      Runner.runToHead config chain dataset checkpoint := by
  rw [runToHead, erase_bind, erase_lift, Runner.runToHead]
  refine congrArg _ (funext fun latestBlock => ?_)
  rw [erase_record_bind]
  dsimp only
  split
  · rfl
  · rw [erase_bind, erase_runRanges]
    rfl

@[simp]
theorem erase_checkedCheckpoint (config : RuntimeConfig) (chain : ChainConfig) (dataset : String)
    (checkpoint : Checkpoint) : (checkedCheckpoint config chain dataset checkpoint).erase =
      Runner.checkedCheckpoint config chain dataset checkpoint := by
  unfold checkedCheckpoint Runner.checkedCheckpoint
  split
  · rw [erase_bind, erase_rollbackReorgedAnchors]
    refine congrArg _ (funext fun rollbackBlock => ?_)
    cases rollbackBlock <;> rfl
  · rfl

/-- Without its asides the pass is the plain pass. -/
@[simp]
theorem erase_runChainOnce (config : RuntimeConfig) (chain : ChainConfig) :
    (runChainOnce config chain).erase = Runner.runChainOnce config chain := by
  rw [runChainOnce, erase_bind, erase_ofExcept, Runner.runChainOnce]
  refine congrArg _ (funext fun dataset => ?_)
  rw [erase_bind, erase_lift]
  refine congrArg _ (funext fun checkpoint => ?_)
  rw [erase_bind, erase_checkedCheckpoint]
  exact congrArg _ (funext fun checkpoint => erase_runToHead config chain dataset checkpoint)

theorem erase_recordChainPass_bind {α : Type} (chainId : Nat) (success : Bool)
    (consecutiveFailures : Nat) (f : Unit → Metered α) :
    (recordChainPass chainId success consecutiveFailures >>= f).erase = (f ()).erase := by
  unfold recordChainPass
  cases chainDataset chainId <;> rfl

/-- Without its asides the loop is the plain pass, again and again. -/
theorem erase_runChainLoop (config : RuntimeConfig) (pollMillis : Nat) (chain : ChainConfig)
    (turns consecutiveFailures : Nat) :
    (runChainLoop config pollMillis chain turns consecutiveFailures).erase =
      repeated turns (Runner.runChainOnce config chain) := by
  induction turns generalizing consecutiveFailures with
  | zero => rfl
  | succ turns ih =>
      rw [runChainLoop, erase_bind, erase_attempt, erase_runChainOnce, repeated]
      refine congrArg _ (funext fun r => ?_)
      cases r with
      | error e =>
          dsimp only
          rw [erase_recordChainPass_bind, sleep, erase_aside_bind, ih]
      | ok report =>
          dsimp only
          rw [erase_recordChainPass_bind]
          split
          · rw [sleep, erase_aside_bind, ih]
          · exact ih 0

end Metered

/-! ## The loops of all chains -/

/-- The loops that `run_loop` starts, each as far as this many turns. -/
def loopTasks (config : RuntimeConfig) (pollMillis : Nat) (turns : Fin config.enabledChains.length → Nat)
    (i : Fin config.enabledChains.length) : Metered Unit :=
  Metered.runChainLoop config pollMillis (config.enabledChains.get i) (turns i) 0

/-- **`run_loop` is the passes side by side.** Whatever the metrics and the clock do, the worlds `run_loop`
comes to are those of plain passes that take turns and begin again when they have ended, at most so often. -/
theorem run_loop_refines {Env μ : Type} {ix : Indexer} {allowed : Answers Env} {config : RuntimeConfig}
    {pollMillis : Nat} {turns : Fin config.enabledChains.length → Nat}
    {records : Aside → μ → μ → Prop} {init : World Env → Prop} {between : World Env → World Env → Prop}
    {w₀ w : World Env} {m₀ m : μ} {rests : Fin config.enabledChains.length → Metered Unit}
    (hrun : Together (Observed (Serves ix allowed) records)
      ((w₀, m₀), loopTasks config pollMillis turns) ((w, m), rests)) (hinit : init w₀) :
    ∃ tasks, Interleaved (Serves ix allowed) init between (chainTasks config) w tasks ∧
      ∀ i, Continues (chainTasks config i) (tasks i) (rests i).erase := by
  have hplain := together_erase hrun
  have hloops : (fun i => (loopTasks config pollMillis turns i).erase) =
      fun i => repeated (turns i) (chainTasks config i) :=
    funext fun i => Metered.erase_runChainLoop config pollMillis (config.enabledChains.get i) (turns i) 0
  dsimp only at hplain
  rw [hloops] at hplain
  exact interleaved_of_repeated hplain hinit

/-- One chain, which begins at block 5. -/
def oneChain : RuntimeConfig := ⟨⟨0⟩, [darwinia 5 3 .finalized], 0⟩

/-- What the asides do, with all clocks at zero. -/
def recordAtZero : Aside → MetricsState Nat → MetricsState Nat
  | .record chainId dataset note => Metrics.record 0 0 chainId dataset note
  | .sleep _ => id

def onlyTask : Fin oneChain.enabledChains.length := ⟨0, by decide⟩

/-- Before the first pass, with metrics that know the configured scopes. -/
def atStart : World Unit × MetricsState Nat :=
  (⟨.empty, [], ()⟩, Metrics.recordConfiguredScopes oneChain.enabledChains Metrics.initial)

/-- Two turns of its loop. -/
def loopedTwice : Except Error Unit × (World Unit × MetricsState Nat) :=
  (loopTasks oneChain 30000 (fun _ => 2) onlyTask).eval
    (observe (simulate hashIndexer servesThreeLogs) recordAtZero) atStart

theorem together_loopedTwice {allowed : Answers Unit}
    {records : Aside → MetricsState Nat → MetricsState Nat → Prop}
    (hallowed : ∀ w op a, reply hashIndexer servesThreeLogs w op = .ok a → allowed w op a)
    (hrecords : ∀ a m, records a m (recordAtZero a m)) :
    Together (Observed (Serves hashIndexer allowed) records)
      ((atStart.1, atStart.2), loopTasks oneChain 30000 fun _ => 2)
      ((loopedTwice.2.1, loopedTwice.2.2),
        Function.update (loopTasks oneChain 30000 fun _ => 2) onlyTask (.done loopedTwice.1)) :=
  together_of_reaches onlyTask (reaches_eval (observed_observe (serves_simulate hallowed) hrecords)
    (loopTasks oneChain 30000 (fun _ => 2) onlyTask) atStart)

/-- The loop of the chain has ended then. -/
theorem ended_loopedTwice (a : Aside) :
    (Function.update (loopTasks oneChain 30000 fun _ => 2) onlyTask
      (.done loopedTwice.1) onlyTask).awaited ≠ some (.inr a) := by
  rw [Function.update_self]
  rintro ⟨⟩

theorem nextBlock_loopedTwice :
    nextBlock (darwinia 5 3 .finalized) EVM_LOGS_DATASET loopedTwice.2.1.db = 10 := by
  decide +kernel

/-- Two turns of the loop of one chain come to where passes of it come to. -/
theorem run_loop_refines_loopedTwice :
    nextBlock (darwinia 5 3 .finalized) EVM_LOGS_DATASET loopedTwice.2.1.db = 10 ∧
      ∃ tasks, Interleaved (Serves hashIndexer fun _ _ _ => True) (fun w => w.past = [])
        (fun _ _ => False) (chainTasks oneChain) loopedTwice.2.1 tasks := by
  have hrun : Together (Observed (Serves hashIndexer fun _ _ _ => True)
        fun a m m' => m' = recordAtZero a m)
      ((atStart.1, atStart.2), loopTasks oneChain 30000 fun _ => 2)
      ((loopedTwice.2.1, loopedTwice.2.2),
        Function.update (loopTasks oneChain 30000 fun _ => 2) onlyTask (.done loopedTwice.1)) :=
    together_loopedTwice (fun _ _ _ _ => trivial) fun _ _ => rfl
  obtain ⟨tasks, hplain, _⟩ : ∃ tasks, Interleaved (Serves hashIndexer fun _ _ _ => True)
      (fun w => w.past = []) (fun _ _ => False) (chainTasks oneChain) loopedTwice.2.1 tasks ∧ _ :=
    run_loop_refines hrun rfl
  exact ⟨nextBlock_loopedTwice, tasks, hplain⟩

end Runner

end OrmpIndexer
