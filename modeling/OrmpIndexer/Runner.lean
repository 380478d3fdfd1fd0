/-
# OrmpIndexer.Runner — one pass of the indexer over a chain

`runner.rs`. A pass reads the checkpoint, checks the anchors of the blocks that are not final yet,
asks for the head, and then queries, decodes and commits one range after the other until it reaches
the target block or the server stops serving. Every `.await` of the source is a call (`Op`) whose reply
comes from outside; `read_or_create` is two statements in the source and two calls here.

Metrics and log lines are left out: nothing in the pass depends on them. The `while` loop of
`run_chain_once` is `runRanges`, which carries the number of blocks up to the target as fuel; every
turn that does not end the loop moves the checkpoint forward (`Runner.Loop`), so the fuel is never
what ends it.
-/
import OrmpIndexer.Checkpoint
import OrmpIndexer.Datalens.Types
import OrmpIndexer.Foundation.LastWrite
import OrmpIndexer.Planner
import OrmpIndexer.Schema.Types

namespace OrmpIndexer

open Foundation

/-- The awaited calls of a pass: statements and transactions of the store, requests to the Datalens
server, and the decoder. -/
inductive Op where
  | insertCheckpoint (chainId : Nat) (dataset : String) (startBlock : Nat)
  | selectCheckpoint (chainId : Nat) (dataset : String)
  | readBlockAnchors (chainId : Nat) (dataset : String) (fromBlock toBlock : Nat)
  | rollbackLegacyFrom (chainId : Nat) (dataset : String) (rollbackBlock : Nat)
  | writeEventsAndAdvanceCheckpoint (events : List LegacyOrmPEvent) (anchors : List BlockAnchor)
      (chainId : Nat) (dataset : String) (nextBlock : Nat)
  | latestBlock (chainId : Nat) (finalityMode : FinalityMode)
  | finalizedHead (chainId : Nat)
  | queryBlocks (query : DatalensBlockQuery)
  | queryLogs (query : DatalensLogQuery)
  | decode (log : DatalensLog)
deriving DecidableEq

/-- What each call returns. -/
@[reducible]
def Reply : Op → Type
  | .insertCheckpoint .. => Unit
  | .selectCheckpoint .. => Nat
  | .readBlockAnchors .. => List BlockAnchor
  | .rollbackLegacyFrom .. => Unit
  | .writeEventsAndAdvanceCheckpoint .. => Nat
  | .latestBlock .. => Nat
  | .finalizedHead .. => Nat
  | .queryBlocks .. => DatalensBlockQueryResult
  | .queryLogs .. => DatalensLogQueryResult
  | .decode .. => List LegacyOrmPEvent

instance : (op : Op) → DecidableEq (Reply op)
  | .insertCheckpoint .. | .rollbackLegacyFrom .. => inferInstanceAs (DecidableEq Unit)
  | .selectCheckpoint .. | .writeEventsAndAdvanceCheckpoint .. | .latestBlock ..
  | .finalizedHead .. => inferInstanceAs (DecidableEq Nat)
  | .readBlockAnchors .. => inferInstanceAs (DecidableEq (List BlockAnchor))
  | .queryBlocks .. => inferInstanceAs (DecidableEq DatalensBlockQueryResult)
  | .queryLogs .. => inferInstanceAs (DecidableEq DatalensLogQueryResult)
  | .decode .. => inferInstanceAs (DecidableEq (List LegacyOrmPEvent))

/-- An `async fn` of the runner. -/
abbrev Async (α : Type) := Task Op Reply Error α

/-- `op.await?`. -/
def await (op : Op) : Async (Reply op) := Task.await op

structure ChainRunReport where
  chainsProcessed : Nat
  rangesQueried : Nat
  recordsRead : Nat
  recordsDecoded : Nat
  recordsWritten : Nat
  checkpointsAdvanced : Nat
  caughtUp : Bool
deriving DecidableEq, Repr

def ChainRunReport.default : ChainRunReport := ⟨0, 0, 0, 0, 0, 0, false⟩

structure ProcessedRangeReport where
  nextBlock : Nat
  rangesQueried : Nat
  recordsRead : Nat
  recordsDecoded : Nat
  recordsWritten : Nat
  checkpointsAdvanced : Nat
  stopPoll : Bool
deriving DecidableEq, Repr

namespace Runner

/-! ## Anchors -/

/-- The anchors of the logs, the first log of a block deciding, in the order of the blocks. -/
def blockAnchorsFromLogs (chainId : Nat) (dataset : String) (finality : FinalityMode)
    (logs : List DatalensLog) : List BlockAnchor :=
  let anchors := logs.foldl (fun anchors log =>
    match log.blockHash with
    | none => anchors
    | some blockHash =>
        -- the first log of a block has decided
        if anchors.any fun anchor => anchor.blockNumber == log.blockNumber then anchors
        else anchors ++
          [{ chainId, dataset, blockNumber := log.blockNumber, blockHash,
             parentHash := log.parentHash, finality }]) []
  anchors.insertionSort fun a b => a.blockNumber ≤ b.blockNumber

/-- The header of a block in an answer: collected into a map, the last one listed wins. -/
def listedBlock (blocks : List DatalensBlock) (blockNumber : Nat) : Option DatalensBlock :=
  lastWhere (fun block => block.blockNumber == blockNumber) blocks

/-- The blocks of `from_block..=to_block`. -/
def blockNumbers (range : BlockRange) : List Nat :=
  List.range' range.fromBlock (range.toBlock + 1 - range.fromBlock)

def blockAnchorFromBlocks (chainId : Nat) (dataset : String) (finality : FinalityMode)
    (blocks : List DatalensBlock) (blockNumber : Nat) : Except Error BlockAnchor :=
  match listedBlock blocks blockNumber with
  | none => .error
      [s!"Datalens block query missing block header chain_id={chainId} dataset={dataset} block_number={blockNumber}"]
  | some block => .ok
      { chainId, dataset, blockNumber, blockHash := block.blockHash,
        parentHash := block.parentHash, finality }

def blockAnchorsFromBlocks (chainId : Nat) (dataset : String) (finality : FinalityMode)
    (range : BlockRange) (blocks : List DatalensBlock) : Except Error (List BlockAnchor) :=
  (blockNumbers range).mapM (blockAnchorFromBlocks chainId dataset finality blocks)

/-! ## The reorg check -/

/-- The block is not anchored, not listed, or listed with another hash. -/
def diverges (anchors : List BlockAnchor) (blocks : List DatalensBlock) (blockNumber : Nat) : Bool :=
  match lastWhere (fun anchor => anchor.blockNumber == blockNumber) anchors with
  | none => true
  | some anchor =>
      match listedBlock blocks blockNumber with
      | none => true
      | some block => block.blockHash != anchor.blockHash

def finalizedHead (chainId : Nat) : Async Nat :=
  withContext s!"query Datalens finalized head for chain {chainId}" (await (Op.finalizedHead chainId))

/-- The first block the reorg check looks at. -/
def windowStart (config : RuntimeConfig) (chain : ChainConfig)
    (checkpointNextBlock finalized : Nat) : Nat :=
  max (max chain.startBlock (checkpointNextBlock - config.reorgWindowBlocks))
    (saturatingAdd finalized 1)

def rollbackReorgedAnchors (config : RuntimeConfig) (chain : ChainConfig) (dataset : String)
    (checkpointNextBlock : Nat) : Async (Option Nat) :=
  match checkedSub checkpointNextBlock 1 with
  | none => return none
  | some toBlock => do
      let finalized ← finalizedHead chain.chainId
      let fromBlock := windowStart config chain checkpointNextBlock finalized
      -- every block of the window is final
      if toBlock < fromBlock then return none
      else do
        let anchors ← withContext
          s!"read ORMP block anchors chain_id={chain.chainId} dataset={dataset} from_block={fromBlock} to_block={toBlock}"
          (await (Op.readBlockAnchors chain.chainId dataset fromBlock toBlock))
        let currentBlocks ← withContext
          s!"query ORMP Datalens reorg block anchors chain_id={chain.chainId} dataset={dataset} from_block={fromBlock} to_block={toBlock}"
          (await (Op.queryBlocks
            { chainId := chain.chainId, fromBlock, toBlock, finalityMode := chain.finalityMode }))
        -- the check gives up, and the pass goes on
        if !currentBlocks.covers fromBlock toBlock then return none
        else
          match (blockNumbers { fromBlock, toBlock }).find?
            (diverges anchors currentBlocks.blocks) with
          | none => return none
          | some rollbackBlock => do
              withContext
                s!"rollback ORMP legacy rows chain_id={chain.chainId} dataset={dataset} rollback_block={rollbackBlock}"
                (await (Op.rollbackLegacyFrom chain.chainId dataset rollbackBlock))
              return some rollbackBlock

/-! ## One range -/

def blockAnchorsForRange (chain : ChainConfig) (dataset : String) (range : BlockRange)
    (logs : List DatalensLog) : Async (Option (List BlockAnchor)) :=
  if !chain.finalityMode.usesReorgProtection then
    return some (blockAnchorsFromLogs chain.chainId dataset chain.finalityMode logs)
  else do
    let finalized ← finalizedHead chain.chainId
    let fromBlock := max range.fromBlock (saturatingAdd finalized 1)
    -- the whole range is final by now and gets no anchors
    if range.toBlock < fromBlock then return some []
    else do
      let range : BlockRange := { fromBlock, toBlock := range.toBlock }
      let blocks ← withContext
        s!"query ORMP Datalens block anchors chain_id={chain.chainId} dataset={dataset} from_block={range.fromBlock} to_block={range.toBlock}"
        (await (Op.queryBlocks
          { chainId := chain.chainId, fromBlock := range.fromBlock, toBlock := range.toBlock,
            finalityMode := chain.finalityMode }))
      -- the range waits: nothing is committed
      if !blocks.covers range.fromBlock range.toBlock then return none
      else do
        let anchors ← Task.ofExcept (blockAnchorsFromBlocks chain.chainId dataset
          chain.finalityMode range blocks.blocks)
        return some anchors

def decodeLogs : List DatalensLog → Async (List LegacyOrmPEvent)
  | [] => return []
  | log :: logs => do
      let topic0 := log.topics.head?.getD "<missing>"
      let events ← withContext
        s!"decode ORMP Datalens log chain_id={log.chainId} block_number={log.blockNumber} transaction_hash={log.transactionHash} log_index={log.logIndex} address={log.address} topic0={topic0}"
        (await (Op.decode log))
      let rest ← decodeLogs logs
      return events ++ rest

def queryRangeOnce (chain : ChainConfig) (dataset : String) (range : BlockRange) :
    Async DatalensLogQueryResult :=
  withContext
    s!"query ORMP Datalens logs chain_id={chain.chainId} dataset={dataset} from_block={range.fromBlock} to_block={range.toBlock}"
    (await (Op.queryLogs
      { chainId := chain.chainId, fromBlock := range.fromBlock, toBlock := range.toBlock,
        contracts := chain.contracts, topics := chain.topics, finalityMode := chain.finalityMode }))

/-- The report of a range that commits nothing and ends the pass. -/
def stoppedReport (range : BlockRange) (recordsRead : Nat) : ProcessedRangeReport where
  nextBlock := range.fromBlock
  rangesQueried := 1
  recordsRead := recordsRead
  recordsDecoded := 0
  recordsWritten := 0
  checkpointsAdvanced := 0
  stopPoll := true

def processSuccessfulRange (chain : ChainConfig) (dataset : String) (range : BlockRange)
    (result : DatalensLogQueryResult) : Async ProcessedRangeReport :=
  match result.servedEnd with
  | none => return stoppedReport range result.logs.length
  | some servedEnd => do
      let servedStart ← Task.ofExcept (contextOption
        s!"Datalens log query served end without start chain_id={chain.chainId} dataset={dataset} from_block={range.fromBlock} to_block={range.toBlock}"
        result.servedStart)
      if servedStart ≠ range.fromBlock then
        Task.ofExcept (.error
          [s!"Datalens log query served start {servedStart} does not match from_block {range.fromBlock} chain_id={chain.chainId} dataset={dataset} to_block={range.toBlock}"])
      else do
        -- a window that goes beyond the request is cut off, its logs are not
        let servedEnd := min servedEnd range.toBlock
        let stopPoll := result.incompleteReason.isSome || decide (servedEnd < range.toBlock)
        let events ← decodeLogs result.logs
        let nextBlock ← Task.ofExcept (contextOption
          s!"ORMP checkpoint next block overflow chain_id={chain.chainId} dataset={dataset} served_end={servedEnd}"
          (checkedAdd servedEnd 1))
        let servedRange : BlockRange := { fromBlock := range.fromBlock, toBlock := servedEnd }
        match ← blockAnchorsForRange chain dataset servedRange result.logs with
        | none => return stoppedReport range result.logs.length
        | some anchors => do
            let written ← withContext
              s!"write ORMP events chain_id={chain.chainId} dataset={dataset} from_block={range.fromBlock} served_end={servedEnd} next_block={nextBlock}"
              (await (Op.writeEventsAndAdvanceCheckpoint events anchors chain.chainId dataset
                nextBlock))
            return {
              nextBlock
              rangesQueried := 1
              recordsRead := result.logs.length
              recordsDecoded := events.length
              recordsWritten := written
              checkpointsAdvanced := 1
              stopPoll }

def processRange (chain : ChainConfig) (dataset : String) (range : BlockRange) :
    Async ProcessedRangeReport := do
  let result ← queryRangeOnce chain dataset range
  processSuccessfulRange chain dataset range result

/-! ## One pass -/

/-- `read_or_create` of the PostgreSQL store. -/
def readOrCreate (chainId : Nat) (dataset : String) (startBlock : Nat) : Async Checkpoint := do
  await (Op.insertCheckpoint chainId dataset startBlock)
  let nextBlock ← await (Op.selectCheckpoint chainId dataset)
  return { chainId, dataset, nextBlock }

def addRangeReport (report : ChainRunReport) (range : ProcessedRangeReport) : ChainRunReport :=
  { report with
    rangesQueried := report.rangesQueried + range.rangesQueried
    recordsRead := report.recordsRead + range.recordsRead
    recordsDecoded := report.recordsDecoded + range.recordsDecoded
    recordsWritten := report.recordsWritten + range.recordsWritten
    checkpointsAdvanced := report.checkpointsAdvanced + range.checkpointsAdvanced }

/-- The `while` loop of `run_chain_once`. -/
def runRanges (chain : ChainConfig) (dataset : String) (targetBlock : Nat) :
    Nat → Checkpoint → ChainRunReport → Bool → Async ChainRunReport
  | 0, _, report, _ => return report
  | fuel + 1, checkpoint, report, stopPoll =>
      if checkpoint.nextBlock ≤ targetBlock ∧ !stopPoll then do
        let range ← Task.ofExcept (context
          s!"plan ORMP checkpoint range chain_id={chain.chainId} dataset={dataset} checkpoint_next_block={checkpoint.nextBlock} batch_size={chain.batchSize}"
          (planNextRange checkpoint chain.batchSize))
        let range : BlockRange := { range with toBlock := min range.toBlock targetBlock }
        let rangeReport ← processRange chain dataset range
        runRanges chain dataset targetBlock fuel
          { checkpoint with nextBlock := rangeReport.nextBlock }
          (addRangeReport report rangeReport) rangeReport.stopPoll
      else return report

/-- The pass from the chain head on: `latest_block` and the loop. -/
def runToHead (config : RuntimeConfig) (chain : ChainConfig) (dataset : String)
    (checkpoint : Checkpoint) : Async ChainRunReport := do
  let latestBlock ← withContext s!"query Datalens chain head for chain {chain.chainId}"
    (await (Op.latestBlock chain.chainId chain.finalityMode))
  -- `saturating_sub`
  let targetBlock := latestBlock - config.datalens.headBufferBlocks
  if targetBlock < checkpoint.nextBlock then return { ChainRunReport.default with caughtUp := true }
  else do
    let report ← runRanges chain dataset targetBlock (targetBlock + 1 - checkpoint.nextBlock)
      checkpoint .default false
    return { report with
      chainsProcessed := if 0 < report.rangesQueried then 1 else report.chainsProcessed
      caughtUp := true }

/-- The checkpoint a pass starts from, after the reorg check. -/
def checkedCheckpoint (config : RuntimeConfig) (chain : ChainConfig) (dataset : String)
    (checkpoint : Checkpoint) : Async Checkpoint :=
  if chain.finalityMode.usesReorgProtection then do
    match ← rollbackReorgedAnchors config chain dataset checkpoint.nextBlock with
    | none => return checkpoint
    | some rollbackBlock => return { checkpoint with nextBlock := rollbackBlock }
  else return checkpoint

def runChainOnce (config : RuntimeConfig) (chain : ChainConfig) : Async ChainRunReport := do
  let dataset ← Task.ofExcept (chainDataset chain.chainId)
  let checkpoint ← withContext
    s!"read or create ORMP checkpoint chain_id={chain.chainId} dataset={dataset} start_block={chain.startBlock}"
    (readOrCreate chain.chainId dataset chain.startBlock)
  let checkpoint ← checkedCheckpoint config chain dataset checkpoint
  runToHead config chain dataset checkpoint

end Runner

end OrmpIndexer
