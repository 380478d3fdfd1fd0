/-
# OrmpIndexer.TronRecovery.Scan — from the confirmed head's blocks to stored events

`tron_recovery/scan.rs`. `recover` walks over the blocks range by range. A range whose logs cannot be had is
halved until it is one block; the logs are sorted, checked against their block and their transaction, and
decoded (`decodeRange`); then events and progress are committed together.

Log lines are left out. The `while` loop carries the number of blocks that are left as fuel, and the loop
that halves a range its length.
-/
import OrmpIndexer.Decoder.Evm
import OrmpIndexer.TronRecovery.Storage

namespace OrmpIndexer

open Foundation

namespace TronRecovery

/-! ## One log -/

/-- The contracts and events that were asked for. -/
def expected (address topic : String) : Bool :=
  (address == ORMP && (topic == ORMP_MESSAGE_ACCEPTED_TOPIC || topic == ORMP_MESSAGE_ASSIGNED_TOPIC)) ||
    (address == MSGPORT && topic == MSGPORT_MESSAGE_SENT_TOPIC)

/-- The id of a log of the recovery. -/
def recoveryId (number : Nat) (transactionHash : String) (index : Nat) : String :=
  s!"tron-{number}-{toAsciiLowercase transactionHash}-{index}"

/-- The log's block number and index, if the log was asked for. -/
def locateLog (start stop : Nat) (log : RpcLog) : Except Error (Nat × Nat) := do
  let number ← hexU64 log.blockNumber
  ensure (decide (start ≤ number ∧ number ≤ stop) && !log.removed)
    "Tron returned an unrequested or removed log"
  let topic ← contextOption "Tron log has no topic0" log.topics.head?
  ensure (expected (toAsciiLowercase log.address) topic)
    "Tron returned an unexpected contract/event"
  let index ← hexU64 log.logIndex
  return (number, index)

def checkBlockHash (block : JsonObject) (log : RpcLog) : Except Error Unit := do
  ensure (eqIgnoreAsciiCase (← text block "hash") log.blockHash) "Tron log block hash mismatch"

/-- The chain of `&&`: a member is read when the comparisons before it have succeeded. -/
def matchesTransaction (number : Nat) (tx : JsonObject) (log : RpcLog) : Except Error Bool := do
  if !eqIgnoreAsciiCase (← text tx "hash") log.transactionHash then return false
  if !eqIgnoreAsciiCase (← text tx "blockHash") log.blockHash then return false
  if (← quantity tx "blockNumber") != number then return false
  return (← quantity tx "transactionIndex") == (← hexU64 log.transactionIndex)

def normalizeLog (number index : Nat) (block tx : JsonObject) (log : RpcLog) :
    Except Error DatalensLog := do
  let parentHash ← text block "parentHash"
  let blockTimestamp ← quantity block "timestamp"
  let transactionIndex ← i32TryFrom "out of range integral type conversion attempted"
    (← hexU64 log.transactionIndex)
  let transactionFrom ← text tx "from"
  return {
    id := some (recoveryId number log.transactionHash index)
    chainId := CHAIN_ID
    blockNumber := number
    blockHash := some log.blockHash
    parentHash := some parentHash
    blockTimestamp := some blockTimestamp
    transactionHash := log.transactionHash
    transactionIndex := some transactionIndex
    logIndex := index
    address := toAsciiLowercase log.address
    transactionFrom := some (toAsciiLowercase transactionFrom)
    topics := log.topics
    data := log.data }

section

variable (crates : Crates)

/-- A located log, with its block and its transaction. -/
def decodeLog (number index : Nat) (block tx : JsonObject) (log : RpcLog) :
    Except Error LegacyOrmPEvent := do
  ensure (← matchesTransaction number tx log) "Tron transaction metadata mismatch"
  let event ← decodeEvmLog crates (← normalizeLog number index block tx log)
  match event with
  | .messageAccepted e =>
      ensure (e.fromChainId == CHAIN_ID) "Tron message source chain mismatch"
      return event
  | _ => return event

/-! ## The logs of a range -/

/-- The two caches and the positions that have been seen. -/
structure Seen where
  blocks : List (Nat × JsonObject)
  transactions : List (String × JsonObject)
  positions : List (Nat × Nat)

def Seen.empty : Seen := ⟨[], [], []⟩

def blockOf (seen : Seen) (number : Nat) : Async JsonObject :=
  match seen.blocks.lookup number with
  | some block => return block
  | none => do
      let block ← await (.getBlockByNumber number)
      let named ← Task.ofExcept (quantity block "number")
      check (named == number) "Tron block number mismatch"
      return block

def transactionOf (seen : Seen) (hash : String) : Async JsonObject :=
  match seen.transactions.lookup hash with
  | some tx => return tx
  | none => await (.getTransactionByHash hash)

def decodeLogs (start stop : Nat) : Seen → List RpcLog → Async (List LegacyOrmPEvent)
  | _, [] => return []
  | seen, log :: logs => do
      let (number, index) ← Task.ofExcept (locateLog start stop log)
      check (!seen.positions.contains (number, index)) "Tron returned duplicate log positions"
      let block ← blockOf seen number
      Task.ofExcept (checkBlockHash block log)
      let tx ← transactionOf seen log.transactionHash
      let event ← Task.ofExcept (decodeLog crates number index block tx log)
      let events ← decodeLogs start stop
        ⟨(number, block) :: seen.blocks, (log.transactionHash, tx) :: seen.transactions,
          (number, index) :: seen.positions⟩ logs
      return event :: events

def decodeRange (logs : List RpcLog) (start stop : Nat) : Async (List LegacyOrmPEvent) :=
  decodeLogs crates start stop .empty logs

/-! ## The loop -/

/-- The key of `sort_by_key`: block, transaction index, log index. -/
def sortKey (log : RpcLog) : Nat × Nat × Nat :=
  let number value := ((hexU64 value).toOption).getD u64Max
  (number log.blockNumber, number log.transactionIndex, number log.logIndex)

def keyLe (a b : Nat × Nat × Nat) : Bool :=
  decide (a.1 < b.1) || (a.1 == b.1 &&
    (decide (a.2.1 < b.2.1) || (a.2.1 == b.2.1 && decide (a.2.2 ≤ b.2.2))))

def sortLogs (logs : List RpcLog) : List RpcLog :=
  logs.insertionSort fun a b => keyLe (sortKey a) (sortKey b) = true

/-- The loop that halves a range: the logs, and the end of the range they are from. -/
def fetchLogs (cursor : Nat) : Nat → Nat → Async (List RpcLog × Nat)
  | fuel, rangeEnd => do
      match ← (TronRpc.logs cursor rangeEnd).attempt with
      | .ok logs => return (logs, rangeEnd)
      | .error error =>
          if rangeEnd = cursor then
            Task.ofExcept (.error ("Tron range failed; progress unchanged" :: error))
          else
            match fuel with
            | 0 => Task.ofExcept (.error error)
            | fuel + 1 => fetchLogs cursor fuel (cursor + (rangeEnd - cursor) / 2)

/-- The length of the range is fuel enough. -/
theorem fetchLogs_congr_fuel {cursor : Nat} {fuel fuel' rangeEnd : Nat}
    (h : rangeEnd - cursor ≤ fuel) (h' : rangeEnd - cursor ≤ fuel') (hle : cursor ≤ rangeEnd) :
    fetchLogs cursor fuel rangeEnd = fetchLogs cursor fuel' rangeEnd := by
  induction fuel generalizing fuel' rangeEnd with
  | zero =>
      have hone : rangeEnd = cursor := by omega
      cases fuel' with
      | zero => rfl
      | succ fuel' =>
          rw [fetchLogs, fetchLogs]
          simp only [if_pos hone]
  | succ fuel ih =>
      by_cases hone : rangeEnd = cursor
      · cases fuel' <;>
          · rw [fetchLogs, fetchLogs]
            simp only [if_pos hone]
      · obtain ⟨fuel', rfl⟩ : ∃ n, fuel' = n + 1 := ⟨fuel' - 1, by omega⟩
        have hhalf : fetchLogs cursor fuel (cursor + (rangeEnd - cursor) / 2) =
            fetchLogs cursor fuel' (cursor + (rangeEnd - cursor) / 2) :=
          ih (by omega) (by omega) (by omega)
        rw [fetchLogs, fetchLogs]
        simp only [if_neg hone, hhalf]

/-- The `while` loop of `recover`. Without a store nothing is written. -/
def recoverRanges (store : Bool) (stop batchSize : Nat) :
    Nat → Nat → Nat → Nat → Async (Nat × Nat)
  | 0, _, ranges, count => return (ranges, count)
  | fuel + 1, cursor, ranges, count =>
      if cursor ≤ stop then do
        let rangeEnd := min (saturatingAdd cursor (batchSize - 1)) stop
        let (logs, rangeEnd) ← fetchLogs cursor (rangeEnd - cursor) rangeEnd
        let events ← decodeRange crates (sortLogs logs) cursor rangeEnd
        let next ← Task.ofExcept
          (contextOption "Tron recovery height overflow" (checkedAdd rangeEnd 1))
        if store then RecoveryStore.commit events next
        recoverRanges store stop batchSize fuel next (ranges + 1) (count + events.length)
      else return (ranges, count)

/-- The number of ranges and the number of events. -/
def recover (store : Bool) (start stop batchSize : Nat) : Async (Nat × Nat) :=
  recoverRanges crates store stop batchSize (stop + 1 - start) start 0 0

end

end TronRecovery

end OrmpIndexer
