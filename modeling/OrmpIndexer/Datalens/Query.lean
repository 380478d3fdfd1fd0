/-
# OrmpIndexer.Datalens.Query — from response rows to logs and blocks

`datalens/query.rs` and the reader half of `datalens/client.rs`. The server answers with JSON; what
`serde` makes of a row, as a log or as a block, is part of the row here (`Value`), so the model starts
where the source's own code does. The client keeps the log rows whose block lies in the window the
server SAYS it served; the requested range plays no role in that filter (`mem_queryLogs`).
-/
import OrmpIndexer.Datalens.Types

namespace OrmpIndexer

open Foundation

/-- A log row of the response. -/
structure WireLog where
  blockNumber : Nat
  blockHash : String
  blockTimestamp : Option Nat
  transactionHash : String
  transactionIndex : Nat
  logIndex : Nat
  address : String
  topics : List String
  data : String
  transactionFrom : Option String
deriving DecidableEq, Repr

/-- A block row of the response. -/
structure WireBlock where
  number : Nat
  hash : String
  parentHash : String
deriving DecidableEq, Repr

/-- A JSON row, as far as the indexer looks at it. -/
structure Value where
  asLog : Except Error WireLog
  asBlock : Except Error WireBlock

structure QueryPage where
  servedStart : Option Nat
  servedEnd : Option Nat
  incompleteReason : Option IncompleteReason
  nextCursor : Option String
  rows : List Value

structure WireRange where
  start : Nat
  stop : Nat
deriving DecidableEq, Repr

/-- The response of a query. -/
structure WireQuery where
  served : Option WireRange
  incompleteReason : Option IncompleteReason
  rows : List Value
  nextCursor : Option String

/-- `parse_query_page`, given what `serde_json` reads in a body. -/
def parseQueryPage (fromStr : String → Except Error WireQuery) (body : String) :
    Except Error QueryPage := do
  let wire ← context "decode Datalens query response" (fromStr body)
  return {
    servedStart := wire.served.map (·.start)
    servedEnd := wire.served.map (·.stop)
    incompleteReason := wire.incompleteReason
    nextCursor := wire.nextCursor
    rows := wire.rows }

/-- The largest value of an `i32`. -/
def i32Max : Nat := 2147483647

/-- `i32::try_from` of an unsigned integer. -/
def i32TryFrom (message : String) (n : Nat) : Except Error Int :=
  if n ≤ i32Max then .ok n else .error [message]

theorem i32TryFrom_eq_ok {m : String} {n : Nat} {i : Int} :
    i32TryFrom m n = .ok i ↔ n ≤ i32Max ∧ i = n := by
  unfold i32TryFrom
  split
  · rename_i h
    exact ⟨fun hi => ⟨h, (Except.ok.inj hi).symm⟩, fun hi => by rw [hi.2]⟩
  · rename_i h
    exact iff_of_false (by simp) fun hi => h hi.1

/-- The id a log gets: chain, block, transaction and log index. -/
def logId (chainId blockNumber : Nat) (transactionHash : String) (logIndex : Nat) : String :=
  s!"{chainId}-{blockNumber}-{transactionHash}-{logIndex}"

def logFromRow (row : Value) (chainId : Nat) : Except Error DatalensLog := do
  let row ← context "decode Datalens log row" row.asLog
  let transactionIndex ←
    i32TryFrom "Datalens log transaction_index overflows i32" row.transactionIndex
  return {
    id := some (logId chainId row.blockNumber row.transactionHash row.logIndex)
    chainId := chainId
    blockNumber := row.blockNumber
    blockHash := some row.blockHash
    parentHash := none
    blockTimestamp := row.blockTimestamp
    transactionHash := row.transactionHash
    transactionIndex := some transactionIndex
    logIndex := row.logIndex
    address := row.address
    transactionFrom := row.transactionFrom
    topics := row.topics
    data := row.data }

def blockFromRow (row : Value) (chainId : Nat) : Except Error DatalensBlock := do
  let row ← context "decode Datalens block row" row.asBlock
  return {
    chainId := chainId
    blockNumber := row.number
    blockHash := row.hash
    parentHash := some row.parentHash }

/-- The log rows inside the served window. A row that is not a log fails the answer wherever its
block lies. -/
def logsFromPage (page : QueryPage) (chainId : Nat) : Except Error (List DatalensLog) :=
  match page.servedStart with
  | none => .ok []
  | some servedStart =>
      let servedEnd := page.servedEnd.getD servedStart
      let kept := (page.rows.map fun row => logFromRow row chainId).filter fun log =>
        match log with
        | .ok log => decide (servedStart ≤ log.blockNumber) && decide (log.blockNumber ≤ servedEnd)
        | .error _ => true
      kept.mapM id

def blocksFromPage (page : QueryPage) (chainId : Nat) : Except Error (List DatalensBlock) :=
  page.rows.mapM fun row => blockFromRow row chainId

def evmChainName (chainId : Nat) : Except Error String :=
  match chainId with
  | 1 => .ok "ethereum"
  | 44 => .ok "crab"
  | 46 => .ok "darwinia"
  | 137 => .ok "polygon"
  | 1284 => .ok "moonbeam"
  | 8453 => .ok "base"
  | 42161 => .ok "arbitrum"
  | 81457 => .ok "blast"
  | 2818 => .ok "morph"
  | _ => .error [s!"unsupported EVM Datalens chain id: {chainId}"]

/-- `DatalensHttpClient::query_logs`, given what `post_query` returned for the request. -/
def DatalensHttpClient.queryLogs (page : Except Error QueryPage) (query : DatalensLogQuery) :
    Except Error DatalensLogQueryResult := do
  let _ ← evmChainName query.chainId
  let page ← page
  let logs ← logsFromPage page query.chainId
  return {
    logs := logs
    servedStart := page.servedStart
    servedEnd := page.servedEnd
    incompleteReason := page.incompleteReason }

/-- `DatalensHttpClient::query_blocks`, given what `post_query` returned for the request. -/
def DatalensHttpClient.queryBlocks (page : Except Error QueryPage) (query : DatalensBlockQuery) :
    Except Error DatalensBlockQueryResult := do
  let _ ← evmChainName query.chainId
  let page ← page
  let blocks ← blocksFromPage page query.chainId
  return {
    blocks := blocks
    servedStart := page.servedStart
    servedEnd := page.servedEnd
    incompleteReason := page.incompleteReason }

/-! ## What the client keeps -/

theorem logFromRow_eq_ok {row : Value} {chainId : Nat} {log : DatalensLog}
    (h : logFromRow row chainId = .ok log) :
    log.chainId = chainId ∧ log.blockHash.isSome ∧
      log.id = some (logId chainId log.blockNumber log.transactionHash log.logIndex) := by
  simp only [logFromRow, bind_eq_ok] at h
  obtain ⟨row, _, i, _, h⟩ := h
  cases h
  exact ⟨rfl, rfl, rfl⟩

/-- The window of an answer is the window of the page, unread. -/
theorem window_queryLogs {page : QueryPage} {query : DatalensLogQuery}
    {result : DatalensLogQueryResult}
    (h : DatalensHttpClient.queryLogs (.ok page) query = .ok result) :
    result.servedStart = page.servedStart ∧ result.servedEnd = page.servedEnd := by
  simp only [DatalensHttpClient.queryLogs, bind_eq_ok] at h
  obtain ⟨_, _, _, hpage, logs, _, h⟩ := h
  cases hpage
  cases h
  exact ⟨rfl, rfl⟩

/-- The logs of an answer are those of the chain in the window the SERVER names. -/
theorem mem_queryLogs {page : Except Error QueryPage} {query : DatalensLogQuery}
    {result : DatalensLogQueryResult} (h : DatalensHttpClient.queryLogs page query = .ok result)
    {log : DatalensLog} (hlog : log ∈ result.logs) :
    log.chainId = query.chainId ∧ ∃ servedStart, result.servedStart = some servedStart ∧
      servedStart ≤ log.blockNumber ∧ log.blockNumber ≤ result.servedEnd.getD servedStart := by
  simp only [DatalensHttpClient.queryLogs, bind_eq_ok] at h
  obtain ⟨_, _, page, _, logs, hlogs, h⟩ := h
  cases h
  unfold logsFromPage at hlogs
  split at hlogs
  · cases hlogs
    cases hlog
  · rename_i servedStart hstart
    obtain ⟨r, hr, hok⟩ := (mapM_eq_ok hlogs).1 log hlog
    obtain ⟨hrow, hkept⟩ := List.mem_filter.mp hr
    obtain rfl : r = .ok log := hok
    obtain ⟨row, _, hrow⟩ := List.mem_map.mp hrow
    have bounds := Bool.and_eq_true_iff.mp hkept
    exact ⟨(logFromRow_eq_ok hrow).1, servedStart, hstart, of_decide_eq_true bounds.1,
      of_decide_eq_true bounds.2⟩

theorem toList_logId (c n : Nat) (t : String) (i : Nat) :
    (logId c n t i).toList =
      decimal c ++ '-' :: (decimal n ++ '-' :: (t.toList ++ '-' :: decimal i)) := by
  have dash : (toString "-").toList = ['-'] := rfl
  simp only [logId, String.toList_append, toList_toString_nat, dash, List.append_assoc,
    List.singleton_append]
  rfl

/-- The id determines the chain, the block and the log index, whatever the transaction hash looks like. -/
theorem logId_inj {c d n m i j : Nat} {t u : String} (h : logId c n t i = logId d m u j) :
    c = d ∧ n = m ∧ i = j := by
  have hl := congrArg String.toList h
  rw [toList_logId, toList_logId] at hl
  obtain ⟨chain, hl⟩ := decimal_dash_inj hl
  obtain ⟨block, hl⟩ := decimal_dash_inj hl
  exact ⟨chain, block, (dash_decimal_inj hl).2⟩

end OrmpIndexer
