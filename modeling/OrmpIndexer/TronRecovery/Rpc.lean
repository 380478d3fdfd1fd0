/-
# OrmpIndexer.TronRecovery.Rpc — the recovery's calls, and the Tron node behind them

`tron_recovery/rpc.rs`. The recovery task talks to a Tron node over JSON-RPC and to the database the indexer
writes. `Op` lists every awaited call of both kinds; the statements are those of `TronRecovery.Storage`.

A request is repeated on some HTTP errors, and the URL and the key of the node are configuration. None of
this shows in a reply, so a request is one call that may fail. Of a JSON object the task reads members
that are texts (`JsonObject`).
-/
import OrmpIndexer.Checkpoint
import OrmpIndexer.Foundation.Hex
import OrmpIndexer.Schema.Types

namespace OrmpIndexer

open Foundation

namespace TronRecovery

def CHAIN_ID : Nat := 728126428
def ORMP : String := "0x5c5c383febe62f377f8c0ea1de97f2a2ba102e98"
def MSGPORT : String := "0x3bc5362ec3a3dbc07292aed4ef18be18de02da3a"

/-- The key of the recovery's checkpoint. -/
def DATASET : String := "tron.ormp-recovery.v1"

structure RpcLog where
  address : String
  topics : List String
  data : String
  blockNumber : String
  blockHash : String
  transactionHash : String
  transactionIndex : String
  logIndex : String
  removed : Bool
deriving DecidableEq, Repr

/-- The members of a JSON object that are texts. Any other value has none. -/
abbrev JsonObject := List (String × String)

/-! ## Quantities -/

/-- The hex digits of a `u64`, after the value of the ones before. -/
def parseHexDigits : Nat → List Char → Except Error Nat
  | value, [] => .ok value
  | value, c :: digits =>
      match hexValue c with
      | none => .error ["invalid digit found in string"]
      | some digit =>
          if u64Max < value * 16 + digit then .error ["number too large to fit in target type"]
          else parseHexDigits (value * 16 + digit) digits

/-- `u64::from_str_radix(_, 16)`: a plus sign may come first. -/
def fromStrRadix16 : List Char → Except Error Nat
  | [] => .error ["cannot parse integer from empty string"]
  | ['+'] => .error ["invalid digit found in string"]
  | '+' :: digits => parseHexDigits 0 digits
  | digits => parseHexDigits 0 digits

def hexU64 (value : String) : Except Error Nat :=
  match value.toList with
  | '0' :: 'x' :: digits => context "invalid RPC quantity" (fromStrRadix16 digits)
  | _ => .error ["RPC quantity must have 0x prefix"]

def text (value : JsonObject) (field : String) : Except Error String :=
  contextOption s!"RPC missing {field}" (value.lookup field)

def quantity (value : JsonObject) (field : String) : Except Error Nat := do
  hexU64 (← text value field)

/-! ## Calls -/

/-- The awaited calls of the task: requests to the node, and statements and transactions of the store. -/
inductive Op where
  | chainId
  | nowBlock
  | getLogs (fromBlock toBlock : Nat)
  | getBlockByNumber (number : Nat)
  | getTransactionByHash (hash : String)
  | tryAdvisoryLock
  | tableExists (table : String)
  | precedingMessage
  | insertCheckpoint (chainId : Nat) (dataset : String) (startBlock : Nat)
  | selectCheckpoint (chainId : Nat) (dataset : String)
  | messageConflicts (event : MessageAccepted)
  | acceptedMetadata (msgHash : String)
  | assignmentIds (event : MessageAssigned)
  | writeEventsAndAdvanceCheckpoint (events : List LegacyOrmPEvent) (anchors : List BlockAnchor)
      (chainId : Nat) (dataset : String) (nextBlock : Nat)
deriving DecidableEq

/-- What each call returns. -/
abbrev Reply : Op → Type
  | .chainId => Option String
  | .nowBlock => Option Nat
  | .getLogs .. => List RpcLog
  | .getBlockByNumber .. => JsonObject
  | .getTransactionByHash .. => JsonObject
  | .tryAdvisoryLock => Bool
  | .tableExists .. => Bool
  | .precedingMessage => Option String
  | .insertCheckpoint .. => Unit
  | .selectCheckpoint .. => Nat
  | .messageConflicts .. => Bool
  | .acceptedMetadata .. => Option (Nat × Int)
  | .assignmentIds .. => List String
  | .writeEventsAndAdvanceCheckpoint .. => Nat

/-- An `async fn` of the recovery. -/
abbrev Async (α : Type) := Task Op Reply Error α

/-- `op.await?`. -/
def await (op : Op) : Async (Reply op) := Task.await op

/-- `ensure!` in an `async fn`. -/
def check (p : Bool) (message : String) : Async Unit := Task.ofExcept (ensure p message)

/-! ## The node -/

namespace TronRpc

def ensureMainnet : Async Unit := do
  let chain ← await .chainId
  let chain ← Task.ofExcept (contextOption "Tron chain ID missing" chain)
  let chain ← Task.ofExcept (hexU64 chain)
  check (chain == CHAIN_ID) s!"Tron RPC must use mainnet chain {CHAIN_ID}"

def confirmedHead : Async Nat := do
  let head ← await .nowBlock
  Task.ofExcept (contextOption "confirmed Tron head missing" head)

def logs (fromBlock toBlock : Nat) : Async (List RpcLog) := do
  let logs ← await (.getLogs fromBlock toBlock)
  -- a node cuts its answer at this length
  check (logs.length < 10000) "Tron log result may be truncated; shrink range"
  return logs

end TronRpc

end TronRecovery

end OrmpIndexer
