/-
# OrmpIndexer.Datalens.Types — what the indexer asks the Datalens server and what it is told

`datalens/types.rs`. A query answer carries a served window and, when the server stopped early, the
reason. The window's two ends are independent optional values: nothing in the type says that both are
there or that they are in order.
-/
import OrmpIndexer.Config

namespace OrmpIndexer

/-- Why the server stopped before the end of the requested range. -/
inductive IncompleteReason where
  | pending
  | providerError
  | budgetExhausted
  | notFollowedYet
deriving DecidableEq, Repr

structure DatalensBlockQuery where
  chainId : Nat
  fromBlock : Nat
  toBlock : Nat
  finalityMode : FinalityMode
deriving DecidableEq, Repr

structure DatalensBlock where
  chainId : Nat
  blockNumber : Nat
  blockHash : String
  parentHash : Option String
deriving DecidableEq, Repr

structure DatalensBlockQueryResult where
  blocks : List DatalensBlock
  servedStart : Option Nat
  servedEnd : Option Nat
  incompleteReason : Option IncompleteReason
deriving DecidableEq, Repr

/-- The answer is complete and its window contains the blocks from `fromBlock` to `toBlock`. -/
def DatalensBlockQueryResult.covers (self : DatalensBlockQueryResult) (fromBlock toBlock : Nat) :
    Bool :=
  self.incompleteReason.isNone && self.servedStart.any (fun start => start ≤ fromBlock) &&
    self.servedEnd.any (fun stop => toBlock ≤ stop)

structure DatalensLogQuery where
  chainId : Nat
  fromBlock : Nat
  toBlock : Nat
  contracts : List String
  topics : List String
  finalityMode : FinalityMode
deriving DecidableEq, Repr

structure DatalensLog where
  id : Option String
  chainId : Nat
  blockNumber : Nat
  blockHash : Option String
  parentHash : Option String
  blockTimestamp : Option Nat
  transactionHash : String
  transactionIndex : Option Int
  logIndex : Nat
  address : String
  transactionFrom : Option String
  topics : List String
  data : String
deriving DecidableEq, Repr

/-- Logs inside the contiguous served prefix, plus why the request stopped. -/
structure DatalensLogQueryResult where
  logs : List DatalensLog
  /-- Inclusive start of the served window, absent when the server served nothing. -/
  servedStart : Option Nat
  /-- Inclusive end of the served prefix, absent when the server served nothing. -/
  servedEnd : Option Nat
  incompleteReason : Option IncompleteReason
deriving DecidableEq, Repr

end OrmpIndexer
