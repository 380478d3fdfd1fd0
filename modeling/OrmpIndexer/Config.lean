/-
# OrmpIndexer.Config — the configuration the runner reads

`config.rs`. Of `RuntimeConfig` the runner reads the head buffer and the reorg window; everything
about a chain is in its `ChainConfig`.
-/
import OrmpIndexer.Basic

namespace OrmpIndexer

/-- How final a block must be before it is indexed. -/
inductive FinalityMode where
  | finalized
  | durable
  | safe
  | latest
deriving DecidableEq, Repr

namespace FinalityMode

def asStr : FinalityMode → String
  | finalized => "finalized"
  | durable => "durable"
  | safe => "safe"
  | latest => "latest"

def fromStr (value : String) : Except Error FinalityMode :=
  if value = "finalized" then .ok finalized
  else if value = "durable" then .ok durable
  else if value = "safe" then .ok safe
  else if value = "latest" then .ok latest
  else .error ["ORMPINDEXER_FINALITY_MODE must be finalized, durable, safe, or latest"]

/-- What `as_str` writes into the anchor table, `from_str` reads back. -/
theorem fromStr_asStr (mode : FinalityMode) : fromStr mode.asStr = .ok mode := by
  cases mode <;> rfl

/-- Only blocks that are not final yet are checked against reorganisations. -/
def usesReorgProtection : FinalityMode → Bool
  | safe | latest => true
  | finalized | durable => false

end FinalityMode

/-- A chain that is indexed: where it begins, how many blocks a request is for, and which logs it asks for. -/
structure ChainConfig where
  chainId : Nat
  startBlock : Nat
  batchSize : Nat
  contracts : List String
  topics : List String
  finalityMode : FinalityMode
deriving DecidableEq, Repr

structure DatalensConfig where
  headBufferBlocks : Nat
deriving DecidableEq, Repr

structure RuntimeConfig where
  datalens : DatalensConfig
  enabledChains : List ChainConfig
  reorgWindowBlocks : Nat
deriving DecidableEq, Repr

end OrmpIndexer
