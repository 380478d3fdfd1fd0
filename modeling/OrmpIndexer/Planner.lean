/-
# OrmpIndexer.Planner — datasets, default chains, event topics and query plans

`planner.rs`. A chain has a dataset exactly when it has a default configuration; the dataset is the
same for all of them, so that rows of different chains differ by their chain id only.

`planEvmLogQueries` cuts an interval of blocks into log queries. The runner does not call it: it plans one
range at a time, from its checkpoint.
-/
import OrmpIndexer.Datalens.Types

namespace OrmpIndexer

/-- The contracts, in the spelling of the source. -/
def MSGPORT_ADDRESS : String := "0x2cd1867Fb8016f93710B6386f7f9F1D540A60812"
def ORMP_ADDRESS : String := "0x13b2211a7cA45Db2808F6dB05557ce5347e3634e"
def SIGNATURE_PUB_ADDRESS : String := "0x57Aa601A0377f5AB313C5A955ee874f5D495fC92"

/-- The topics of the events: the hashes of their signatures. -/
def MSGPORT_MESSAGE_RECV_TOPIC : String :=
  "0xea087580bb17f433441f3b6c0c0b80cae92ee74a8d7f50050388646d9ffd1431"
def MSGPORT_MESSAGE_SENT_TOPIC : String :=
  "0x40195d26d027672e04e23e34282d68c3d43ea138415b24c54fcdb9c2573e5975"
def ORMP_HASH_IMPORTED_TOPIC : String :=
  "0xa931ec14fe958397dcb26e285e56292c13d77907712b51bbaa24cfc9349b789d"
def ORMP_MESSAGE_ACCEPTED_TOPIC : String :=
  "0xcfb9b3466878aff0c7df17da215fd57d59eb245a5d03f5a7b57294d54581eb18"
def ORMP_MESSAGE_ASSIGNED_TOPIC : String :=
  "0x3832f95736b288316c84b775a004a9d17177362548ce253cba9acb4801875f4d"
def ORMP_MESSAGE_DISPATCHED_TOPIC : String :=
  "0x62b1dc20fd6f1518626da5b6f9897e8cd4ebadbad071bb66dc96a37c970087a8"
def SIGNATURE_PUB_SIGNATURE_SUBMITTION_TOPIC : String :=
  "0x8b3975e4768e70d323e926e2cef0676fc9a3250437d9b8f90b52c770f0d7545f"

/-- The dataset of every chain. -/
def EVM_LOGS_DATASET : String := "evm.logs"

/-- A chain that is indexed by default. -/
structure DefaultEvmChain where
  chainId : Nat
  startBlock : Nat
  includeSignaturePub : Bool

/-- Darwinia (46) alone has the contract that publishes signatures. -/
def DEFAULT_EVM_CHAINS : List DefaultEvmChain :=
  [⟨1, 20009590, false⟩, ⟨46, 2830100, true⟩, ⟨137, 57244567, false⟩, ⟨42161, 217891600, false⟩,
    ⟨8453, 30508102, false⟩, ⟨44, 2900604, false⟩, ⟨1284, 6294138, false⟩,
    ⟨81457, 4293849, false⟩, ⟨2818, 59565, false⟩]

/-- The contracts a chain is asked for logs of. -/
def defaultContracts (includeSignaturePub : Bool) : List String :=
  [MSGPORT_ADDRESS, ORMP_ADDRESS] ++ if includeSignaturePub then [SIGNATURE_PUB_ADDRESS] else []

/-- The topics a chain is asked for logs of. -/
def defaultTopics (includeSignaturePub : Bool) : List String :=
  [MSGPORT_MESSAGE_RECV_TOPIC, MSGPORT_MESSAGE_SENT_TOPIC, ORMP_HASH_IMPORTED_TOPIC,
    ORMP_MESSAGE_ACCEPTED_TOPIC, ORMP_MESSAGE_ASSIGNED_TOPIC, ORMP_MESSAGE_DISPATCHED_TOPIC] ++
    if includeSignaturePub then [SIGNATURE_PUB_SIGNATURE_SUBMITTION_TOPIC] else []

/-- What is not overridden for a chain. Its mode is `finalized`. -/
def defaultEvmChainConfig (chainId : Nat) : Except Error ChainConfig :=
  match DEFAULT_EVM_CHAINS.find? fun chain => chain.chainId == chainId with
  | none => .error [s!"unconfigured ORMP EVM chain {chainId}"]
  | some chain => .ok {
      chainId := chainId
      startBlock := chain.startBlock
      batchSize := 1000
      contracts := defaultContracts chain.includeSignaturePub
      topics := defaultTopics chain.includeSignaturePub
      finalityMode := .finalized }

/-- All chains are EVM chains; only the text of the error is another. -/
def defaultChainConfig (chainId : Nat) : Except Error ChainConfig :=
  (defaultEvmChainConfig chainId).mapError fun _ => [s!"unconfigured ORMP chain {chainId}"]

/-- The dataset of a chain, an error for one without defaults. -/
def chainDataset (chainId : Nat) : Except Error String := do
  let _ ← defaultEvmChainConfig chainId
  return EVM_LOGS_DATASET

/-- A chain without a default configuration is refused; every other chain has the one dataset. -/
theorem chainDataset_eq_ok {chainId : Nat} {dataset : String}
    (h : chainDataset chainId = .ok dataset) : dataset = EVM_LOGS_DATASET := by
  obtain ⟨_, _, h⟩ := bind_eq_ok.mp h
  exact (Except.ok.inj h).symm

/-! ## Query plans -/

/-- A log query and the dataset it goes to. -/
structure PlannedDatalensLogQuery where
  dataset : String
  query : DatalensLogQuery
deriving DecidableEq, Repr

/-- The `while` loop of `plan_evm_log_queries`. -/
def planQueries (chain : ChainConfig) (toBlock maxRangeLen : Nat) (finalityMode : FinalityMode)
    (nextFrom : Nat) : List PlannedDatalensLogQuery :=
  if nextFrom ≤ toBlock then
    let rangeEnd := min (saturatingAdd nextFrom (maxRangeLen - 1)) toBlock
    let plan : PlannedDatalensLogQuery := {
      dataset := EVM_LOGS_DATASET
      query := {
        chainId := chain.chainId, fromBlock := nextFrom, toBlock := rangeEnd
        contracts := chain.contracts, topics := chain.topics, finalityMode } }
    -- no block comes after `u64::MAX`
    if rangeEnd = u64Max then [plan]
    else plan :: planQueries chain toBlock maxRangeLen finalityMode (rangeEnd + 1)
  else []
termination_by toBlock + 1 - nextFrom
decreasing_by
  rename_i hfrom hend
  change ¬min (min (nextFrom + (maxRangeLen - 1)) u64Max) toBlock = u64Max at hend
  show toBlock + 1 - (min (min (nextFrom + (maxRangeLen - 1)) u64Max) toBlock + 1) < _
  generalize u64Max = limit at hend ⊢
  omega

/-- The dataset that is asked for is ignored, as in the source. -/
def planEvmLogQueries (_dataset : String) (chain : ChainConfig)
    (fromBlock toBlock maxRangeLen : Nat) (finalityMode : FinalityMode) :
    Except Error (List PlannedDatalensLogQuery) := do
  ensure (0 < maxRangeLen) "max range length must be greater than zero"
  ensure (fromBlock ≤ toBlock) "from block must be less than or equal to to block"
  ensure (!chain.contracts.isEmpty) "EVM log query planner requires at least one contract address"
  ensure (!chain.topics.isEmpty) "EVM log query planner requires at least one event topic"
  return planQueries chain toBlock maxRangeLen finalityMode fromBlock

end OrmpIndexer
