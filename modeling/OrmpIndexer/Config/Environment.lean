/-
# OrmpIndexer.Config.Environment — the configuration, from the environment map

`RuntimeConfig::from_env_map` of `config.rs`. Every value is trimmed, and an empty one counts as missing.
The runner's part of the result is `RuntimeConfig`; the rest of the fields are `Settings`.

The chains are the items of a list, one `ChainConfig` for each item in the order of the list
(`fromEnvMap_chains`). Nothing compares the items with each other, and two spellings of a number, such as
`46`, `+46` and `046`, are the same chain.
-/
import OrmpIndexer.Planner
import Mathlib.Data.List.Nodup

namespace OrmpIndexer

open Foundation

/-! ## Values -/

/-- The environment variables that are set. -/
abbrev EnvMap := String → Option String

/-- The digits of a `u64`, after the value of the ones before. -/
def parseDigits : Nat → List Char → Except Error Nat
  | value, [] => .ok value
  | value, c :: digits =>
      if !c.isDigit then .error ["invalid digit found in string"]
      else if u64Max < value * 10 + (c.toNat - '0'.toNat) then
        .error ["number too large to fit in target type"]
      else parseDigits (value * 10 + (c.toNat - '0'.toNat)) digits

/-- `str::parse::<u64>`: a plus sign may come first. -/
def parseU64 (value : String) : Except Error Nat :=
  match value.toList with
  | [] => .error ["cannot parse integer from empty string"]
  | ['+'] => .error ["invalid digit found in string"]
  | '+' :: digits => parseDigits 0 digits
  | digits => parseDigits 0 digits

def optionalEnv (env : EnvMap) (key : String) : Option String :=
  ((env key).map fun value => String.ofList (trim value.toList)).filter fun value => !value.isEmpty

def optionalU64 (env : EnvMap) (key : String) : Except Error (Option Nat) :=
  (optionalEnv env key).mapM fun value => context s!"parse {key} as u64" (parseU64 value)

def splitList (value : String) : List String :=
  ((splitAtChar ',' value).map fun item => String.ofList (trim item.toList)).filter fun item =>
    !item.isEmpty

def optionalList (env : EnvMap) (key : String) : List String :=
  ((optionalEnv env key).map splitList).getD []

def requiredList (env : EnvMap) (key : String) : Except Error (List String) :=
  let values := optionalList env key
  if values.isEmpty then .error [s!"{key} must be configured"] else .ok values

/-- A finality mode, if one is given. -/
def optionalFinalityMode (env : EnvMap) (key : String) : Except Error (Option FinalityMode) :=
  (optionalEnv env key).mapM FinalityMode.fromStr

/-! ## The configuration -/

structure DatalensSettings extends DatalensConfig where
  endpoint : String
  application : String
  token : Option String
  timeoutSecs : Nat
  queryMaxAttempts : Nat
  minRequestIntervalMs : Nat
deriving DecidableEq, Repr

structure MetricsConfig where
  refreshDelayMs : Nat
  refreshTimeoutMs : Nat
deriving DecidableEq, Repr

/-- All of the source's `RuntimeConfig`. -/
structure Settings where
  datalens : DatalensSettings
  metrics : MetricsConfig
  databaseUrl : Option String
  enabledChains : List ChainConfig
  batchSize : Nat
  startBlock : Nat
  finalityMode : FinalityMode
  reorgWindowBlocks : Nat
  pollIntervalSecs : Nat
deriving DecidableEq, Repr

/-- What the runner reads. -/
def Settings.runtimeConfig (settings : Settings) : RuntimeConfig where
  datalens := settings.datalens.toDatalensConfig
  enabledChains := settings.enabledChains
  reorgWindowBlocks := settings.reorgWindowBlocks

def MetricsConfig.fromEnvMap (env : EnvMap) : Except Error MetricsConfig := do
  let refreshDelayMs := (← optionalU64 env "ORMPINDEXER_METRICS_REFRESH_DELAY_MS").getD 5000
  ensure (refreshDelayMs != 0) "ORMPINDEXER_METRICS_REFRESH_DELAY_MS must be greater than zero"
  let refreshTimeoutMs := (← optionalU64 env "ORMPINDEXER_METRICS_REFRESH_TIMEOUT_MS").getD 10000
  ensure (refreshTimeoutMs != 0) "ORMPINDEXER_METRICS_REFRESH_TIMEOUT_MS must be greater than zero"
  return { refreshDelayMs, refreshTimeoutMs }

def ChainConfig.fromEnvMap (env : EnvMap) (chainId : Nat) (defaultStartBlock : Option Nat)
    (defaultBatchSize : Nat) (defaultFinalityMode : FinalityMode) : Except Error ChainConfig := do
  let pre := s!"ORMPINDEXER_CHAIN_{chainId}"
  let default ← defaultChainConfig chainId
  let contracts := optionalList env s!"{pre}_CONTRACTS"
  let topics := optionalList env s!"{pre}_TOPICS"
  let chainStartBlock ← optionalU64 env s!"{pre}_START_BLOCK"
  let startBlock := (chainStartBlock.or defaultStartBlock).getD default.startBlock
  let batchSize := (← optionalU64 env s!"{pre}_BATCH_SIZE").getD defaultBatchSize
  ensure (batchSize != 0) s!"{pre}_BATCH_SIZE must be greater than zero"
  let finalityMode :=
    (← optionalFinalityMode env s!"{pre}_FINALITY_MODE").getD defaultFinalityMode
  return {
    chainId, startBlock, batchSize, finalityMode
    contracts := if contracts.isEmpty then default.contracts else contracts
    topics := if topics.isEmpty then default.topics else topics }

/-- An item of the list of chains. -/
def parseChainId (value : String) : Except Error Nat :=
  context s!"parse ORMPINDEXER_ENABLED_CHAINS item: {value}" (parseU64 value)

/-- `RuntimeConfig::from_env_map`. -/
def Settings.fromEnvMap (env : EnvMap) : Except Error Settings := do
  let startBlock ← optionalU64 env "ORMPINDEXER_START_BLOCK"
  let batchSize := (← optionalU64 env "ORMPINDEXER_BATCH_SIZE").getD 1000
  ensure (batchSize != 0) "ORMPINDEXER_BATCH_SIZE must be greater than zero"
  let chainIds ← (← requiredList env "ORMPINDEXER_ENABLED_CHAINS").mapM parseChainId
  let finalityMode := (← optionalFinalityMode env "ORMPINDEXER_FINALITY_MODE").getD .finalized
  let enabledChains ← chainIds.mapM fun chainId =>
    ChainConfig.fromEnvMap env chainId startBlock batchSize finalityMode
  let timeoutSecs := (← optionalU64 env "ORMPINDEXER_DATALENS_TIMEOUT_SECS").getD 300
  ensure (timeoutSecs != 0) "ORMPINDEXER_DATALENS_TIMEOUT_SECS must be greater than zero"
  let queryMaxAttempts :=
    (← optionalU64 env "ORMPINDEXER_DATALENS_QUERY_MAX_ATTEMPTS").getD 3
  ensure (queryMaxAttempts != 0)
    "ORMPINDEXER_DATALENS_QUERY_MAX_ATTEMPTS must be greater than zero"
  let headBufferBlocks :=
    (← optionalU64 env "ORMPINDEXER_DATALENS_HEAD_BUFFER_BLOCKS").getD 1
  let minRequestIntervalMs :=
    (← optionalU64 env "ORMPINDEXER_DATALENS_MIN_REQUEST_INTERVAL_MS").getD 100
  let reorgWindowBlocks := (← optionalU64 env "ORMPINDEXER_REORG_WINDOW_BLOCKS").getD 128
  ensure (!(reorgWindowBlocks == 0 &&
      enabledChains.any fun chain => chain.finalityMode.usesReorgProtection))
    "ORMPINDEXER_REORG_WINDOW_BLOCKS must be greater than zero"
  let metrics ← MetricsConfig.fromEnvMap env
  let pollIntervalSecs := (← optionalU64 env "ORMPINDEXER_POLL_INTERVAL_SECS").getD 30
  return {
    datalens := {
      headBufferBlocks, timeoutSecs, queryMaxAttempts, minRequestIntervalMs
      endpoint := (optionalEnv env "ORMPINDEXER_DATALENS_ENDPOINT").getD "http://localhost:8080"
      application := (optionalEnv env "ORMPINDEXER_DATALENS_APPLICATION").getD "ormpindexer"
      token := optionalEnv env "ORMPINDEXER_DATALENS_TOKEN" }
    databaseUrl := optionalEnv env "ORMPINDEXER_DATABASE_URL"
    startBlock := startBlock.getD 0
    metrics, enabledChains, batchSize, finalityMode, reorgWindowBlocks, pollIntervalSecs }

/-! ## What an accepted map says -/

/-- Collecting results keeps the order. -/
theorem forall₂_of_mapM {α β : Type} {f : α → Except Error β} {l : List α} {kept : List β}
    (h : l.mapM f = .ok kept) : List.Forall₂ (fun a b => f a = .ok b) l kept := by
  induction l generalizing kept with
  | nil =>
      obtain rfl : [] = kept := Except.ok.inj h
      exact .nil
  | cons a l ih =>
      rw [List.mapM_cons] at h
      obtain ⟨b, hb, h⟩ := bind_eq_ok.mp h
      obtain ⟨rest, hrest, h⟩ := bind_eq_ok.mp h
      obtain rfl : b :: rest = kept := Except.ok.inj h
      exact .cons hb (ih hrest)

/-- What is checked of a chain: it has a dataset, and ranges of it are not empty. -/
structure ChainConfig.Checked (chain : ChainConfig) : Prop where
  dataset : chainDataset chain.chainId = .ok EVM_LOGS_DATASET
  batchSize : chain.batchSize ≠ 0

theorem ChainConfig.fromEnvMap_eq_ok {env : EnvMap} {chainId batchSize : Nat}
    {startBlock : Option Nat} {finalityMode : FinalityMode} {chain : ChainConfig}
    (h : ChainConfig.fromEnvMap env chainId startBlock batchSize finalityMode = .ok chain) :
    chain.chainId = chainId ∧ chain.Checked := by
  simp only [ChainConfig.fromEnvMap, bind_eq_ok] at h
  obtain ⟨default, hdefault, _, _, batchSize, _, _, hbatch, _, _, h⟩ := h
  obtain rfl := Except.ok.inj h
  refine ⟨rfl, ?_, ?_⟩
  · unfold defaultChainConfig at hdefault
    cases hevm : defaultEvmChainConfig chainId with
    | ok config =>
        show chainDataset chainId = _
        rw [chainDataset, hevm]
        rfl
    | error e =>
        rw [hevm] at hdefault
        cases hdefault
  · intro hzero
    change batchSize.getD _ = 0 at hzero
    simp [ensure, hzero] at hbatch

/-- Item by item, through its number. -/
theorem forall₂_chains {env : EnvMap} {batchSize : Nat} {startBlock : Option Nat}
    {finalityMode : FinalityMode} {items : List String} {chainIds : List Nat}
    {chains : List ChainConfig} (hparsed : items.mapM parseChainId = .ok chainIds)
    (hchains : (chainIds.mapM fun chainId =>
      ChainConfig.fromEnvMap env chainId startBlock batchSize finalityMode) = .ok chains) :
    List.Forall₂ (fun item chain => parseU64 item = .ok chain.chainId ∧ chain.Checked)
      items chains := by
  have hitems := forall₂_of_mapM hparsed
  have hconfigs := forall₂_of_mapM hchains
  clear hparsed hchains
  induction hitems generalizing chains with
  | nil =>
      cases hconfigs
      exact .nil
  | cons hitem _ ih =>
      cases hconfigs with
      | cons hchain hrest =>
          obtain ⟨rfl, hchecked⟩ := ChainConfig.fromEnvMap_eq_ok hchain
          exact .cons ⟨context_eq_ok.mp hitem, hchecked⟩ (ih hrest)

/-- One chain for each item, in the order of the list, and every chain is checked. -/
theorem fromEnvMap_chains {env : EnvMap} {settings : Settings}
    (h : Settings.fromEnvMap env = .ok settings) :
    List.Forall₂ (fun item chain => parseU64 item = .ok chain.chainId ∧ chain.Checked)
      (optionalList env "ORMPINDEXER_ENABLED_CHAINS") settings.enabledChains := by
  simp only [Settings.fromEnvMap, bind_eq_ok] at h
  obtain ⟨_, _, _, _, _, _, items, hitems, chainIds, hids, _, _, chains, hchains, _, _, _, _, _, _,
    _, _, _, _, _, _, _, _, _, _, _, _, _, _, h⟩ := h
  obtain rfl := Except.ok.inj h
  unfold requiredList at hitems
  dsimp only at hitems
  split at hitems
  · cases hitems
  · obtain rfl := Except.ok.inj hitems
    exact forall₂_chains hids hchains

theorem fromEnvMap_checked {env : EnvMap} {settings : Settings}
    (h : Settings.fromEnvMap env = .ok settings) : ∀ chain ∈ settings.enabledChains, chain.Checked := by
  intro chain hchain
  have hchains := fromEnvMap_chains h
  obtain ⟨i, hi, rfl⟩ := List.getElem_of_mem hchain
  exact (hchains.get (by rw [hchains.length_eq]; exact hi) hi).2

/-- The items are different numbers. -/
def DistinctChains (env : EnvMap) : Prop :=
  ((optionalList env "ORMPINDEXER_ENABLED_CHAINS").map parseU64).Nodup

instance (env : EnvMap) : Decidable (DistinctChains env) := inferInstanceAs (Decidable (List.Nodup _))

theorem distinctChains_iff {env : EnvMap} {settings : Settings}
    (h : Settings.fromEnvMap env = .ok settings) :
    DistinctChains env ↔ (settings.enabledChains.map (·.chainId)).Nodup := by
  have hparsed : (optionalList env "ORMPINDEXER_ENABLED_CHAINS").map parseU64 =
      (settings.enabledChains.map (·.chainId)).map .ok := by
    have hchains := fromEnvMap_chains h
    generalize optionalList env "ORMPINDEXER_ENABLED_CHAINS" = items at hchains ⊢
    generalize settings.enabledChains = chains at hchains ⊢
    induction hchains with
    | nil => rfl
    | cons hchain _ ih => rw [List.map_cons, hchain.1, ih, List.map_cons, List.map_cons]
  rw [DistinctChains, hparsed]
  exact ⟨List.Nodup.of_map _, List.Nodup.map fun _ _ h => Except.ok.inj h⟩

end OrmpIndexer
