/-
# OrmpIndexer.Runner.Writers — the chain tasks side by side

`run_loop` and `run_once` run one task for each enabled chain, and all of them write to one database. A task
keeps its checkpoint in a local variable for a whole pass and commits it without a look at the stored
one, so it must be the only writer of its key.

It is, if the chains are different: every call of a pass is about its own chain (`calls_runChainOnce`), and
what concerns another chain makes no difference to it (`separate_chains`). So no commit lowers a checkpoint
(`one_writer_per_checkpoint`). Two items of the list that are the same number are two tasks with one key, and
the slower one sets the checkpoint back (`two_writers_lower_checkpoint`).
-/
import OrmpIndexer.Config.Environment
import OrmpIndexer.Foundation.Interleaving
import OrmpIndexer.Runner.Progress

namespace OrmpIndexer

open Foundation Foundation.Task

namespace Runner

variable {Env : Type}

/-! ## The calls of a pass -/

/-- The call reads and writes the checkpoint and the anchors of this chain only. -/
def OwnCall (chainId : Nat) (dataset : String) : Op → Prop
  | .insertCheckpoint c d _ | .selectCheckpoint c d | .readBlockAnchors c d _ _
  | .rollbackLegacyFrom c d _ => (c, d) = (chainId, dataset)
  | .writeEventsAndAdvanceCheckpoint _ anchors c d _ => (c, d) = (chainId, dataset) ∧
      ∀ anchor ∈ anchors, (anchor.chainId, anchor.dataset) = (chainId, dataset)
  | _ => True

section

variable {chain : ChainConfig} {dataset : String}

theorem calls_processRange {range : BlockRange} :
    Calls (OwnCall chain.chainId dataset) (processRange chain dataset range) := by
  refine calls_bind (calls_withContext trivial) fun result => ?_
  exact calls_processSuccessfulRange (fun _ => trivial) trivial (fun _ => trivial)
    fun _ _ _ hanchors => ⟨rfl, hanchors⟩

theorem calls_runRanges {targetBlock : Nat} (fuel : Nat) (checkpoint : Checkpoint)
    (report : ChainRunReport) (stopPoll : Bool) : Calls (OwnCall chain.chainId dataset)
      (runRanges chain dataset targetBlock fuel checkpoint report stopPoll) := by
  induction fuel generalizing checkpoint report stopPoll with
  | zero => trivial
  | succ fuel ih =>
      unfold runRanges
      split
      · refine calls_bind (calls_ofExcept _) fun range => ?_
        exact calls_bind calls_processRange fun rangeReport => ih _ _ _
      · trivial

/-- Every call of a pass is about its own chain. -/
theorem calls_runChainOnce (config : RuntimeConfig) (chain : ChainConfig) :
    Calls (OwnCall chain.chainId EVM_LOGS_DATASET) (runChainOnce config chain) := by
  have hdataset : Returns (· = EVM_LOGS_DATASET)
      (Task.ofExcept (chainDataset chain.chainId) : Async String) :=
    returns_ofExcept fun dataset hd => chainDataset_eq_ok hd
  refine calls_bind_of_returns (calls_ofExcept _) hdataset ?_
  rintro dataset rfl
  refine calls_bind (calls_mapError ?_) fun checkpoint => ?_
  · exact calls_bind (calls_await rfl) fun _ => calls_bind (calls_await rfl) fun _ => trivial
  refine calls_bind ?_ fun checkpoint => ?_
  · unfold checkedCheckpoint
    split
    · refine calls_bind ?_ fun rollbackBlock => ?_
      · exact calls_rollbackReorgedAnchors trivial (fun _ _ => rfl) (fun _ => trivial) fun _ => rfl
      · split <;> trivial
    · trivial
  · refine calls_bind (calls_withContext trivial) fun latestBlock => ?_
    dsimp only
    split
    · trivial
    · exact calls_bind (calls_runRanges _ _ _ _) fun report => trivial

end

/-! ## What the other chains do -/

/-- The two databases have the same checkpoint and anchors of this chain. -/
structure SameProgress (chainId : Nat) (dataset : String) (db db' : Database) : Prop where
  checkpoint : db.checkpoint.get (chainId, dataset) = db'.checkpoint.get (chainId, dataset)
  blockAnchor : ∀ n,
    db.blockAnchor.get (chainId, dataset, n) = db'.blockAnchor.get (chainId, dataset, n)

section

variable {chainId : Nat} {dataset : String} {db db' : Database}

/-- A call does the same to them. -/
theorem SameProgress.effect (h : SameProgress chainId dataset db db') (postgres : Postgres)
    (op : Op) :
    SameProgress chainId dataset (effect postgres db op) (effect postgres db' op) := by
  cases op with
  | insertCheckpoint c d startBlock =>
      refine ⟨?_, h.blockAnchor⟩
      show (db.checkpoint.insertIfAbsent _).get _ = (db'.checkpoint.insertIfAbsent _).get _
      rw [Table.get_insertIfAbsent, Table.get_insertIfAbsent, h.checkpoint]
  | rollbackLegacyFrom c d rollbackBlock =>
      refine ⟨?_, fun n => ?_⟩
      · show (postgres.rollbackLegacyFrom ..).checkpoint.get _ =
          (postgres.rollbackLegacyFrom ..).checkpoint.get _
        rw [Postgres.checkpoint_rollback, Postgres.checkpoint_rollback, Table.get_upsert,
          Table.get_upsert, h.checkpoint]
      · show (postgres.rollbackLegacyFrom ..).blockAnchor.get _ =
          (postgres.rollbackLegacyFrom ..).blockAnchor.get _
        rw [Postgres.blockAnchor_rollback, Postgres.blockAnchor_rollback, Table.get_deleteWhere,
          Table.get_deleteWhere, h.blockAnchor]
  | writeEventsAndAdvanceCheckpoint events anchors c d nextBlock =>
      refine ⟨?_, fun n => ?_⟩
      · show (postgres.writeEventsAndAdvanceCheckpoint ..).checkpoint.get _ =
          (postgres.writeEventsAndAdvanceCheckpoint ..).checkpoint.get _
        rw [Postgres.checkpoint_commit, Postgres.checkpoint_commit, Table.get_upsert,
          Table.get_upsert, h.checkpoint]
      · show (postgres.writeEventsAndAdvanceCheckpoint ..).blockAnchor.get _ =
          (postgres.writeEventsAndAdvanceCheckpoint ..).blockAnchor.get _
        rw [Postgres.blockAnchor_commit, Postgres.blockAnchor_commit,
          Postgres.get_foldl_upsert_anchor, Postgres.get_foldl_upsert_anchor, h.blockAnchor]
  | _ => exact h

/-- A call of another chain changes nothing of this one. -/
theorem sameProgress_effect_of_ne {c : Nat} {d : String} (hne : (chainId, dataset) ≠ (c, d))
    {op : Op} (hop : OwnCall c d op) (postgres : Postgres) (db : Database) :
    SameProgress chainId dataset db (effect postgres db op) := by
  cases op with
  | insertCheckpoint c' d' startBlock =>
      obtain ⟨rfl, rfl⟩ := Prod.mk.inj hop
      refine ⟨?_, fun _ => rfl⟩
      show _ = (db.checkpoint.insertIfAbsent _).get _
      rw [Table.get_insertIfAbsent, if_neg fun h => hne h.symm]
  | rollbackLegacyFrom c' d' rollbackBlock =>
      obtain ⟨rfl, rfl⟩ := Prod.mk.inj hop
      refine ⟨?_, fun n => ?_⟩
      · show _ = (postgres.rollbackLegacyFrom ..).checkpoint.get _
        rw [Postgres.checkpoint_rollback, Table.get_upsert, if_neg fun h => hne h.symm]
      · show _ = (postgres.rollbackLegacyFrom ..).blockAnchor.get _
        rw [Postgres.blockAnchor_rollback, Table.get_deleteWhere]
        cases hget : db.blockAnchor.get (chainId, dataset, n) with
        | none => rfl
        | some anchor =>
            obtain ⟨hc, hd, _⟩ := BlockAnchor.key_of_get hget
            rw [Option.filter, if_pos]
            simp only [hc, hd, Bool.not_eq_true', Bool.and_eq_false_iff, beq_eq_false_iff_ne]
            left
            by_contra hsame
            simp only [not_or, not_not] at hsame
            exact hne (Prod.ext hsame.1 hsame.2)
  | writeEventsAndAdvanceCheckpoint events anchors c' d' nextBlock =>
      obtain ⟨hkey, hanchors⟩ := hop
      obtain ⟨rfl, rfl⟩ := Prod.mk.inj hkey
      refine ⟨?_, fun n => ?_⟩
      · show _ = (postgres.writeEventsAndAdvanceCheckpoint ..).checkpoint.get _
        rw [Postgres.checkpoint_commit, Table.get_upsert, if_neg fun h => hne h.symm]
      · have hnone : lastWhere (fun a => Keyed.key a == (chainId, dataset, n)) anchors = none := by
          apply lastWhere_eq_none_iff.mpr
          intro anchor hanchor
          apply beq_false_of_ne
          intro h
          have hsame : (anchor.chainId, anchor.dataset) = (chainId, dataset) :=
            congrArg (fun k => (k.1, k.2.1)) h
          exact hne (hsame.symm.trans (hanchors anchor hanchor))
        show _ = (postgres.writeEventsAndAdvanceCheckpoint ..).blockAnchor.get _
        rw [Postgres.blockAnchor_commit, Postgres.get_foldl_upsert_anchor, hnone, Option.none_or]
  | _ => exact ⟨rfl, fun _ => rfl⟩

theorem SameProgress.record {w w' : World Env} (h : SameProgress chainId dataset w.db w'.db)
    (postgres : Postgres) (op : Op) (r : Except Error (Reply op)) :
    SameProgress chainId dataset (w.record postgres op r).db (w'.record postgres op r).db := by
  cases r with
  | ok a => exact h.effect postgres op
  | error e => exact h

/-- A call of the chain is answered alike. -/
theorem alike_sameProgress (ix : Indexer) (chainId : Nat) (dataset : String) :
    Alike (Serves ix (ForwardWindows ix.decoder)) (OwnCall chainId dataset)
      fun (w w' : World Env) => SameProgress chainId dataset w.db w'.db := by
  rintro w w' op r t' hop h ⟨hanswers, rfl⟩
  refine ⟨w.record ix.postgres op r, ⟨fun a ha => ?_, rfl⟩, h.record ix.postgres op r⟩
  obtain ⟨hstore, hallowed⟩ := hanswers a ha
  cases op with
  | selectCheckpoint c d =>
      obtain ⟨rfl, rfl⟩ := Prod.mk.inj hop
      exact ⟨h.checkpoint.trans hstore, trivial⟩
  | readBlockAnchors c d fromBlock toBlock =>
      obtain ⟨rfl, rfl⟩ := Prod.mk.inj hop
      refine ⟨?_, trivial⟩
      show a = _
      rw [ix.postgres.readBlockAnchors_congr h.blockAnchor]
      exact hstore
  | _ => exact ⟨hstore, hallowed⟩

theorem nextBlock_congr {chain : ChainConfig} (h : SameProgress chain.chainId dataset db db') :
    nextBlock chain dataset db = nextBlock chain dataset db' := by
  rw [nextBlock, nextBlock, h.checkpoint]

end

/-! ## Tasks of different chains -/

/-- The tasks of `run_loop` and of `run_once`. -/
def chainTasks (config : RuntimeConfig) (i : Fin config.enabledChains.length) :
    Async ChainRunReport :=
  runChainOnce config config.enabledChains[i]

/-- The tasks of different chains do not disturb each other. -/
theorem separate_chains (ix : Indexer) {config : RuntimeConfig}
    (hdistinct : (config.enabledChains.map (·.chainId)).Nodup) :
    Separate (Serves ix (ForwardWindows ix.decoder))
      (fun i : Fin config.enabledChains.length =>
        OwnCall config.enabledChains[i].chainId EVM_LOGS_DATASET)
      (fun i => NeverLowers ix config.enabledChains[i] EVM_LOGS_DATASET)
      (fun i (w w' : World Env) =>
        SameProgress config.enabledChains[i].chainId EVM_LOGS_DATASET w.db w'.db) where
  alike i := alike_sameProgress ix _ _
  obligation i w w' op h hop hrollback := by
    rw [← nextBlock_congr h, ← nextBlock_congr (h.effect ix.postgres op)]
    exact hop hrollback
  other i j hij w op r w' hop hserves := by
    have hne : (config.enabledChains[i].chainId, EVM_LOGS_DATASET) ≠
        (config.enabledChains[j].chainId, EVM_LOGS_DATASET) := by
      intro h
      apply hij
      apply Fin.ext
      have hid : (config.enabledChains.map (·.chainId))[i.val]? =
          (config.enabledChains.map (·.chainId))[j.val]? := by
        simpa using congrArg Prod.fst h
      exact (List.getElem?_inj (by simp) hdistinct).mp hid
    rw [hserves.2]
    cases r with
    | ok a => exact sameProgress_effect_of_ne hne hop ix.postgres w.db
    | error e => exact ⟨rfl, fun _ => rfl⟩

/-- The checkpoint that is stored. -/
def storedNextBlock (db : Database) (chainId : Nat) (dataset : String) : Option Nat :=
  (db.checkpoint.get (chainId, dataset)).map (·.nextBlock)

theorem stored_le_effect {ix : Indexer} {chain : ChainConfig} {dataset : String} {w : World Env}
    {op : Op} (hcall : NeverLowers ix chain dataset w op)
    (hrollback : ∀ rollbackBlock, op ≠ .rollbackLegacyFrom chain.chainId dataset rollbackBlock)
    {n : Nat} (hn : storedNextBlock w.db chain.chainId dataset = some n) :
    ∃ n', storedNextBlock (effect ix.postgres w.db op) chain.chainId dataset = some n' ∧ n ≤ n' := by
  obtain ⟨checkpoint, hget, rfl⟩ := Option.map_eq_some_iff.mp hn
  have hle := hcall hrollback
  rw [nextBlock_of_get hget] at hle
  -- no call deletes a checkpoint
  have hstored : ∃ c, (effect ix.postgres w.db op).checkpoint.get (chain.chainId, dataset) =
      some c := by
    cases op with
    | insertCheckpoint c d startBlock =>
        show ∃ s, (w.db.checkpoint.insertIfAbsent _).get _ = some s
        rw [Table.get_insertIfAbsent]
        split
        · exact ⟨_, rfl⟩
        · exact ⟨_, hget⟩
    | rollbackLegacyFrom c d rollbackBlock =>
        show ∃ s, (ix.postgres.rollbackLegacyFrom ..).checkpoint.get _ = some s
        rw [Postgres.checkpoint_rollback, Table.get_upsert]
        split
        · exact ⟨_, rfl⟩
        · exact ⟨_, hget⟩
    | writeEventsAndAdvanceCheckpoint events anchors c d next =>
        show ∃ s, (ix.postgres.writeEventsAndAdvanceCheckpoint ..).checkpoint.get _ = some s
        rw [Postgres.checkpoint_commit, Table.get_upsert]
        split
        · exact ⟨_, rfl⟩
        · exact ⟨_, hget⟩
    | _ => exact ⟨_, hget⟩
  obtain ⟨c, hc⟩ := hstored
  rw [nextBlock_of_get hc] at hle
  exact ⟨c.nextBlock, by rw [storedNextBlock, hc]; rfl, hle⟩

/-- **One writer per checkpoint.** If the items of the list of chains are different numbers, then in
whatever order the calls of the tasks are answered, no call but a rollback of that key lowers a stored
checkpoint. -/
theorem one_writer_per_checkpoint (ix : Indexer) {env : EnvMap} {settings : Settings}
    (haccepted : Settings.fromEnvMap env = .ok settings) (hdistinct : DistinctChains env)
    {w : World Env} {tasks : Fin settings.runtimeConfig.enabledChains.length → Async ChainRunReport}
    (hrun : Interleaved (Serves ix (ForwardWindows ix.decoder)) (fun _ => True)
      (fun w w' => w'.db = w.db) (chainTasks settings.runtimeConfig) w tasks)
    {i : Fin settings.runtimeConfig.enabledChains.length} {op : Op}
    {next : Except Error (Reply op) → Async ChainRunReport} (hi : tasks i = .call op next)
    {r : Except Error (Reply op)} {w' : World Env}
    (hserves : Serves ix (ForwardWindows ix.decoder) w op r w') (chainId : Nat) (dataset : String)
    (hrollback : ∀ rollbackBlock, op ≠ .rollbackLegacyFrom chainId dataset rollbackBlock)
    {n : Nat} (hn : storedNextBlock w.db chainId dataset = some n) :
    ∃ n', storedNextBlock w'.db chainId dataset = some n' ∧ n ≤ n' := by
  have hnodup := (distinctChains_iff haccepted).mp hdistinct
  have hchecked := fromEnvMap_checked haccepted
  obtain ⟨hcalls, hwp⟩ := hrun.wp (separate_chains ix hnodup)
    (fun i => calls_runChainOnce settings.runtimeConfig settings.runtimeConfig.enabledChains[i])
    (fun i w => (keeps_neverLowers.passRules.wp_runChainOnce
      (hchecked _ (List.getElem_mem i.isLt)).dataset trivial).imp (fun _ _ _ => trivial)
        fun _ _ _ => trivial) i
  rw [hi] at hcalls hwp
  obtain ⟨_, rfl⟩ := hserves
  cases r with
  | error e => exact ⟨n, hn, Nat.le_refl n⟩
  | ok a =>
      by_cases hkey : (chainId, dataset) =
          (settings.runtimeConfig.enabledChains[i].chainId, EVM_LOGS_DATASET)
      · obtain ⟨rfl, rfl⟩ := Prod.mk.inj hkey
        exact stored_le_effect hwp.1 hrollback hn
      · have hsame := sameProgress_effect_of_ne hkey hcalls.1 ix.postgres w.db
        refine ⟨n, ?_, Nat.le_refl n⟩
        show storedNextBlock (effect ix.postgres w.db op) chainId dataset = some n
        rw [storedNextBlock, ← hsame.checkpoint]
        exact hn

/-! ## Two tasks of one chain -/

/-- Only the list of chains is set. -/
def onlyChains (chains : String) : EnvMap :=
  fun key => if key = "ORMPINDEXER_ENABLED_CHAINS" then some chains else none

/-- The default configuration of a production chain. -/
def byDefault (chainId startBlock : Nat) (includeSignaturePub : Bool) : ChainConfig where
  chainId := chainId
  startBlock := startBlock
  batchSize := 1000
  contracts := defaultContracts includeSignaturePub
  topics := defaultTopics includeSignaturePub
  finalityMode := .finalized

def defaultSettings (enabledChains : List ChainConfig) : Settings where
  datalens := {
    headBufferBlocks := 1, endpoint := "http://localhost:8080", application := "ormpindexer"
    token := none, timeoutSecs := 300, queryMaxAttempts := 3, minRequestIntervalMs := 100 }
  metrics := ⟨5000, 10000⟩
  databaseUrl := none
  enabledChains := enabledChains
  batchSize := 1000
  startBlock := 0
  finalityMode := .finalized
  reorgWindowBlocks := 128
  pollIntervalSecs := 30

/-- The head is at 2831000, and this many blocks are served at once. -/
def servesBlocks (count : Nat) : World Unit → (op : Op) → Except Error (Reply op)
  | _, .latestBlock .. => .ok 2831000
  | _, .queryLogs query => .ok (served query.fromBlock (query.fromBlock + count - 1))
  | _, _ => .error ["no answer"]

theorem forwardWindows_servesBlocks (ix : Indexer) {count : Nat} (hcount : 0 < count) (w : World Unit)
    (op : Op) (a : Reply op) (h : reply ix (servesBlocks count) w op = .ok a) :
    ForwardWindows ix.decoder w op a := by
  cases op with
  | queryLogs query =>
      obtain rfl : served query.fromBlock (query.fromBlock + count - 1) = a := Except.ok.inj h
      rintro ⟨_, ⟨servedEnd, hend, hlt⟩, _⟩
      obtain rfl := Option.some.inj hend
      omega
  | _ => trivial

def emptyWorld : World Unit := ⟨.empty, [], ()⟩

/-- A task of Darwinia is about to commit the first ten blocks. -/
def aboutToCommit (settings : Settings) : World Unit × Async ChainRunReport :=
  (runChainOnce settings.runtimeConfig (byDefault 46 2830100 true)).evalUntil
    (simulate hashIndexer (servesBlocks 10))
    (fun op => match op with | .writeEventsAndAdvanceCheckpoint .. => true | _ => false) emptyWorld

/-- The commit of these blocks. -/
abbrev commitTen : Op := .writeEventsAndAdvanceCheckpoint [] [] 46 EVM_LOGS_DATASET 2830110

theorem serves_servesBlocks {count : Nat} (hcount : 0 < count) (w : World Unit) (op : Op) :
    Serves hashIndexer (ForwardWindows hashIndexer.decoder) w op
      (simulate hashIndexer (servesBlocks count) w op).1
      (simulate hashIndexer (servesBlocks count) w op).2 :=
  serves_simulate (forwardWindows_servesBlocks hashIndexer hcount) w op

theorem reaches_aboutToCommit (settings : Settings) :
    Reaches (Serves hashIndexer (ForwardWindows hashIndexer.decoder))
      (emptyWorld, runChainOnce settings.runtimeConfig (byDefault 46 2830100 true))
      ((aboutToCommit settings).1, (aboutToCommit settings).2) := by
  rw [Prod.mk.eta]
  exact reaches_evalUntil (@serves_servesBlocks 10 (by decide)) _ _ _

theorem serves_commitTen (w : World Unit) :
    Serves hashIndexer (ForwardWindows hashIndexer.decoder) w commitTen (.ok 0)
      (w.record hashIndexer.postgres commitTen (.ok 0)) := by
  refine ⟨fun a ha => ?_, rfl⟩
  exact ⟨(Except.ok.inj ha).symm, trivial⟩

/-- Darwinia is listed twice. -/
def twiceDarwinia : Settings :=
  defaultSettings [byDefault 46 2830100 true, byDefault 46 2830100 true]

/-- While the second task is about to commit, the first one does its whole pass. -/
def overtaken : Except Error ChainRunReport × World Unit :=
  (runChainOnce twiceDarwinia.runtimeConfig (byDefault 46 2830100 true)).eval
    (simulate hashIndexer (servesBlocks 1000)) (aboutToCommit twiceDarwinia).1

/-- The same chain twice: the first task commits up to block 2830999, and then the second one commits
the ten blocks it has read before. -/
theorem two_writers_lower_checkpoint :
    Settings.fromEnvMap (onlyChains "46,46") = .ok twiceDarwinia ∧
    ∃ (w w' : World Unit)
      (tasks : Fin twiceDarwinia.runtimeConfig.enabledChains.length → Async ChainRunReport)
      (i : Fin twiceDarwinia.runtimeConfig.enabledChains.length) (op : Op)
      (next : Except Error (Reply op) → Async ChainRunReport) (r : Except Error (Reply op)),
      Interleaved (Serves hashIndexer (ForwardWindows hashIndexer.decoder)) (fun _ => True)
        (fun w w' => w'.db = w.db) (chainTasks twiceDarwinia.runtimeConfig) w tasks ∧
      tasks i = .call op next ∧
      Serves hashIndexer (ForwardWindows hashIndexer.decoder) w op r w' ∧
      (∀ rollbackBlock, op ≠ .rollbackLegacyFrom 46 EVM_LOGS_DATASET rollbackBlock) ∧
      storedNextBlock w.db 46 EVM_LOGS_DATASET = some 2831000 ∧
      storedNextBlock w'.db 46 EVM_LOGS_DATASET = some 2830110 := by
  refine ⟨by decide +kernel, ?_⟩
  have hawaited : (aboutToCommit twiceDarwinia).2.awaited = some commitTen := by decide +kernel
  obtain ⟨next, hnext⟩ := eq_call_of_awaited hawaited
  let first : Fin twiceDarwinia.runtimeConfig.enabledChains.length := ⟨0, by decide⟩
  let second : Fin twiceDarwinia.runtimeConfig.enabledChains.length := ⟨1, by decide⟩
  have hne : second ≠ first := by decide
  have hfirst : Reaches (Serves hashIndexer (ForwardWindows hashIndexer.decoder))
      ((aboutToCommit twiceDarwinia).1, chainTasks twiceDarwinia.runtimeConfig first)
      (overtaken.2, .done overtaken.1) :=
    reaches_eval (@serves_servesBlocks 1000 (by decide)) _ _
  have hstart : Interleaved (Serves hashIndexer (ForwardWindows hashIndexer.decoder))
      (fun _ => True) (fun w w' => w'.db = w.db) (chainTasks twiceDarwinia.runtimeConfig) emptyWorld
      (chainTasks twiceDarwinia.runtimeConfig) := .start trivial
  -- the second task reads, and then the first one runs to its end
  have hrun := @Interleaved.reaches _ _ _ _ _ _ _ _ _ _ _ _ _ _ second _ hstart
    (reaches_aboutToCommit twiceDarwinia)
  rw [← Function.update_of_ne hne.symm (aboutToCommit twiceDarwinia).2
    (chainTasks twiceDarwinia.runtimeConfig)] at hfirst
  refine ⟨overtaken.2, _, _, second, commitTen, next, .ok 0, hrun.reaches hfirst, ?_,
    serves_commitTen overtaken.2, fun rollbackBlock h => Op.noConfusion h, by decide +kernel,
    by decide +kernel⟩
  rw [Function.update_of_ne hne, Function.update_self]
  exact hnext

/-- Two chains. -/
def darwiniaAndEthereum : Settings :=
  defaultSettings [byDefault 46 2830100 true, byDefault 1 20009590 false]

/-- Beside the task of another chain, the commit of ten blocks raises the checkpoint. -/
theorem one_writer_per_checkpoint_twoChains :
    ∃ n', storedNextBlock ((aboutToCommit darwiniaAndEthereum).1.record hashIndexer.postgres
      commitTen (.ok 0)).db 46 EVM_LOGS_DATASET = some n' ∧ 2830100 ≤ n' := by
  have hawaited : (aboutToCommit darwiniaAndEthereum).2.awaited = some commitTen := by
    decide +kernel
  obtain ⟨next, hnext⟩ := eq_call_of_awaited hawaited
  let first : Fin darwiniaAndEthereum.runtimeConfig.enabledChains.length := ⟨0, by decide⟩
  have hstart : Interleaved (Serves hashIndexer (ForwardWindows hashIndexer.decoder))
      (fun _ => True) (fun w w' => w'.db = w.db) (chainTasks darwiniaAndEthereum.runtimeConfig)
      emptyWorld (chainTasks darwiniaAndEthereum.runtimeConfig) := .start trivial
  have hrun := @Interleaved.reaches _ _ _ _ _ _ _ _ _ _ _ _ _ _ first _ hstart
    (reaches_aboutToCommit darwiniaAndEthereum)
  have haccepted : Settings.fromEnvMap (onlyChains "46,1") = .ok darwiniaAndEthereum := by
    decide +kernel
  exact one_writer_per_checkpoint hashIndexer haccepted (by decide +kernel) hrun
    ((Function.update_self ..).trans hnext) (serves_commitTen _) 46 EVM_LOGS_DATASET
    (fun rollbackBlock h => Op.noConfusion h) (by decide +kernel)

end Runner

end OrmpIndexer
