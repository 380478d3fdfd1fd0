/-
# OrmpIndexer.Runner.Stability — no rollback without a reorganisation

The reorg check takes a block without an anchor for a reorganised one, and a pass stores no anchor for a
block that is final when it is indexed. What makes the two fit together is the invariant `Accounted`:
every indexed block has the anchor of its true header or was reported final. The window of the check
starts above every finalized head reported so far, so all its blocks have anchors, and these match.
-/
import OrmpIndexer.Runner.Canonical
import OrmpIndexer.Runner.Forks

namespace OrmpIndexer

open Foundation Foundation.Task

namespace Runner

variable {Env : Type}

/-- A chain that never changes: finalized heads never decrease, and a block answer that covers its range
lists the true header of each block. -/
def StableAnswers (hashAt : Nat → String) : Answers Env
  | w, .finalizedHead chainId, finalized =>
      ∀ before : Nat, (⟨.finalizedHead chainId, .ok before⟩ : Call) ∈ w.past → before ≤ finalized
  | _, .queryBlocks query, result => result.covers query.fromBlock query.toBlock = true →
      ∀ n, query.fromBlock ≤ n → n ≤ query.toBlock →
        ∃ block, listedBlock result.blocks n = some block ∧ block.blockHash = hashAt n
  | _, _, _ => True

/-- The block is stored with the hash of its true header. -/
def AnchoredTrue (hashAt : Nat → String) (chain : ChainConfig) (dataset : String) (db : Database)
    (n : Nat) : Prop :=
  ∃ anchor, db.blockAnchor.get (chain.chainId, dataset, n) = some anchor ∧
    anchor.blockHash = hashAt n

/-- In the modes with anchors, every indexed block has the anchor of its true header or was reported
final. -/
def Accounted (hashAt : Nat → String) (chain : ChainConfig) (dataset : String) (w : World Env) :
    Prop :=
  chain.finalityMode.usesReorgProtection = true →
    ∀ n, chain.startBlock ≤ n → n < nextBlock chain dataset w.db →
      n < u64Max ∧ (AnchoredTrue hashAt chain dataset w.db n ∨ Final chain.chainId w.past n)

section

variable {hashAt : Nat → String} {ix : Indexer} {config : RuntimeConfig} {chain : ChainConfig}
variable {dataset : String} {w w' : World Env}

theorem final_of_extends {P : Call → Prop} {chainId n : Nat} (h : Extends P w w')
    (hfinal : Final chainId w.past n) : Final chainId w'.past n := by
  obtain ⟨finalized, hmem, hle⟩ := hfinal
  obtain ⟨new, hnew, _⟩ := h.past
  exact ⟨finalized, hnew ▸ List.mem_append_right new hmem, hle⟩

theorem accounted_of_extends {P : Call → Prop} (h : Accounted hashAt chain dataset w)
    (hw : Extends P w w') : Accounted hashAt chain dataset w' := by
  intro mode n hstart hn
  rw [hw.db] at hn ⊢
  obtain ⟨hmax, haccounted⟩ := h mode n hstart hn
  exact ⟨hmax, haccounted.imp_right (final_of_extends hw)⟩

/-- A block below the first one that is not final yet is final. -/
theorem le_of_lt_saturatingAdd {n finalized : Nat} (h : n < saturatingAdd finalized 1) :
    n ≤ finalized := by
  rw [saturatingAdd] at h
  omega

theorem lt_saturatingAdd {n finalized : Nat} (hmax : n < u64Max) (h : n ≤ finalized) :
    n < saturatingAdd finalized 1 := by
  rw [saturatingAdd]
  exact lt_min (Nat.lt_succ_of_le h) hmax

/-- Each block of a committed range is anchored or final. -/
theorem accounted_of_anchorsFor {range : BlockRange} {logs : List DatalensLog}
    {anchors : List BlockAnchor}
    (mode : chain.finalityMode.usesReorgProtection = true)
    (h : AnchorsFor ix (StableAnswers hashAt) chain dataset range logs w anchors w') {n : Nat}
    (hfrom : range.fromBlock ≤ n) (hto : n ≤ range.toBlock) (db : Database)
    (events : List LegacyOrmPEvent) (next : Nat) :
    AnchoredTrue hashAt chain dataset
        (ix.postgres.writeEventsAndAdvanceCheckpoint db events anchors chain.chainId dataset next) n ∨
      Final chain.chainId w'.past n := by
  cases h with
  | fromLogs mode' =>
      rw [mode] at mode'
      cases mode'
  | allFinal _ _ final =>
      refine .inr ⟨_, List.mem_cons_self, ?_⟩
      apply le_of_lt_saturatingAdd
      omega
  | @fromHeaders finalized blocks anchors checked _ _ hchecked _ answer covers headers =>
      subst hchecked
      by_cases hn : n < saturatingAdd finalized 1
      · -- the head was asked for right before the headers
        exact .inr ⟨finalized, List.mem_cons_of_mem _ List.mem_cons_self, le_of_lt_saturatingAdd hn⟩
      · have hlow : max range.fromBlock (saturatingAdd finalized 1) ≤ n := by omega
        obtain ⟨block, hlisted, hhash⟩ := answer covers n hlow hto
        exact .inl ⟨_, get_anchor_commit headers hlow hto hlisted, hhash⟩

/-- A commit leaves the anchors below its range alone. -/
theorem get_anchor_below {range : BlockRange} {logs : List DatalensLog} {anchors : List BlockAnchor}
    {allowed : Answers Env} (mode : chain.finalityMode.usesReorgProtection = true)
    (h : AnchorsFor ix allowed chain dataset range logs w anchors w') {n : Nat}
    (hn : n < range.fromBlock) (db : Database) (events : List LegacyOrmPEvent) (next : Nat) :
    (ix.postgres.writeEventsAndAdvanceCheckpoint db events anchors chain.chainId dataset
      next).blockAnchor.get (chain.chainId, dataset, n) =
      db.blockAnchor.get (chain.chainId, dataset, n) := by
  have none : lastWhere (fun a => Keyed.key a == (chain.chainId, dataset, n)) anchors = none := by
    apply lastWhere_eq_none_iff.mpr
    intro a ha
    cases h with
    | fromLogs mode' =>
        rw [mode] at mode'
        cases mode'
    | allFinal => cases ha
    | fromHeaders _ _ hchecked _ _ _ headers =>
        subst hchecked
        obtain ⟨m, hm, _, block, _, rfl⟩ := (mem_blockAnchorsFromBlocks headers).mp ha
        have hne : m ≠ n := by
          dsimp only at hm
          omega
        simpa [Keyed.key] using hne
  rw [Postgres.blockAnchor_commit, Postgres.get_foldl_upsert_anchor, none]
  rfl

theorem accounted_commit {range : BlockRange} {result : DatalensLogQueryResult} {servedEnd : Nat}
    {events : List LegacyOrmPEvent} {anchors : List BlockAnchor}
    (h : Accounted hashAt chain dataset w)
    (turn : Turn (StableAnswers hashAt) config chain (nextBlock chain dataset w.db) range w)
    (commits : CommitsAt ix (StableAnswers hashAt) chain dataset range w result servedEnd events
      anchors w') (written : Nat) :
    Accounted hashAt chain dataset (w'.record ix.postgres
      (commitOp chain dataset range servedEnd events anchors) (.ok written)) := by
  obtain ⟨_, _, _, _, planned⟩ := turn
  obtain ⟨w₁, _, hanchors⟩ := commits.anchored
  intro mode n hstart hn
  change n < nextBlock chain dataset
    (ix.postgres.writeEventsAndAdvanceCheckpoint _ _ _ _ _ _) at hn
  rw [nextBlock_commit] at hn
  have hmax := commits.bounded
  refine ⟨by omega, ?_⟩
  by_cases hnew : range.fromBlock ≤ n
  · -- a block of the committed range
    have hto : n ≤ (servedTo range servedEnd).toBlock := by
      show n ≤ min servedEnd range.toBlock
      omega
    rcases accounted_of_anchorsFor mode hanchors hnew hto w'.db events
      (min servedEnd range.toBlock + 1) with hanchored | hfinal
    · exact .inl hanchored
    · exact .inr (hfinal.imp fun _ hf => ⟨List.mem_cons_of_mem _ hf.1, hf.2⟩)
  · -- an older one, which the commit does not touch
    have hold : n < nextBlock chain dataset w.db := by
      rw [← planned.start]
      omega
    rcases (h mode n hstart hold).2 with ⟨anchor, hget, hhash⟩ | hfinal
    · refine .inl ⟨anchor, ?_, hhash⟩
      show (ix.postgres.writeEventsAndAdvanceCheckpoint w'.db _ _ _ _ _).blockAnchor.get _ = _
      rw [get_anchor_below mode hanchors (by show n < range.fromBlock; omega), commits.quiet.db, hget]
    · obtain ⟨finalized, hmem, hle⟩ := final_of_extends commits.quiet hfinal
      exact .inr ⟨finalized, List.mem_cons_of_mem _ hmem, hle⟩

/-- The reorg check finds nothing. -/
theorem not_rollsBack {finalized : Nat} {window : BlockRange} {anchors : List BlockAnchor}
    {blocks : DatalensBlockQueryResult} {rollbackBlock : Nat}
    (mode : chain.finalityMode.usesReorgProtection = true) (h : Accounted hashAt chain dataset w) :
    ¬RollsBack ix (StableAnswers hashAt) config chain dataset (nextBlock chain dataset w.db) w finalized
      window anchors blocks rollbackBlock w' := by
  intro hroll
  obtain ⟨head, rfl, hstored, _, rfl, _, rfl, answer, rfl⟩ := hroll.answered
  obtain ⟨hdiverges, hmem, _⟩ := List.find?_range'_eq_some.mp hroll.first
  have hmem : windowStart config chain (nextBlock chain dataset w.db) finalized ≤ rollbackBlock ∧
      rollbackBlock ≤ nextBlock chain dataset w.db - 1 :=
    mem_blockNumbers.mp (List.mem_of_find?_eq_some hroll.first)
  have hstart : chain.startBlock ≤ rollbackBlock ∧ saturatingAdd finalized 1 ≤ rollbackBlock := by
    rw [windowStart] at hmem
    omega
  obtain ⟨block, hlisted, hhash⟩ := answer hroll.covers rollbackBlock hmem.1 hmem.2
  obtain ⟨hmax, haccounted⟩ := h mode rollbackBlock hstart.1 (by omega)
  rcases haccounted with ⟨anchor, hget, hanchor⟩ | ⟨before, hpast, hle⟩
  · -- the anchor of the block is read, and it matches the header
    have hread := (ix.postgres.lastWhere_readBlockAnchors hmem.1 hmem.2).trans hget
    rw [diverges] at hdiverges
    simp only [reorgWindow] at hdiverges
    rw [hread] at hdiverges
    simp only [hlisted, hhash, hanchor, bne_self_eq_false] at hdiverges
    cases hdiverges
  · -- the window starts above every finalized head
    have hhead : rollbackBlock ≤ finalized := hle.trans (head before hpast)
    exact absurd hstart.2 (Nat.not_le.mpr (lt_saturatingAdd hmax hhead))

theorem keeps_accounted :
    @Keeps Env ix (StableAnswers hashAt) config chain dataset
      (fun w op =>
        (∀ chainId dataset rollbackBlock, op ≠ .rollbackLegacyFrom chainId dataset rollbackBlock) ∧
          Accounted hashAt chain dataset w)
      (Accounted hashAt chain dataset) where
  call h hop := ⟨fun _ _ _ heq => (heq ▸ hop : IsRead (.rollbackLegacyFrom _ _ _)).elim, h⟩
  quiet h hw := accounted_of_extends h hw
  insert {w} h := by
    refine ⟨⟨fun _ _ _ heq => (nomatch heq), h⟩, fun mode n hstart hn => ?_⟩
    have hnext : nextBlock chain dataset
        (w.record ix.postgres (insertOp chain dataset) (.ok ())).db =
        nextBlock chain dataset w.db := nextBlock_insert
    rw [hnext] at hn
    obtain ⟨hmax, haccounted⟩ := h mode n hstart hn
    exact ⟨hmax, haccounted.imp_right fun ⟨f, hf, hle⟩ => ⟨f, List.mem_cons_of_mem _ hf, hle⟩⟩
  rollback h mode hroll := absurd hroll (not_rollsBack mode h)
  commit h turn commits :=
    ⟨⟨fun _ _ _ heq => (nomatch heq), accounted_of_extends h commits.quiet⟩,
      accounted_commit h turn commits⟩

end

/-- **No false rollbacks.** If the chain never changes, no state of any run from a store without the
chain's checkpoint is about to call `rollback_legacy_from`. -/
theorem never_rolls_back (hashAt : Nat → String) (ix : Indexer) (config : RuntimeConfig)
    (chain : ChainConfig) {w : World Env} {op : Op}
    {next : Except Error (Reply op) → Async ChainRunReport}
    (hr : Reachable (Serves ix (StableAnswers hashAt))
      (fun w => ∀ dataset, w.db.checkpoint.get (chain.chainId, dataset) = none)
      (fun w w' => w' = w) (runChainOnce config chain) w (.call op next))
    (chainId : Nat) (dataset : String) (rollbackBlock : Nat) :
    op ≠ .rollbackLegacyFrom chainId dataset rollbackBlock := by
  cases hd : chainDataset chain.chainId with
  | error e =>
      -- an unsupported chain: the pass ends before its first call
      have pass : runChainOnce config chain = .done (.error e) := by
        rw [runChainOnce, hd]
        rfl
      rw [pass] at hr
      have ends : ∀ w : World Env, Wp (Serves ix (StableAnswers hashAt)) (fun _ _ => False)
          (fun _ _ => True) (fun _ _ => True) (.done (.error e) : Async ChainRunReport) w :=
        fun _ => trivial
      have hwp := (hr.wp (I := fun _ => True) (fun _ _ => trivial) (fun _ _ _ _ => trivial)
        (fun w _ => ends w) (fun _ _ h => h.elim) (fun _ _ _ => trivial) (fun _ _ _ => trivial)).2
      exact hwp.1.elim
  | ok d =>
      have hrun := keeps_accounted.reachable hd (fun _ _ h => h.2) (fun w hempty mode n hstart hn => ?_)
        (fun w w' h hw => hw ▸ h) hr
      · exact hrun.2.1.1 chainId dataset rollbackBlock
      · -- nothing is indexed yet
        rw [nextBlock, hempty d] at hn
        exact absurd hstart (Nat.not_le.mpr hn)

/-- Blocks 5 and 6 of a chain whose block 5 is final. -/
def twoBlocks : World Unit → (op : Op) → Except Error (Reply op)
  | _, .latestBlock .. => .ok 6
  | w, .finalizedHead _ => if reportedUpTo 5 w.past then .ok 5 else .error []
  | _, .queryLogs query => .ok ⟨[], some query.fromBlock, some query.toBlock, none⟩
  | _, .queryBlocks query => .ok {
      blocks := (blockNumbers ⟨query.fromBlock, query.toBlock⟩).map fun n =>
        ⟨query.chainId, n, "0xaaaaa1", none⟩
      servedStart := some query.fromBlock
      servedEnd := some query.toBlock
      incompleteReason := none }
  | _, _ => .error []

theorem stableAnswers_twoBlocks (w : World Unit) (op : Op) (a : Reply op)
    (h : reply hashIndexer twoBlocks w op = .ok a) : StableAnswers (fun _ => "0xaaaaa1") w op a := by
  cases op with
  | finalizedHead chainId =>
      intro before hbefore
      change (if reportedUpTo 5 w.past then .ok 5 else .error []) = Except.ok a at h
      split at h
      · rename_i hreported
        cases h
        exact le_of_reportedUpTo hreported hbefore
      · cases h
  | queryBlocks query =>
      cases h
      intro _ n hfrom hto
      have hmem : (⟨query.chainId, n, "0xaaaaa1", none⟩ : DatalensBlock) ∈
          (blockNumbers ⟨query.fromBlock, query.toBlock⟩).map fun n =>
            (⟨query.chainId, n, "0xaaaaa1", none⟩ : DatalensBlock) :=
        List.mem_map.mpr ⟨n, mem_blockNumbers.mpr ⟨hfrom, hto⟩, rfl⟩
      obtain ⟨block, hblock⟩ := exists_lastWhere (p := fun block => block.blockNumber == n) hmem
        (beq_self_eq_true n)
      obtain ⟨_, _, rfl⟩ := List.mem_map.mp (mem_of_lastWhere hblock)
      exact ⟨_, hblock, rfl⟩
  | _ => trivial

/-- The runs against this reader and others of the chain. -/
abbrev StableRun : World Unit → Async ChainRunReport → Prop :=
  Reachable (Serves hashIndexer (StableAnswers fun _ => "0xaaaaa1"))
    (fun w => ∀ dataset, w.db.checkpoint.get (46, dataset) = none) (fun w w' => w' = w)
    (runChainOnce ⟨⟨0⟩, [], 10⟩ (darwinia 5 1 .latest))

/-- Both blocks are indexed by one pass. -/
def indexedTwo : World Unit :=
  evalPasses (simulate hashIndexer twoBlocks) id
    (runChainOnce ⟨⟨0⟩, [], 10⟩ (darwinia 5 1 .latest)) 1 ⟨.empty, [], ()⟩

/-- The next pass has checked its window and asks for the head. -/
def checkedAgain : World Unit × Async ChainRunReport :=
  (runChainOnce ⟨⟨0⟩, [], 10⟩ (darwinia 5 1 .latest)).evalUntil (simulate hashIndexer twoBlocks)
    (· == .latestBlock 46 .latest) indexedTwo

/-- Block 5 has no anchor, block 6 has one, and nothing is rolled back. -/
theorem never_rolls_back_twoBlocks : ∃ next,
    StableRun checkedAgain.1 (.call (.latestBlock 46 .latest) next) ∧
    nextBlock (darwinia 5 1 .latest) EVM_LOGS_DATASET checkedAgain.1.db = 7 ∧
    checkedAgain.1.db.blockAnchor.get (46, EVM_LOGS_DATASET, 5) = none ∧
    Op.latestBlock 46 .latest ≠ .rollbackLegacyFrom 46 EVM_LOGS_DATASET 5 := by
  obtain ⟨next, hnext⟩ := eq_call_of_awaited (t := checkedAgain.2)
    (show _ = some (.latestBlock 46 .latest) by decide +kernel)
  have indexed : StableRun indexedTwo (runChainOnce ⟨⟨0⟩, [], 10⟩ (darwinia 5 1 .latest)) := by
    refine reachable_evalPasses (serves_simulate stableAnswers_twoBlocks) (fun _ => ?_) (fun _ => rfl) 1
    rfl
  have hr : StableRun checkedAgain.1 checkedAgain.2 :=
    indexed.reaches (reaches_evalUntil (serves_simulate stableAnswers_twoBlocks)
      (· == .latestBlock 46 .latest) _ _)
  rw [hnext] at hr
  exact ⟨next, hr, by decide +kernel, by decide +kernel,
    never_rolls_back (fun _ => "0xaaaaa1") hashIndexer ⟨⟨0⟩, [], 10⟩ (darwinia 5 1 .latest) hr 46
      EVM_LOGS_DATASET 5⟩

end Runner

end OrmpIndexer
