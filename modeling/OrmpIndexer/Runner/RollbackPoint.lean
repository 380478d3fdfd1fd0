/-
# OrmpIndexer.Runner.RollbackPoint — the rollback point is the first divergence

What the reorg check does when no call fails, for both stores. It uses two functions of a store; what it
relies on (`AnchorStore`) is that reading a range finds the anchor of every block in it, and that a
rollback deletes the anchors from its block on and sets the checkpoint. Against any such store and any
answer for its window the check ends with the least block that diverges (`Diverged`), or with none.
-/
import OrmpIndexer.Checkpoint.InMemory
import OrmpIndexer.Database.Rows
import OrmpIndexer.Runner.Rules
import Mathlib.Order.Bounds.Basic

namespace OrmpIndexer

open Foundation Foundation.Task

namespace Runner

variable {σ : Type}

/-- A store as the reorg check knows it: a checkpoint for a chain and a dataset, an anchor for a block
of them, and the two functions the check calls. -/
structure AnchorStore (σ : Type) where
  nextBlock : σ → Nat → String → Option Nat
  anchor : σ → Nat → String → Nat → Option BlockAnchor
  readBlockAnchors : σ → Nat → String → Nat → Nat → List BlockAnchor
  rollbackLegacyFrom : σ → Nat → String → Nat → σ
  reads : ∀ {s chainId dataset fromBlock toBlock n}, fromBlock ≤ n → n ≤ toBlock →
    lastWhere (fun anchor => anchor.blockNumber == n)
      (readBlockAnchors s chainId dataset fromBlock toBlock) = anchor s chainId dataset n
  rollsBack : ∀ {s chainId dataset rollbackBlock chainId' dataset' n},
    anchor (rollbackLegacyFrom s chainId dataset rollbackBlock) chainId' dataset' n =
      if chainId' = chainId ∧ dataset' = dataset ∧ rollbackBlock ≤ n then none
      else anchor s chainId' dataset' n
  advances : ∀ {s chainId dataset rollbackBlock},
    nextBlock (rollbackLegacyFrom s chainId dataset rollbackBlock) chainId dataset =
      some rollbackBlock

def postgresCheckpointStore (postgres : Postgres) : AnchorStore Database where
  nextBlock db chainId dataset := (db.checkpoint.get (chainId, dataset)).map (·.nextBlock)
  anchor db chainId dataset n := db.blockAnchor.get (chainId, dataset, n)
  readBlockAnchors := postgres.readBlockAnchors
  rollbackLegacyFrom := postgres.rollbackLegacyFrom
  reads := postgres.lastWhere_readBlockAnchors
  rollsBack := by
    intro db chainId dataset rollbackBlock chainId' dataset' n
    rw [Postgres.blockAnchor_rollback]
    apply get_deleteWhere_anchor
    intro a
    simp [and_assoc]
  advances := by simp [Postgres.checkpoint_rollback, Table.get_upsert, Keyed.key]

def inMemoryCheckpointStore : AnchorStore InMemoryCheckpointStore where
  nextBlock s chainId dataset := (s.checkpoints.get (chainId, dataset)).map (·.nextBlock)
  anchor s chainId dataset n := s.anchors.get (chainId, dataset, n)
  readBlockAnchors s := s.readBlockAnchors
  rollbackLegacyFrom s := s.rollbackLegacyFrom
  reads := InMemoryCheckpointStore.lastWhere_readBlockAnchors _
  rollsBack := by
    intro s chainId dataset rollbackBlock chainId' dataset' n
    apply get_deleteWhere_anchor
    intro a
    simp [and_assoc]
  advances := by
    intro s chainId dataset rollbackBlock
    simp [InMemoryCheckpointStore.rollbackLegacyFrom, InMemoryCheckpointStore.advance,
      Table.get_upsert, Keyed.key]

section

variable (store : AnchorStore σ) (config : RuntimeConfig) (chain : ChainConfig) (dataset : String)
variable (checkpointNextBlock finalized : Nat) (blocks : DatalensBlockQueryResult) (s : σ)

/-- No call fails: the finalized head and the block answer are given, the rest is the store. -/
def answersCheck : σ → (op : Op) → Except Error (Reply op) × σ
  | s, .finalizedHead _ => (.ok finalized, s)
  | s, .readBlockAnchors chainId dataset fromBlock toBlock =>
      (.ok (store.readBlockAnchors s chainId dataset fromBlock toBlock), s)
  | s, .queryBlocks _ => (.ok blocks, s)
  | s, .rollbackLegacyFrom chainId dataset rollbackBlock =>
      (.ok (), store.rollbackLegacyFrom s chainId dataset rollbackBlock)
  | s, _ => (.error [], s)

/-- The result of the reorg check and the store afterwards. -/
def checked : Except Error (Option Nat) × σ :=
  (rollbackReorgedAnchors config chain dataset checkpointNextBlock).eval
    (answersCheck store finalized blocks) s

/-- The block lies in the window of the check. -/
def InWindow (n : Nat) : Prop :=
  windowStart config chain checkpointNextBlock finalized ≤ n ∧ n < checkpointNextBlock

/-- The block has no stored anchor, no listed header, or one whose hash differs from the anchor's. -/
def Diverged (n : Nat) : Prop :=
  store.anchor s chain.chainId dataset n = none ∨ listedBlock blocks.blocks n = none ∨
    ∃ anchor block, store.anchor s chain.chainId dataset n = some anchor ∧
      listedBlock blocks.blocks n = some block ∧ block.blockHash ≠ anchor.blockHash

/-- What a store looks like after a rollback to a block: the checkpoint is there, the anchors from there
on are gone and no others, and those left in the window match the headers. -/
structure RolledBackTo (b : Nat) (s' : σ) : Prop where
  checkpoint : store.nextBlock s' chain.chainId dataset = some b
  gone : ∀ n, b ≤ n → store.anchor s' chain.chainId dataset n = none
  below : ∀ n, n < b →
    store.anchor s' chain.chainId dataset n = store.anchor s chain.chainId dataset n
  others : ∀ chainId dataset' n, (chainId, dataset') ≠ (chain.chainId, dataset) →
    store.anchor s' chainId dataset' n = store.anchor s chainId dataset' n
  matching : ∀ n anchor, InWindow config chain checkpointNextBlock finalized n →
    store.anchor s' chain.chainId dataset n = some anchor →
    ∃ block, listedBlock blocks.blocks n = some block ∧ block.blockHash = anchor.blockHash

/-- The check ends with the least block of the window that diverges and rolls back to it, or with none
and leaves the store alone. -/
structure FirstDivergence : Prop where
  ends : ∃ r, (checked store config chain dataset checkpointNextBlock finalized blocks s).1 = .ok r
  some_iff : ∀ b, (checked store config chain dataset checkpointNextBlock finalized blocks s).1 =
    .ok (some b) ↔ IsLeast {n | InWindow config chain checkpointNextBlock finalized n ∧
      Diverged store chain dataset blocks s n} b
  rolledBack : ∀ b, (checked store config chain dataset checkpointNextBlock finalized blocks s).1 =
    .ok (some b) → RolledBackTo store config chain dataset checkpointNextBlock finalized blocks s b
      (checked store config chain dataset checkpointNextBlock finalized blocks s).2
  unchanged : (checked store config chain dataset checkpointNextBlock finalized blocks s).1 =
    .ok none → (checked store config chain dataset checkpointNextBlock finalized blocks s).2 = s

end

section

variable {store : AnchorStore σ} {config : RuntimeConfig} {chain : ChainConfig} {dataset : String}
variable {checkpointNextBlock finalized : Nat} {blocks : DatalensBlockQueryResult} {s : σ}

/-- The comparison of the check, on the anchors it has read. -/
theorem diverges_iff {n : Nat} (h : InWindow config chain checkpointNextBlock finalized n) :
    diverges (store.readBlockAnchors s chain.chainId dataset
        (windowStart config chain checkpointNextBlock finalized) (checkpointNextBlock - 1))
      blocks.blocks n = true ↔ Diverged store chain dataset blocks s n := by
  have hto : n ≤ checkpointNextBlock - 1 := by
    have := h.2
    omega
  rw [diverges, store.reads h.1 hto, Diverged]
  cases store.anchor s chain.chainId dataset n with
  | none => simp
  | some anchor =>
      cases listedBlock blocks.blocks n with
      | none => simp
      | some block => simp

/-- The window as the check computes it. -/
theorem mem_window {n : Nat} (hpos : 0 < checkpointNextBlock) :
    n ∈ blockNumbers ⟨windowStart config chain checkpointNextBlock finalized,
        checkpointNextBlock - 1⟩ ↔ InWindow config chain checkpointNextBlock finalized n := by
  rw [mem_blockNumbers, InWindow]
  dsimp only
  omega

/-- The check, call by call. -/
theorem checked_eq (hcovers : windowStart config chain checkpointNextBlock finalized ≤
      checkpointNextBlock - 1 → blocks.covers
        (windowStart config chain checkpointNextBlock finalized) (checkpointNextBlock - 1) = true) :
    checked store config chain dataset checkpointNextBlock finalized blocks s =
      if 0 < checkpointNextBlock then
        match (blockNumbers ⟨windowStart config chain checkpointNextBlock finalized,
            checkpointNextBlock - 1⟩).find? (diverges (store.readBlockAnchors s chain.chainId dataset
              (windowStart config chain checkpointNextBlock finalized) (checkpointNextBlock - 1))
              blocks.blocks) with
        | none => (.ok none, s)
        | some b => (.ok (some b), store.rollbackLegacyFrom s chain.chainId dataset b)
      else (.ok none, s) := by
  have answered : ∀ (m : String) (op : Op) (a : Reply op) (s' : σ),
      answersCheck store finalized blocks s op = (.ok a, s') →
      (withContext m (await op)).eval (answersCheck store finalized blocks) s = (.ok a, s') :=
    fun m op a s' h => eval_mapError_of_ok h
  unfold checked rollbackReorgedAnchors
  by_cases hpos : 0 < checkpointNextBlock
  · rw [if_pos hpos]
    have hsub : checkedSub checkpointNextBlock 1 = some (checkpointNextBlock - 1) :=
      checkedSub_eq_some.mpr ⟨hpos, rfl⟩
    rw [hsub]
    dsimp only
    have head := answered s!"query Datalens finalized head for chain {chain.chainId}"
      (.finalizedHead chain.chainId) finalized s rfl
    rw [finalizedHead, eval_bind_of_ok head]
    by_cases hempty : checkpointNextBlock - 1 <
        windowStart config chain checkpointNextBlock finalized
    · -- nothing to compare, and nothing to find
      have hnone : blockNumbers ⟨windowStart config chain checkpointNextBlock finalized,
          checkpointNextBlock - 1⟩ = [] := by
        apply List.eq_nil_iff_forall_not_mem.mpr
        intro n hn
        obtain ⟨hfrom, hto⟩ := mem_blockNumbers.mp hn
        exact absurd (hfrom.trans hto) (Nat.not_le.mpr hempty)
      rw [if_pos hempty, hnone]
      rfl
    · rw [if_neg hempty, eval_bind_of_ok (answered _ _ _ s rfl), eval_bind_of_ok (answered _ _ _ s rfl),
        if_neg (by simp [hcovers (Nat.not_lt.mp hempty)])]
      generalize (blockNumbers ⟨windowStart config chain checkpointNextBlock finalized,
        checkpointNextBlock - 1⟩).find? (diverges (store.readBlockAnchors s chain.chainId dataset
          (windowStart config chain checkpointNextBlock finalized) (checkpointNextBlock - 1))
          blocks.blocks) = found
      cases found with
      | none => rfl
      | some b =>
          dsimp only
          rw [eval_bind_of_ok (answered _ _ _ _ rfl)]
          rfl
  · rw [if_neg hpos]
    have hsub : checkedSub checkpointNextBlock 1 = none := by
      rw [checkedSub, if_neg (by omega)]
    rw [hsub]
    rfl

/-- The first block found of a range is the least. -/
theorem find_blockNumbers_eq_some_iff {range : BlockRange} {p : Nat → Bool} {b : Nat} :
    (blockNumbers range).find? p = some b ↔
      IsLeast {n | n ∈ blockNumbers range ∧ p n = true} b := by
  rw [blockNumbers, List.find?_range'_eq_some]
  constructor
  · rintro ⟨hb, hmem, hbefore⟩
    refine ⟨⟨hmem, hb⟩, ?_⟩
    rintro n ⟨hn, hpn⟩
    apply Nat.le_of_not_lt
    intro hlt
    have hnot := hbefore n (List.mem_range'_1.mp hn).1 hlt
    rw [hpn] at hnot
    cases hnot
  · rintro ⟨⟨hmem, hb⟩, hleast⟩
    refine ⟨hb, hmem, ?_⟩
    intro n hfrom hlt
    have hto := (List.mem_range'_1.mp hmem).2
    have hn : n ∈ List.range' range.fromBlock (range.toBlock + 1 - range.fromBlock) :=
      List.mem_range'_1.mpr ⟨hfrom, hlt.trans hto⟩
    apply (Bool.not_eq_true' _).mpr
    apply Bool.eq_false_of_not_eq_true
    intro hpn
    exact Nat.not_le.mpr hlt (hleast ⟨hn, hpn⟩)

/-- The first block found is the least that diverges. -/
theorem find_eq_some_iff (hpos : 0 < checkpointNextBlock) {b : Nat} :
    (blockNumbers ⟨windowStart config chain checkpointNextBlock finalized,
        checkpointNextBlock - 1⟩).find? (diverges (store.readBlockAnchors s chain.chainId dataset
          (windowStart config chain checkpointNextBlock finalized) (checkpointNextBlock - 1))
          blocks.blocks) = some b ↔
      IsLeast {n | InWindow config chain checkpointNextBlock finalized n ∧
        Diverged store chain dataset blocks s n} b := by
  rw [find_blockNumbers_eq_some_iff]
  refine iff_of_eq (congrArg (IsLeast · b) (Set.ext fun n => ?_))
  exact (and_congr_left' (mem_window hpos)).trans (and_congr_right fun hn => diverges_iff hn)

/-- The store after a rollback to the first divergence. -/
theorem rolledBackTo_of_isLeast {b : Nat}
    (h : IsLeast {n | InWindow config chain checkpointNextBlock finalized n ∧
      Diverged store chain dataset blocks s n} b) :
    RolledBackTo store config chain dataset checkpointNextBlock finalized blocks s b
      (store.rollbackLegacyFrom s chain.chainId dataset b) where
  checkpoint := store.advances
  gone n hn := by rw [store.rollsBack, if_pos ⟨rfl, rfl, hn⟩]
  below n hn := by rw [store.rollsBack, if_neg fun hsel => Nat.not_le.mpr hn hsel.2.2]
  others chainId dataset' n hne := by
    rw [store.rollsBack, if_neg]
    rintro ⟨rfl, rfl, _⟩
    exact hne rfl
  matching n anchor hn hanchor := by
    rw [store.rollsBack] at hanchor
    split at hanchor
    · cases hanchor
    · rename_i hkept
      -- a kept block of the window is below the least that diverges
      have hlt : n < b := by
        apply Nat.lt_of_not_le
        intro hle
        exact hkept ⟨rfl, rfl, hle⟩
      have hsame : ¬Diverged store chain dataset blocks s n := by
        intro hdiverged
        exact Nat.not_le.mpr hlt (h.2 ⟨hn, hdiverged⟩)
      cases hlisted : listedBlock blocks.blocks n with
      | none => exact absurd (.inr (.inl hlisted)) hsame
      | some block =>
          refine ⟨block, rfl, ?_⟩
          by_contra hne
          exact hsame (.inr (.inr ⟨anchor, block, hanchor, hlisted, hne⟩))

/-- A check that finds nothing where nothing diverges. -/
theorem FirstDivergence.of_none
    (heq : checked store config chain dataset checkpointNextBlock finalized blocks s = (.ok none, s))
    (hnone : ∀ b, ¬IsLeast {n | InWindow config chain checkpointNextBlock finalized n ∧
      Diverged store chain dataset blocks s n} b) :
    FirstDivergence store config chain dataset checkpointNextBlock finalized blocks s where
  ends := ⟨none, by rw [heq]⟩
  some_iff b := by
    rw [heq]
    apply iff_of_false _ (hnone b)
    intro h
    cases h
  rolledBack b h := by
    rw [heq] at h
    cases h
  unchanged _ := by rw [heq]

/-- A check that rolls back to the least block that diverges. -/
theorem FirstDivergence.of_isLeast {c : Nat}
    (heq : checked store config chain dataset checkpointNextBlock finalized blocks s =
      (.ok (some c), store.rollbackLegacyFrom s chain.chainId dataset c))
    (hleast : IsLeast {n | InWindow config chain checkpointNextBlock finalized n ∧
      Diverged store chain dataset blocks s n} c) :
    FirstDivergence store config chain dataset checkpointNextBlock finalized blocks s where
  ends := ⟨some c, by rw [heq]⟩
  some_iff b := by
    rw [heq]
    constructor
    · intro h
      cases h
      exact hleast
    · intro hb
      rw [hleast.unique hb]
  rolledBack b h := by
    rw [heq] at h ⊢
    cases h
    exact rolledBackTo_of_isLeast hleast
  unchanged h := by
    rw [heq] at h
    cases h

theorem firstDivergence (store : AnchorStore σ) (s : σ)
    (hcovers : windowStart config chain checkpointNextBlock finalized ≤ checkpointNextBlock - 1 →
      blocks.covers (windowStart config chain checkpointNextBlock finalized)
        (checkpointNextBlock - 1) = true) :
    FirstDivergence store config chain dataset checkpointNextBlock finalized blocks s := by
  have heq : checked store config chain dataset checkpointNextBlock finalized blocks s = _ :=
    checked_eq hcovers
  by_cases hpos : 0 < checkpointNextBlock
  · rw [if_pos hpos] at heq
    cases hfind : (blockNumbers ⟨windowStart config chain checkpointNextBlock finalized,
        checkpointNextBlock - 1⟩).find? (diverges (store.readBlockAnchors s chain.chainId dataset
          (windowStart config chain checkpointNextBlock finalized) (checkpointNextBlock - 1))
          blocks.blocks) with
    | none =>
        rw [hfind] at heq
        apply FirstDivergence.of_none heq
        intro b hb
        rw [← find_eq_some_iff hpos, hfind] at hb
        cases hb
    | some c =>
        rw [hfind] at heq
        exact .of_isLeast heq ((find_eq_some_iff hpos).mp hfind)
  · -- nothing is indexed: the window is empty
    rw [if_neg hpos] at heq
    apply FirstDivergence.of_none heq
    rintro b ⟨⟨hb, _⟩, _⟩
    exact hpos (Nat.zero_lt_of_lt hb.2)

/-- **The rollback point is the first divergence.** For every checkpoint, reorg window, finalized head and
block answer that covers the window, over every state of the PostgreSQL store and of the in-memory store:
the check ends without an error, with the least block of the window that diverges and a rollback to it, or
with none and the store as it was. -/
theorem rollback_point_is_first_divergence (postgres : Postgres) (config : RuntimeConfig)
    (chain : ChainConfig) (dataset : String) (checkpointNextBlock finalized : Nat)
    (blocks : DatalensBlockQueryResult)
    (hcovers : windowStart config chain checkpointNextBlock finalized ≤ checkpointNextBlock - 1 →
      blocks.covers (windowStart config chain checkpointNextBlock finalized)
        (checkpointNextBlock - 1) = true) :
    (∀ db, FirstDivergence (postgresCheckpointStore postgres) config chain dataset
        checkpointNextBlock finalized blocks db) ∧
      ∀ s, FirstDivergence inMemoryCheckpointStore config chain dataset checkpointNextBlock finalized
        blocks s :=
  ⟨fun db => firstDivergence _ db hcovers, fun s => firstDivergence _ s hcovers⟩

/-- Blocks 5 and 6 as they were indexed. -/
def anchoredFiveSix : List BlockAnchor :=
  [⟨46, EVM_LOGS_DATASET, 5, "0xaaaaa1", none, .latest⟩,
    ⟨46, EVM_LOGS_DATASET, 6, "0xbbbbb2", none, .latest⟩]

/-- Block 6 has been replaced. -/
def replacedSix : DatalensBlockQueryResult :=
  ⟨[⟨46, 5, "0xaaaaa1", none⟩, ⟨46, 6, "0xccccc3", none⟩], some 5, some 6, none⟩

/-- Both stores roll back to block 6, the least one that diverges. -/
theorem rollback_point_is_first_divergence_six :
    IsLeast {n | InWindow ⟨⟨0⟩, [], 10⟩ (darwinia 5 1 .latest) 7 4 n ∧
      Diverged (postgresCheckpointStore .legacyStore) (darwinia 5 1 .latest) EVM_LOGS_DATASET replacedSix
        (Postgres.upsertBlockAnchors .empty anchoredFiveSix) n} 6 ∧
    IsLeast {n | InWindow ⟨⟨0⟩, [], 10⟩ (darwinia 5 1 .latest) 7 4 n ∧
      Diverged inMemoryCheckpointStore (darwinia 5 1 .latest) EVM_LOGS_DATASET replacedSix
        (InMemoryCheckpointStore.upsertBlockAnchors ⟨.empty, .empty⟩ anchoredFiveSix) n} 6 := by
  obtain ⟨postgres, inMemory⟩ := rollback_point_is_first_divergence .legacyStore ⟨⟨0⟩, [], 10⟩
    (darwinia 5 1 .latest) EVM_LOGS_DATASET 7 4 replacedSix (fun _ => by decide)
  exact ⟨((postgres _).some_iff 6).mp (by decide +kernel),
    ((inMemory _).some_iff 6).mp (by decide +kernel)⟩

end

end Runner

end OrmpIndexer
