/-
# OrmpIndexer.Checkpoint — checkpoints, block anchors and the next range

`checkpoint.rs`. A checkpoint is the first block of a chain that has not been indexed; an anchor is the
hash a block had when it was indexed.
-/
import OrmpIndexer.Config

namespace OrmpIndexer

/-- How far a dataset of a chain has been indexed: up to the block before `nextBlock`. -/
structure Checkpoint where
  chainId : Nat
  dataset : String
  nextBlock : Nat
deriving DecidableEq, Repr

/-- Blocks from one to another, both included. -/
structure BlockRange where
  fromBlock : Nat
  toBlock : Nat
deriving DecidableEq, Repr

/-- What is remembered of an indexed block, to see later whether it is still on the chain. -/
structure BlockAnchor where
  chainId : Nat
  dataset : String
  blockNumber : Nat
  blockHash : String
  parentHash : Option String
  finality : FinalityMode
deriving DecidableEq, Repr

def planNextRange (checkpoint : Checkpoint) (batchSize : Nat) : Except Error BlockRange :=
  if batchSize = 0 then .error ["batch size must be greater than zero"]
  else do
    let toBlock ← contextOption "checkpoint range overflow"
      (checkedAdd checkpoint.nextBlock (batchSize - 1))
    return { fromBlock := checkpoint.nextBlock, toBlock }

/-- A planned range starts at the checkpoint and is not empty. -/
theorem planNextRange_eq_ok {checkpoint : Checkpoint} {batchSize : Nat} {range : BlockRange}
    (h : planNextRange checkpoint batchSize = .ok range) :
    range.fromBlock = checkpoint.nextBlock ∧ range.toBlock + 1 = checkpoint.nextBlock + batchSize ∧
      0 < batchSize ∧ range.toBlock ≤ u64Max := by
  unfold planNextRange at h
  split at h
  · cases h
  · rename_i hb
    simp only [bind_eq_ok, contextOption_eq_ok, checkedAdd_eq_some] at h
    obtain ⟨stop, ⟨hstop, hmax⟩, h⟩ := h
    cases h
    exact ⟨rfl, by simp only; omega, by omega, hmax⟩

end OrmpIndexer
