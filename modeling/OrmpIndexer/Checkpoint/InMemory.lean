/-
# OrmpIndexer.Checkpoint.InMemory — the store of the tests

`InMemoryCheckpointStore` of `checkpoint.rs`: two ordered maps under the primary keys of the PostgreSQL
tables, so they are the same `Table`s. An entry of `checkpoints` is the row of its key, and an anchor is
only ever inserted under its own key. The keys between `(chain_id, dataset, from_block)` and
`(chain_id, dataset, to_block)` are those of the chain and the dataset with a block in between, in the
order of the blocks. A poisoned lock is a failed call and not part of the store.
-/
import OrmpIndexer.Database.Rows

namespace OrmpIndexer

open Foundation

/-- The two maps behind the lock. -/
structure InMemoryCheckpointStore where
  checkpoints : Table Checkpoint
  anchors : Table BlockAnchor

namespace InMemoryCheckpointStore

variable (self : InMemoryCheckpointStore)

/-- `entry(..).or_insert(..)`: what is there stays. -/
def readOrCreate (chainId : Nat) (dataset : String) (startBlock : Nat) :
    Checkpoint × InMemoryCheckpointStore :=
  let checkpoints := self.checkpoints.insertIfAbsent { chainId, dataset, nextBlock := startBlock }
  let nextBlock := ((checkpoints.get (chainId, dataset)).map (·.nextBlock)).getD startBlock
  ({ chainId, dataset, nextBlock }, { self with checkpoints })

/-- A checkpoint that is not there is made, at block 0. -/
def nextBlock (chainId : Nat) (dataset : String) : Nat × InMemoryCheckpointStore :=
  let (checkpoint, self) := self.readOrCreate chainId dataset 0
  (checkpoint.nextBlock, self)

/-- The insert overwrites what was there, and makes what was not. -/
def advance (chainId : Nat) (dataset : String) (nextBlock : Nat) : InMemoryCheckpointStore :=
  { self with checkpoints := self.checkpoints.upsert { chainId, dataset, nextBlock } }

def upsertBlockAnchors (anchors : List BlockAnchor) : InMemoryCheckpointStore :=
  { self with anchors := anchors.foldl Table.upsert self.anchors }

def readBlockAnchors (chainId : Nat) (dataset : String) (fromBlock toBlock : Nat) :
    List BlockAnchor :=
  self.anchors.select fun anchor =>
    anchor.chainId == chainId && anchor.dataset == dataset &&
      decide (fromBlock ≤ anchor.blockNumber) && decide (anchor.blockNumber ≤ toBlock)

/-- The retained anchors are those of another chain or dataset, and those below the block. -/
def rollbackLegacyFrom (chainId : Nat) (dataset : String) (rollbackBlock : Nat) :
    InMemoryCheckpointStore :=
  let anchors := self.anchors.deleteWhere fun anchor =>
    !(anchor.chainId != chainId || anchor.dataset != dataset ||
      decide (anchor.blockNumber < rollbackBlock))
  advance { self with anchors } chainId dataset rollbackBlock

/-- The anchor that is read for a block is the one stored for it. -/
theorem lastWhere_readBlockAnchors {chainId : Nat} {dataset : String} {fromBlock toBlock n : Nat}
    (hfrom : fromBlock ≤ n) (hto : n ≤ toBlock) :
    lastWhere (fun anchor => anchor.blockNumber == n)
      (self.readBlockAnchors chainId dataset fromBlock toBlock) =
        self.anchors.get (chainId, dataset, n) :=
  lastWhere_eq_get_anchor (fun _ => mem_select_anchorInRange) hfrom hto

end InMemoryCheckpointStore

end OrmpIndexer
