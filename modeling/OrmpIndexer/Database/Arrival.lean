/-
# OrmpIndexer.Database.Arrival — when the acceptance of a message arrives

The assignments of a message are written in chain order, and its acceptance arrives somewhere among them.
Those that come after it are applied as they arrive; those that are stored already are applied in the
order of the backfill query, the block number and then the id, both AS TEXT. So the end result does not
depend on the place of the acceptance exactly if, for the oracle and for the relayer, the last applying
assignment of the chain and the last one of that query write the same columns (`OrdersAgree`). The text
order is the catch: block 9 comes after block 10, and log index 9 after log index 10.
-/
import OrmpIndexer.Database.Replay
import OrmpIndexer.Datalens.Query

namespace OrmpIndexer

open Foundation

namespace Postgres

/-- The assignments of a message as they lie on a chain: one log each, in the order of block number and
log index, with the ids of `log_from_row`. -/
structure ChainOrder (chainId : Nat) (msgHash : String) (assigned : List MessageAssigned) : Prop where
  message : ∀ a ∈ assigned, a.msgHash = msgHash
  id : ∀ a ∈ assigned, ∃ logIndex : Nat, a.metadata.logIndex = logIndex ∧
    a.metadata.id = logId chainId a.metadata.blockNumber a.metadata.transactionHash logIndex
  sorted : assigned.Pairwise fun a b => a.metadata.blockNumber < b.metadata.blockNumber ∨
    (a.metadata.blockNumber = b.metadata.blockNumber ∧ a.metadata.logIndex < b.metadata.logIndex)

variable (pg : Postgres)

variable {pg} {db : Database} {chainId : Nat} {accepted : MessageAccepted} {msgHash : String}
  {assigned : List MessageAssigned}

/-- One log has one id. -/
theorem ChainOrder.ids (h : ChainOrder chainId msgHash assigned) :
    assigned.Pairwise fun a b => a.metadata.id ≠ b.metadata.id := by
  apply h.sorted.imp_of_mem
  intro a b ha hb hlt hid
  obtain ⟨i, hi, hida⟩ := h.id a ha
  obtain ⟨j, hj, hidb⟩ := h.id b hb
  rw [hida, hidb] at hid
  have hsame := logId_inj hid
  omega

theorem ChainOrder.take (h : ChainOrder chainId msgHash assigned) (n : Nat) :
    ChainOrder chainId msgHash (assigned.take n) where
  message a ha := h.message a (List.mem_of_mem_take ha)
  id a ha := h.id a (List.mem_of_mem_take ha)
  sorted := h.sorted.sublist (List.take_sublist n assigned)

def sampleAccepted : MessageAccepted where
  metadata := logMetadata 46 5 0 "0xaaaaa1"
  msgHash := "0xaa"
  channel := "0x02"
  index := 0
  fromChainId := 46
  fromAddress := "0x03"
  toChainId := 1
  toAddress := "0x04"
  gasLimit := 0
  encoded := "0x"

def sampleAssigned (blockNumber logIndex : Nat) (oracle : String) (oracleFee : Nat) :
    MessageAssigned where
  metadata := logMetadata 46 blockNumber logIndex "0xaaaaa1"
  msgHash := "0xaa"
  oracle := oracle
  relayer := "0x05"
  oracleFee := oracleFee
  relayerFee := 0
  params := "0x"

end Postgres

end OrmpIndexer
