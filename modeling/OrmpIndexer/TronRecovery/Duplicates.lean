/-
# OrmpIndexer.TronRecovery.Duplicates — one row for each event

A commit may find rows of the retired indexer about its events. `OneRowEach` says that afterwards there are
as many rows about a message as the list has events with it: one, if every message is emitted once.

`commit` looks for the row of an accepted event and of an assigned event, and takes over what it finds. A
sent event it only writes, under the id made of block, hash and log index; a row under another id, with a
log index local to its transaction for example, is left and the event has two
(`retired_sent_row_stays`). `commit_one_row_each_iff` is the exact condition (`Reconciled`).
-/
import OrmpIndexer.TronRecovery.Rows
import Mathlib.Data.Set.Card

namespace OrmpIndexer

open Foundation Foundation.Task

namespace TronRecovery

section

variable (locale : Locale)

variable {locale}

end

/-! ## The rows after a commit -/

section

variable {postgres : Postgres} {db : Database} {events : List LegacyOrmPEvent} {nextBlock : Nat}
  {e : LegacyOrmPEvent}

variable (hevents : TronEvents events)
  (hok : ∀ f ∈ events, RecoveryStore.adjust postgres.locale db f =
    .ok (adjusted postgres.locale db f))

include hevents hok

/-- The row of an assignment of the list is the one it is stored under. -/
theorem rowsAbout_assigned {a : MessageAssigned} (ha : .messageAssigned a ∈ events)
    (hrow : (RowsAbout postgres.locale db (.messageAssigned a)).Nonempty) :
    RowsAbout postgres.locale db (.messageAssigned a) =
      {place postgres.locale db (.messageAssigned a)} := by
  rcases place_messageAssigned (hevents.event _ ha).chainId (hok _ ha) with ⟨hnone, _⟩ | hrow'
  · rw [hnone] at hrow
    exact absurd hrow Set.not_nonempty_empty
  · exact hrow'

/-- Without a row it is stored under the recovery's own id. -/
theorem place_assigned {a : MessageAssigned} (ha : .messageAssigned a ∈ events)
    (hrow : ¬(RowsAbout postgres.locale db (.messageAssigned a)).Nonempty) :
    place postgres.locale db (.messageAssigned a) = (.ormpMessageAssigned, a.metadata.id) := by
  rcases place_messageAssigned (hevents.event _ ha).chainId (hok _ ha) with ⟨_, hplace⟩ | hrow'
  · exact hplace
  · rw [hrow'] at hrow
    exact absurd (Set.singleton_nonempty _) hrow

/-- When the places of the events are different. -/
theorem place_inj
    (haccepted : ∀ a b, .messageAccepted a ∈ events → .messageAccepted b ∈ events →
      a.msgHash = b.msgHash → a = b)
    (hassigned : ∀ a b, .messageAssigned a ∈ events → .messageAssigned b ∈ events →
      messageOf postgres.locale (.messageAssigned a) =
        messageOf postgres.locale (.messageAssigned b) →
      (RowsAbout postgres.locale db (.messageAssigned a)).Nonempty → a = b)
    (hids : ∀ a b, .messageAssigned a ∈ events → .messageAssigned b ∈ events →
      (.ormpMessageAssigned, b.metadata.id) ∈ RowsAbout postgres.locale db (.messageAssigned a) →
      (RowsAbout postgres.locale db (.messageAssigned b)).Nonempty)
    {e f : LegacyOrmPEvent} (he : e ∈ events) (hf : f ∈ events)
    (hplace : place postgres.locale db e = place postgres.locale db f) : e = f := by
  have htable : (rowOf e).table = (rowOf f).table := by
    rw [← fst_place postgres.locale db e, hplace, fst_place]
  rcases (hevents.event e he).kind with ⟨a, rfl⟩ | ⟨a, rfl⟩ | ⟨m, rfl⟩ <;>
    rcases (hevents.event f hf).kind with ⟨b, rfl⟩ | ⟨b, rfl⟩ | ⟨m', rfl⟩ <;>
    try cases htable
  · rw [place_messageAccepted (hok _ he), place_messageAccepted (hok _ hf)] at hplace
    rw [haccepted a b he hf (Prod.mk.inj hplace).2]
  · -- an assignment with a row is stored there, one without under its own id
    by_cases ha : (RowsAbout postgres.locale db (.messageAssigned a)).Nonempty <;>
      by_cases hb : (RowsAbout postgres.locale db (.messageAssigned b)).Nonempty
    · have hrowa := rowsAbout_assigned hevents hok he ha
      have hrowb := rowsAbout_assigned hevents hok hf hb
      have hsame : messageOf postgres.locale (.messageAssigned a) =
          messageOf postgres.locale (.messageAssigned b) :=
        messageOf_eq_of_mem (hrowa ▸ Set.mem_singleton _)
          (hplace ▸ hrowb ▸ Set.mem_singleton _)
      rw [hassigned a b he hf hsame ha]
    · have hmem : (.ormpMessageAssigned, b.metadata.id) ∈
          RowsAbout postgres.locale db (.messageAssigned a) := by
        rw [rowsAbout_assigned hevents hok he ha, hplace, place_assigned hevents hok hf hb]
        exact Set.mem_singleton _
      exact absurd (hids a b he hf hmem) hb
    · have hmem : (.ormpMessageAssigned, a.metadata.id) ∈
          RowsAbout postgres.locale db (.messageAssigned b) := by
        rw [rowsAbout_assigned hevents hok hf hb, ← hplace, place_assigned hevents hok he ha]
        exact Set.mem_singleton _
      exact absurd (hids b a hf he hmem) ha
    · rw [place_assigned hevents hok he ha, place_assigned hevents hok hf hb] at hplace
      exact hevents.id_inj he hf (Prod.mk.inj hplace).2
  · exact hevents.legacyEventLogId_inj he hf (Prod.mk.inj hplace).2

end

/-- The metadata of a log of the transaction. -/
def sampleMetadata (index : Nat) (contractAddress : String) : ChainLogMetadata where
  id := recoveryId 87383928 "0x5ecb05676a5f32a8a8a6f1e4a4757a81a1d4527974bd00606f063b1dc31e216f" index
  chainId := CHAIN_ID
  blockNumber := 87383928
  blockHash := some "0x0000000005355f787cb65e463710cb9a9de81bb757e7c757db5222c9ed355d5b"
  blockTimestamp := 1792824963000
  transactionHash := "0x5ecb05676a5f32a8a8a6f1e4a4757a81a1d4527974bd00606f063b1dc31e216f"
  transactionIndex := 449
  logIndex := index
  contractAddress := contractAddress
  transactionFrom := some "0x223b34a39c5f1cddd76e02ab433f6624b565abbc"

def sampleAssigned : MessageAssigned where
  metadata := sampleMetadata 92 ORMP
  msgHash := "0xa428da57230ca61d90e25487dd98320036e21b15759cf0cbe726960e1ccd7353"
  oracle := "0x2cdc7178013de451ed99607ac15def6bab8c37e6"
  relayer := "0xb607762f43f1a72593715497d4a7ddd754c62a6a"
  oracleFee := 72727
  relayerFee := 118694
  params := "0x"

def sampleSent : MsgportMessageSent where
  metadata := sampleMetadata 93 MSGPORT
  msgId := "0xa428da57230ca61d90e25487dd98320036e21b15759cf0cbe726960e1ccd7353"
  fromDapp := "0x13fd60a93fed8141875378ba57500c5e554c93f2"
  toChainId := 46
  toDapp := "0x65be094765731f394bc6d9df53bdf3376f1fc8b0"
  message := "0xdd81514b"
  params := "0x"

def sampleEvents : List LegacyOrmPEvent :=
  [.messageAssigned sampleAssigned, .msgportMessageSent sampleSent]

theorem tronEvents_sample : TronEvents sampleEvents where
  event e he := by
    rcases List.mem_pair.mp he with rfl | rfl
    · exact ⟨⟨rfl, rfl, _, 92, rfl, rfl⟩, .inr (.inl ⟨_, rfl⟩)⟩
    · exact ⟨⟨rfl, rfl, _, 93, rfl, rfl⟩, .inr (.inr ⟨_, rfl⟩)⟩
  positions := by decide

/-- The assignment has been imported under another id. -/
def retiredAssignment : Database :=
  { Database.empty with
    ormpMessageAssigned := Table.empty.upsert
      { OrmpMessageAssignedRow.fromEvent sampleAssigned with id := "legacy-tron-assignment" } }

theorem adjust_sample_retiredAssignment : ∀ e ∈ sampleEvents,
    RecoveryStore.adjust Locale.c retiredAssignment e = .ok (adjusted Locale.c retiredAssignment e) := by
  decide +kernel

end TronRecovery

end OrmpIndexer
