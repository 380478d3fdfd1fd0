/-
# OrmpIndexer.TronRecovery.Events — what the events of a range are like

Every decoded event is of one of three kinds and on the chain of the recovery, its id is the recovery's own
(`TronEvent`), and no two events of a range are at one place in one block (`TronEvents`). Both ids that are
made from the place are therefore different for different events of a range: the recovery's own id
(`TronEvents.id_inj`) and the id of a sent row (`TronEvents.legacyEventLogId_inj`).
-/
import OrmpIndexer.TronRecovery.Scan
import Mathlib.Data.List.Nodup

namespace OrmpIndexer

open Foundation

namespace TronRecovery

/-! ## Ids -/

theorem toList_recoveryId (number : Nat) (transactionHash : String) (index : Nat) :
    (recoveryId number transactionHash index).toList =
      "tron-".toList ++ (decimal number ++ '-' ::
        ((toAsciiLowercase transactionHash).toList ++ '-' :: decimal index)) := by
  simp [recoveryId, toString, decimal]

/-- The id names the block and the log. -/
theorem recoveryId_inj {number number' index index' : Nat} {hash hash' : String}
    (h : recoveryId number hash index = recoveryId number' hash' index') :
    number = number' ∧ index = index' := by
  have hlist := congrArg String.toList h
  rw [toList_recoveryId, toList_recoveryId] at hlist
  obtain ⟨hnumber, hrest⟩ := decimal_dash_inj (List.append_cancel_left hlist)
  exact ⟨hnumber, (dash_decimal_inj hrest).2⟩

/-! ## Decoded events -/

/-- The metadata is that of a log of the recovery. -/
structure Placed (e : LegacyOrmPEvent) : Prop where
  chainId : e.metadata.chainId = CHAIN_ID
  blockHash : e.metadata.blockHash.isSome
  id : ∃ (hash : String) (index : Nat), e.metadata.logIndex = (index : Int) ∧
    e.metadata.id = recoveryId e.metadata.blockNumber hash index

/-- An event of the recovery. -/
structure TronEvent (e : LegacyOrmPEvent) : Prop extends Placed e where
  kind : IsMessageAccepted e ∨ IsMessageAssigned e ∨ IsMsgportMessageSent e

/-- The place of an event. -/
def position (e : LegacyOrmPEvent) : Nat × Int := (e.metadata.blockNumber, e.metadata.logIndex)

/-- The events of a range. -/
structure TronEvents (events : List LegacyOrmPEvent) : Prop where
  event : ∀ e ∈ events, TronEvent e
  positions : (events.map position).Nodup

theorem TronEvents.nodup {events : List LegacyOrmPEvent} (h : TronEvents events) : events.Nodup :=
  h.positions.of_map

theorem TronEvents.position_inj {events : List LegacyOrmPEvent} (h : TronEvents events)
    {e f : LegacyOrmPEvent} (he : e ∈ events) (hf : f ∈ events) (hp : position e = position f) :
    e = f :=
  List.inj_on_of_nodup_map h.positions he hf hp

theorem position_eq_of_id {e f : LegacyOrmPEvent} (he : Placed e) (hf : Placed f)
    (h : e.metadata.id = f.metadata.id) : position e = position f := by
  obtain ⟨_, i, hi, hid⟩ := he.id
  obtain ⟨_, j, hj, hid'⟩ := hf.id
  rw [hid, hid'] at h
  obtain ⟨hnumber, hindex⟩ := recoveryId_inj h
  rw [position, position, hi, hj, hnumber, hindex]

theorem position_eq_of_legacyEventLogId {e f : LegacyOrmPEvent} (he : Placed e)
    (hf : Placed f) (h : legacyEventLogId e.metadata = legacyEventLogId f.metadata) :
    position e = position f := by
  obtain ⟨_, i, hi, _⟩ := he.id
  obtain ⟨_, j, hj, _⟩ := hf.id
  obtain ⟨_, hhash⟩ := Option.isSome_iff_exists.mp he.blockHash
  obtain ⟨_, hhash'⟩ := Option.isSome_iff_exists.mp hf.blockHash
  obtain ⟨hnumber, _, hindex⟩ := (legacyEventLogId_eq_iff hhash hhash' hi hj).mp h
  rw [position, position, hi, hj, hnumber, hindex]

theorem TronEvents.id_inj {events : List LegacyOrmPEvent} (h : TronEvents events)
    {e f : LegacyOrmPEvent} (he : e ∈ events) (hf : f ∈ events)
    (hid : e.metadata.id = f.metadata.id) : e = f :=
  h.position_inj he hf (position_eq_of_id (h.event e he).toPlaced (h.event f hf).toPlaced hid)

theorem TronEvents.legacyEventLogId_inj {events : List LegacyOrmPEvent} (h : TronEvents events)
    {e f : LegacyOrmPEvent} (he : e ∈ events) (hf : f ∈ events)
    (hid : legacyEventLogId e.metadata = legacyEventLogId f.metadata) : e = f :=
  h.position_inj he hf
    (position_eq_of_legacyEventLogId (h.event e he).toPlaced (h.event f hf).toPlaced hid)

/-! ## What decoding a log yields -/

theorem normalizeHex_accepted :
    normalizeHex ORMP_MESSAGE_ACCEPTED_TOPIC = .ok ORMP_MESSAGE_ACCEPTED_TOPIC := by rfl

theorem normalizeHex_assigned :
    normalizeHex ORMP_MESSAGE_ASSIGNED_TOPIC = .ok ORMP_MESSAGE_ASSIGNED_TOPIC := by rfl

theorem normalizeHex_sent :
    normalizeHex MSGPORT_MESSAGE_SENT_TOPIC = .ok MSGPORT_MESSAGE_SENT_TOPIC := by rfl

/-- The expected topics select the three decoders. -/
theorem kind_of_decodeEvmLog {crates : Crates} {log : DatalensLog} {address topic : String}
    {e : LegacyOrmPEvent} (hexpected : expected address topic = true)
    (htopic : log.topics.head? = some topic) (h : decodeEvmLog crates log = .ok e) :
    IsMessageAccepted e ∨ IsMessageAssigned e ∨ IsMsgportMessageSent e := by
  simp only [decodeEvmLog, htopic, bind_eq_ok, contextOption_eq_ok] at h
  obtain ⟨_, hmap, topic0, rfl, metadata, _, data, _, h⟩ := h
  have hnormal : normalizeHex topic = .ok topic0 := by
    obtain ⟨t, ht, hsome⟩ := bind_eq_ok.mp hmap
    cases hsome
    exact ht
  simp only [expected, Bool.or_eq_true, Bool.and_eq_true, beq_iff_eq] at hexpected
  rcases hexpected with ⟨_, rfl | rfl⟩ | ⟨_, rfl⟩
  · cases normalizeHex_accepted.symm.trans hnormal
    exact .inl (decodeMessageAccepted_kind crates _ _ _ e h)
  · cases normalizeHex_assigned.symm.trans hnormal
    exact .inr (.inl (decodeMessageAssigned_kind crates _ _ _ e h))
  · cases normalizeHex_sent.symm.trans hnormal
    exact .inr (.inr (decodeMsgportMessageSent_kind crates _ _ _ e h))

/-- A decoded event keeps the normalized log, which keeps topics and place. -/
theorem decodeLog_eq_ok {crates : Crates} {number index : Nat} {block tx : JsonObject}
    {log : RpcLog} {e : LegacyOrmPEvent} (h : decodeLog crates number index block tx log = .ok e) :
    Placed e ∧ position e = (number, (index : Int)) ∧
      ∃ normalized, normalized.topics = log.topics ∧ decodeEvmLog crates normalized = .ok e := by
  simp only [decodeLog, bind_eq_ok] at h
  obtain ⟨_, _, _, _, normalized, hnormalized, e', hdecoded, h⟩ := h
  have hsame : e' = e := by
    split at h
    · obtain ⟨_, _, h⟩ := bind_eq_ok.mp h
      exact Except.ok.inj h
    · exact Except.ok.inj h
  subst hsame
  have hkeeps := keepsLog_of_decodeEvmLog hdecoded
  simp only [normalizeLog, bind_eq_ok] at hnormalized
  obtain ⟨_, _, _, _, _, _, _, _, _, _, hnormalized⟩ := hnormalized
  cases hnormalized
  refine ⟨⟨hkeeps.chainId, ?_, ?_⟩, ?_, _, rfl, hdecoded⟩
  · rw [hkeeps.blockHash]
    rfl
  · refine ⟨log.transactionHash, index, hkeeps.logIndex, ?_⟩
    rw [hkeeps.blockNumber]
    exact (Option.some.inj hkeeps.id).symm
  · rw [position, hkeeps.blockNumber, hkeeps.logIndex]

/-- A located log is of the range, and its topic is expected. -/
theorem locateLog_eq_ok {start stop number index : Nat} {log : RpcLog}
    (h : locateLog start stop log = .ok (number, index)) :
    hexU64 log.blockNumber = .ok number ∧ hexU64 log.logIndex = .ok index ∧
      start ≤ number ∧ number ≤ stop ∧ ∃ topic, log.topics.head? = some topic ∧
        expected (toAsciiLowercase log.address) topic = true := by
  simp only [locateLog, bind_eq_ok, contextOption_eq_ok] at h
  obtain ⟨_, hnumber, _, hrange, topic, htopic, _, hexpected, _, hindex, h⟩ := h
  cases h
  have hrange := ensure_eq_ok.mp hrange
  simp only [Bool.and_eq_true, decide_eq_true_eq] at hrange
  exact ⟨hnumber, hindex, hrange.1.1, hrange.1.2, topic, htopic, ensure_eq_ok.mp hexpected⟩

/-- The event of a located log. -/
theorem tronEvent_of_decodeLog {crates : Crates} {start stop number index : Nat}
    {block tx : JsonObject} {log : RpcLog} {e : LegacyOrmPEvent}
    (hlocated : locateLog start stop log = .ok (number, index))
    (h : decodeLog crates number index block tx log = .ok e) : TronEvent e := by
  obtain ⟨_, _, _, _, topic, htopic, hexpected⟩ := locateLog_eq_ok hlocated
  obtain ⟨hplaced, _, normalized, htopics, hdecoded⟩ := decodeLog_eq_ok h
  rw [← htopics] at htopic
  exact ⟨hplaced, kind_of_decodeEvmLog hexpected htopic hdecoded⟩

end TronRecovery

end OrmpIndexer
