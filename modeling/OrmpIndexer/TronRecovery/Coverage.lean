/-
# OrmpIndexer.TronRecovery.Coverage — what a commit adds to the stored part of the chain

The events of a range are those of all its logs (`RangeEvents`). A commit stores them, except that of two
accepted events with one message hash and different messages only one has a row (`Contested`): each of
them is compared with the database before the other is written. What was stored before stays
(`Kept.committed`), because a row that is written over is about the same event.

For assignments this needs that a row under the recovery's own id of an event is a row of that event
(`OwnIds`). Commits keep that.
-/
import OrmpIndexer.TronRecovery.Rows

namespace OrmpIndexer

open Foundation

namespace TronRecovery

variable (crates : Crates) (chain : Chain)

/-- The events of all logs of a range. -/
structure RangeEvents (start next : Nat) (events : List LegacyOrmPEvent) : Prop where
  tron : TronEvents events
  sound : ∀ e ∈ events, ∃ n, start ≤ n ∧ n < next ∧ ∃ log ∈ chain.logs n,
    chainEvent crates chain log = .ok e
  complete : ∀ n, start ≤ n → n < next → ∀ log ∈ chain.logs n, ∃ e ∈ events,
    chainEvent crates chain log = .ok e

/-- A row under the recovery's own id of an assignment of the chain is about that assignment. -/
def OwnIds (locale : Locale) (db : Database) : Prop :=
  ∀ n, ∀ log ∈ chain.logs n, ∀ a, chainEvent crates chain log = .ok (.messageAssigned a) →
    ∀ r, db.eventRow (.ormpMessageAssigned, a.metadata.id) = some r →
      r.message locale = messageOf locale (.messageAssigned a)

/-- There is a row about the event, for a sent event under its own id. -/
def Kept (locale : Locale) (db : Database) (e : LegacyOrmPEvent) : Prop :=
  ∃ k ∈ RowsAbout locale db e, IsMsgportMessageSent e → k = eventKey e

/-- Another accepted event of these blocks has the same message hash and another message. -/
def Contested (locale : Locale) (first next : Nat) (e : LegacyOrmPEvent) : Prop :=
  ∃ a b, e = .messageAccepted a ∧ b.msgHash = a.msgHash ∧
    messageOf locale (.messageAccepted b) ≠ messageOf locale (.messageAccepted a) ∧
    ∃ n, first ≤ n ∧ n < next ∧ ∃ log ∈ chain.logs n,
      chainEvent crates chain log = .ok (.messageAccepted b)

/-- Every event of the blocks has a row, or is contested. -/
def Covered (locale : Locale) (db : Database) (first next : Nat) : Prop :=
  ∀ n, first ≤ n → n < next → ∀ log ∈ chain.logs n, ∃ e, chainEvent crates chain log = .ok e ∧
    (Kept locale db e ∨ Contested crates chain locale first next e)

variable {crates chain}

/-- What is related to a list member by member. -/
theorem exists_mem_of_forall₂ {α β : Type} {r : α → β → Prop} {l : List α} {m : List β}
    (h : List.Forall₂ r l m) : ∀ a ∈ l, ∃ b ∈ m, r a b := by
  induction h with
  | nil => simp
  | cons hr _ ih =>
      intro a ha
      rcases List.mem_cons.mp ha with rfl | ha
      · exact ⟨_, List.mem_cons_self, hr⟩
      · obtain ⟨b, hb, hrb⟩ := ih a ha
        exact ⟨b, List.mem_cons_of_mem _ hb, hrb⟩

/-- An event of a block is placed in that block. -/
theorem placed_of_chainEvent {n : Nat} {log : RpcLog} {e : LegacyOrmPEvent}
    (hlog : log ∈ chain.logs n) (h : chainEvent crates chain log = .ok e) :
    Placed e ∧ e.metadata.blockNumber = n := by
  simp only [chainEvent, chain.number n log hlog, bind_eq_ok] at h
  obtain ⟨_, hnumber, index, _, h⟩ := h
  cases hnumber
  obtain ⟨hplaced, hposition, _⟩ := decodeLog_eq_ok h
  exact ⟨hplaced, (Prod.mk.inj hposition).1⟩

theorem chainEvent_of_decodedFrom {start stop : Nat} {log : RpcLog} {e : LegacyOrmPEvent}
    (h : DecodedFrom crates (fun n block => block = chain.block n)
      (fun hash tx => tx = chain.transaction hash) start stop log e) :
    chainEvent crates chain log = .ok e ∧ TronEvent e ∧
      start ≤ e.metadata.blockNumber ∧ e.metadata.blockNumber ≤ stop := by
  obtain ⟨number, index, _, _, hlocated, rfl, rfl, h⟩ := h
  obtain ⟨hnumber, hindex, hstart, hstop, _⟩ := locateLog_eq_ok hlocated
  have hblock : e.metadata.blockNumber = number :=
    (Prod.mk.inj (decodeLog_eq_ok h).2.1).1
  refine ⟨?_, tronEvent_of_decodeLog hlocated h, by omega, by omega⟩
  rw [chainEvent, hnumber, hindex]
  exact h

/-- The events decoded from all logs of a range. -/
theorem rangeEvents_of_forall₂ {start stop : Nat} {logs : List RpcLog}
    {events : List LegacyOrmPEvent} (honly : ∀ log ∈ logs, ∃ n, log ∈ chain.logs n)
    (hall : ∀ n, start ≤ n → n ≤ stop → ∀ log ∈ chain.logs n, log ∈ logs)
    (hdecoded : List.Forall₂ (DecodedFrom crates (fun n block => block = chain.block n)
      (fun hash tx => tx = chain.transaction hash) start stop) (sortLogs logs) events)
    (hpositions : (events.map position).Nodup) :
    RangeEvents crates chain start (stop + 1) events := by
  have hmem : ∀ log, log ∈ sortLogs logs ↔ log ∈ logs := fun log => List.mem_insertionSort _
  have hof : ∀ e ∈ events, ∃ log ∈ logs, DecodedFrom crates (fun n block => block = chain.block n)
      (fun hash tx => tx = chain.transaction hash) start stop log e := by
    intro e he
    obtain ⟨log, hlog, h⟩ := exists_mem_of_forall₂ hdecoded.flip e he
    exact ⟨log, (hmem log).mp hlog, h⟩
  refine ⟨⟨fun e he => ?_, hpositions⟩, fun e he => ?_, fun n hn hnext log hlog => ?_⟩
  · obtain ⟨log, _, h⟩ := hof e he
    exact (chainEvent_of_decodedFrom h).2.1
  · obtain ⟨log, hlog, h⟩ := hof e he
    obtain ⟨hchain, _, hstart, hstop⟩ := chainEvent_of_decodedFrom h
    obtain ⟨n, hn⟩ := honly log hlog
    have hblock := (placed_of_chainEvent hn hchain).2
    exact ⟨n, by omega, by omega, log, hn, hchain⟩
  · obtain ⟨e, he, h⟩ := exists_mem_of_forall₂ hdecoded log
      ((hmem log).mpr (hall n hn (by omega) log hlog))
    exact ⟨e, he, (chainEvent_of_decodedFrom h).1⟩

section

variable {postgres : Postgres} {db : Database} {cursor next : Nat} {events : List LegacyOrmPEvent}
  (hevents : RangeEvents crates chain cursor next events)
  (hok : ∀ f ∈ events, RecoveryStore.adjust postgres.locale db f =
    .ok (adjusted postgres.locale db f))

include hevents

/-- An event of the chain at the place of an event of the range is that event. -/
theorem RangeEvents.eq_of_position {n : Nat} {log : RpcLog} {e f : LegacyOrmPEvent}
    (hlog : log ∈ chain.logs n) (he : chainEvent crates chain log = .ok e) (hf : f ∈ events)
    (hposition : position e = position f) : e = f := by
  obtain ⟨m, hstart, hnext, log', hlog', hf'⟩ := hevents.sound f hf
  have hn := (placed_of_chainEvent hlog he).2
  have hm := (placed_of_chainEvent hlog' hf').2
  have hblock : n = m := by rw [← hn, ← hm]; exact (Prod.mk.inj hposition).1
  subst hblock
  obtain ⟨e', hmem, he'⟩ := hevents.complete n hstart hnext log hlog
  rw [he] at he'
  cases he'
  exact hevents.tron.position_inj hmem hf hposition

include hok

/-- What is written under the own id of an assignment of the chain is about that assignment. -/
theorem RangeEvents.messageOf_of_place {n : Nat} {log : RpcLog} {a : MessageAssigned}
    {f : LegacyOrmPEvent} (hids : OwnIds crates chain postgres.locale db)
    (hlog : log ∈ chain.logs n) (ha : chainEvent crates chain log = .ok (.messageAssigned a))
    (hf : f ∈ events)
    (hplace : place postgres.locale db f = (.ormpMessageAssigned, a.metadata.id)) :
    messageOf postgres.locale f = messageOf postgres.locale (.messageAssigned a) := by
  have htable := fst_place postgres.locale db f
  rw [hplace] at htable
  rcases (hevents.tron.event f hf).kind with ⟨b, rfl⟩ | ⟨b, rfl⟩ | ⟨b, rfl⟩ <;> try cases htable
  rcases place_messageAssigned (hevents.tron.event _ hf).chainId (hok _ hf) with ⟨_, hown⟩ | hrow
  · -- it is stored under its own id
    have hid : a.metadata.id = b.metadata.id := (Prod.mk.inj (hplace.symm.trans hown)).2
    have hposition := position_eq_of_id (placed_of_chainEvent hlog ha).1
      (hevents.tron.event _ hf).toPlaced hid
    rw [hevents.eq_of_position hlog ha hf hposition]
  · -- it is stored over a row, which is about both
    have hmem : (.ormpMessageAssigned, a.metadata.id) ∈
        RowsAbout postgres.locale db (.messageAssigned b) := by
      rw [hrow, ← hplace]
      exact Set.mem_singleton _
    obtain ⟨r, hr, hmessage⟩ := hmem
    rw [← hmessage]
    exact hids n log hlog a ha r hr

/-- A commit keeps the own ids. -/
theorem OwnIds.committed (hids : OwnIds crates chain postgres.locale db) :
    OwnIds crates chain postgres.locale (committed postgres db events next) := by
  intro n log hlog a ha r hr
  rw [eventRow_committed] at hr
  cases hlast : lastWhere (fun f => place postgres.locale db f ==
      (.ormpMessageAssigned, a.metadata.id)) events with
  | none =>
      rw [hlast] at hr
      exact hids n log hlog a ha r hr
  | some f =>
      rw [hlast] at hr
      cases hr
      have hplace := by simpa using holds_of_lastWhere hlast
      rw [← hevents.messageOf_of_place hok hids hlog ha (mem_of_lastWhere hlast) hplace]
      exact messageOf_adjusted db f

/-- What is written over a row about an event is about the same event. A sent event must have its own id, in a
block before the range. -/
theorem RangeEvents.messageOf_of_old (hids : OwnIds crates chain postgres.locale db)
    {e f : LegacyOrmPEvent} {k : LegacyTable × String} (hk : k ∈ RowsAbout postgres.locale db e)
    (hsent : IsMsgportMessageSent e →
      k = eventKey e ∧ Placed e ∧ e.metadata.blockNumber < cursor)
    (hf : f ∈ events) (hplace : place postgres.locale db f = k) :
    messageOf postgres.locale f = messageOf postgres.locale e := by
  obtain ⟨m, hstart, _, log, hlog, hchain⟩ := hevents.sound f hf
  have htable := fst_place postgres.locale db f
  rw [hplace] at htable
  obtain ⟨r, hr, hmessage⟩ := hk
  rcases (hevents.tron.event f hf).kind with ⟨b, rfl⟩ | ⟨b, rfl⟩ | ⟨b, rfl⟩
  · have hfree := (adjust_messageAccepted (hok _ hf)).1
    rw [← hplace, place_messageAccepted (hok _ hf)] at hr
    rw [← messageOf_of_conflicts hfree hr, hmessage]
  · rcases place_messageAssigned (hevents.tron.event _ hf).chainId (hok _ hf) with ⟨_, hown⟩ | hrow
    · rw [← hplace, hown] at hr
      rw [← hids m log hlog b hchain r hr, hmessage]
    · have hmem : k ∈ RowsAbout postgres.locale db (.messageAssigned b) := by
        rw [hrow, hplace]
        exact Set.mem_singleton k
      exact messageOf_eq_of_mem hmem ⟨r, hr, hmessage⟩
  · -- the own ids of two sent events in different blocks are different
    have hkind : IsMsgportMessageSent e := by
      have := fst_of_mem_rowsAbout ⟨r, hr, hmessage⟩
      rw [htable] at this
      cases e <;> first | exact ⟨_, rfl⟩ | cases this
    obtain ⟨rfl, hplaced, hbefore⟩ := hsent hkind
    obtain ⟨m', rfl⟩ := hkind
    have hid : legacyEventLogId b.metadata = legacyEventLogId m'.metadata := (Prod.mk.inj hplace).2
    have hposition := position_eq_of_legacyEventLogId (e := .msgportMessageSent b)
      (f := .msgportMessageSent m') (hevents.tron.event _ hf).toPlaced hplaced hid
    have hblock := (Prod.mk.inj hposition).1
    rw [(placed_of_chainEvent hlog hchain).2] at hblock
    omega

/-- What was stored stays stored. -/
theorem Kept.committed (hids : OwnIds crates chain postgres.locale db) {e : LegacyOrmPEvent}
    (hplaced : Placed e) (hbefore : e.metadata.blockNumber < cursor)
    (h : Kept postgres.locale db e) :
    Kept postgres.locale (committed postgres db events next) e := by
  obtain ⟨k, hk, hsent⟩ := h
  refine ⟨k, mem_rowsAbout_commit (fun f hf hplace => ?_) (.inr hk), hsent⟩
  exact hevents.messageOf_of_old hok hids hk (fun h => ⟨hsent h, hplaced, hbefore⟩) hf hplace

/-- Two events of the range that are stored at one place are about one message, or are accepted events with
one message hash. -/
theorem RangeEvents.messageOf_of_place_eq (hids : OwnIds crates chain postgres.locale db)
    {e f : LegacyOrmPEvent} (he : e ∈ events) (hf : f ∈ events)
    (hplace : place postgres.locale db f = place postgres.locale db e)
    (haccepted : ∀ a b, e = .messageAccepted a → f = .messageAccepted b → b.msgHash = a.msgHash →
      messageOf postgres.locale f = messageOf postgres.locale e) :
    messageOf postgres.locale f = messageOf postgres.locale e := by
  have htable : (rowOf e).table = (rowOf f).table := by
    rw [← fst_place postgres.locale db e, ← hplace, fst_place]
  rcases (hevents.tron.event e he).kind with ⟨a, rfl⟩ | ⟨a, rfl⟩ | ⟨a, rfl⟩ <;>
    rcases (hevents.tron.event f hf).kind with ⟨b, rfl⟩ | ⟨b, rfl⟩ | ⟨b, rfl⟩ <;>
    try cases htable
  · refine haccepted a b rfl rfl ?_
    rw [place_messageAccepted (hok _ he), place_messageAccepted (hok _ hf)] at hplace
    exact (Prod.mk.inj hplace).2
  · obtain ⟨n, _, _, log, hlog, hchain⟩ := hevents.sound _ he
    rcases place_messageAssigned (hevents.tron.event _ he).chainId (hok _ he) with ⟨_, hown⟩ | hrow
    · exact hevents.messageOf_of_place hok hids hlog hchain hf (hplace.trans hown)
    · refine hevents.messageOf_of_old hok hids ?_ (fun ⟨m, hm⟩ => nomatch hm) hf hplace
      rw [hrow]
      exact Set.mem_singleton _
  · rw [place_inj_of_sent hevents.tron hf he ⟨b, rfl⟩ hplace]

/-- **A commit covers its range.** -/
theorem Covered.committed (hids : OwnIds crates chain postgres.locale db) {first : Nat}
    (hfirst : first ≤ cursor) (hcursor : cursor ≤ next)
    (h : Covered crates chain postgres.locale db first cursor) :
    Covered crates chain postgres.locale (committed postgres db events next) first next := by
  intro n hn hnext log hlog
  by_cases hbefore : n < cursor
  · obtain ⟨e, he, hkept⟩ := h n hn hbefore log hlog
    obtain ⟨hplaced, hblock⟩ := placed_of_chainEvent hlog he
    refine ⟨e, he, ?_⟩
    rcases hkept with hkept | ⟨a, b, rfl, hhash, hmessage, m, hm, hmcursor, hother⟩
    · exact .inl (hkept.committed hevents hok hids hplaced (by omega))
    · exact .inr ⟨a, b, rfl, hhash, hmessage, m, hm, by omega, hother⟩
  · obtain ⟨e, hmem, he⟩ := hevents.complete n (by omega) hnext log hlog
    refine ⟨e, he, ?_⟩
    by_cases hcontested : ∃ a b, e = .messageAccepted a ∧ .messageAccepted b ∈ events ∧
        b.msgHash = a.msgHash ∧ messageOf postgres.locale (.messageAccepted b) ≠
          messageOf postgres.locale (.messageAccepted a)
    · obtain ⟨a, b, rfl, hb, hhash, hmessage⟩ := hcontested
      obtain ⟨m, hstart, hm, hlog'⟩ := hevents.sound _ hb
      exact .inr ⟨a, b, rfl, hhash, hmessage, m, by omega, hm, hlog'⟩
    · refine .inl ⟨place postgres.locale db e, mem_rowsAbout_commit (fun f hf hplace => ?_)
        (.inl ⟨e, hmem, rfl⟩), fun ⟨m, hm⟩ => by rw [hm]; rfl⟩
      refine hevents.messageOf_of_place_eq hok hids hmem hf hplace fun a b ha hb hhash => ?_
      by_contra hmessage
      subst ha hb
      exact hcontested ⟨a, b, rfl, hf, hhash, hmessage⟩

end

end TronRecovery

end OrmpIndexer
