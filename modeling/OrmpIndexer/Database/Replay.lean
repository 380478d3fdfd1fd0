/-
# OrmpIndexer.Database.Replay — writing a suffix of the history again changes nothing

A pass that fails after a commit, or an operator who moves a checkpoint back, makes the indexer write
events a second time. For the event rows this is harmless because the last event at a key decides and the
suffix ends as the whole list does. The assignment columns need an argument: a replayed accepted event
applies ALL stored assignments again, also those that came after it the first time.

The lanes of a message depend on the tail after its last accepted event (`lane_after_accepted`): an
assignment in the tail decides by its place in the list; without one, the stored assignments decide in the
order of the backfill query. Both are the same the second time.
-/
import OrmpIndexer.Database.Backfill

namespace OrmpIndexer

open Foundation

namespace Postgres

/-- The assigned rows of a list of events, in the order of the list. -/
def assignedRows (events : List LegacyOrmPEvent) : List OrmpMessageAssignedRow :=
  events.filterMap fun e =>
    match e with
    | .messageAssigned e => some (.fromEvent e)
    | _ => none

theorem mem_assignedRows {events : List LegacyOrmPEvent} {a : OrmpMessageAssignedRow} :
    a ∈ assignedRows events ↔ ∃ e, .messageAssigned e ∈ events ∧ a = .fromEvent e := by
  rw [assignedRows, List.mem_filterMap]
  constructor
  · rintro ⟨e, he, h⟩
    cases e with
    | messageAssigned e => exact ⟨e, he, (Option.some.inj h).symm⟩
    | _ => cases h
  · rintro ⟨e, he, rfl⟩
    exact ⟨_, he, rfl⟩

/-- The event accepts the message. -/
def accepts (msgHash : String) (e : LegacyOrmPEvent) : Bool :=
  eventKey e == (.ormpMessageAccepted, msgHash)

theorem accepts_eq_true {msgHash : String} {e : LegacyOrmPEvent} (h : accepts msgHash e = true) :
    ∃ a, e = .messageAccepted a ∧ a.msgHash = msgHash := by
  have h : eventKey e = (.ormpMessageAccepted, msgHash) := beq_iff_eq.mp h
  cases e with
  | messageAccepted a => exact ⟨a, rfl, congrArg Prod.snd h⟩
  | _ => cases congrArg Prod.fst h

variable (pg : Postgres) {Event : LegacyOrmPEvent → Prop} {db : Database}

theorem writeEvents_append (l m : List LegacyOrmPEvent) :
    pg.writeEvents db (l ++ m) = pg.writeEvents (pg.writeEvents db l) m :=
  List.foldl_append

theorem writeEvents_cons (e : LegacyOrmPEvent) (l : List LegacyOrmPEvent) :
    pg.writeEvents db (e :: l) = pg.writeEvents (pg.writeLegacyEvent db e) l := rfl

/-- Without an accepted event of the message, only the assigned events touch its row. -/
theorem get_writeEvents_tail {msgHash : String} (tail : List LegacyOrmPEvent) (db : Database)
    (h : ∀ e ∈ tail, accepts msgHash e = false) :
    (pg.writeEvents db tail).ormpMessageAccepted.get msgHash =
      (db.ormpMessageAccepted.get msgHash).map fun r => (assignedRows tail).foldl pg.assign r := by
  induction tail generalizing db with
  | nil => simp [writeEvents, assignedRows]
  | cons e tail ih =>
      rw [writeEvents_cons, ih _ fun e' he' => h e' (List.mem_cons_of_mem e he')]
      cases e with
      | messageAccepted e =>
          rw [get_writeAccepted, if_neg]
          · rfl
          · intro hid
            have := h _ List.mem_cons_self
            rw [accepts, show eventKey (.messageAccepted e) = (.ormpMessageAccepted, msgHash) from
              congrArg _ hid] at this
            simp at this
      | messageAssigned e =>
          rw [get_writeAssigned, Option.map_map]
          rfl
      | _ => rfl

/-- The lanes of a message after its last accepted event and the events that follow it. -/
theorem lane_after {e : MessageAccepted} {tail : List LegacyOrmPEvent}
    (htail : ∀ e' ∈ tail, accepts e.msgHash e' = false) {r : OrmpMessageAcceptedRow}
    (hr : (pg.writeEvents db (.messageAccepted e :: tail)).ormpMessageAccepted.get e.msgHash =
      some r) (lane : Lane) :
    r.core = .fromEvent e ∧ r.lane lane =
      (((lastWhere (pg.applies lane (.fromEvent e)) (assignedRows tail)).or
        (pg.settled db lane (.fromEvent e))).map (value lane)).getD
          (((db.ormpMessageAccepted.get e.msgHash).map (·.lane lane)).getD .null) := by
  rw [writeEvents_cons, get_writeEvents_tail pg tail _ htail, get_writeAccepted, if_pos rfl] at hr
  cases hr
  have hcore := pg.core_acceptedAfter db e
  refine ⟨(pg.core_foldl_assign _ _).trans hcore, ?_⟩
  rw [lane_foldl_assign, funext (pg.applies_congr (s := .fromEvent e) hcore lane),
    lane_acceptedAfter]
  cases lastWhere (pg.applies lane (.fromEvent e)) (assignedRows tail) <;> rfl

/-- If the lanes reflect the stored assignments, those decide. -/
theorem lane_after_accepted (hdb : pg.Backfilled Event db) (hone : OneLog Event)
    {e : MessageAccepted} (he : Event (.messageAccepted e)) {tail : List LegacyOrmPEvent}
    (htail : ∀ e' ∈ tail, accepts e.msgHash e' = false) {r : OrmpMessageAcceptedRow}
    (hr : (pg.writeEvents db (.messageAccepted e :: tail)).ormpMessageAccepted.get e.msgHash =
      some r) (lane : Lane) :
    r.lane lane =
      (((lastWhere (pg.applies lane (.fromEvent e)) (assignedRows tail)).or
        (pg.settled db lane (.fromEvent e))).map (value lane)).getD .null := by
  rw [(pg.lane_after htail hr lane).2]
  cases lastWhere (pg.applies lane (.fromEvent e)) (assignedRows tail) with
  | some a => rfl
  | none =>
      cases hs : pg.settled db lane (.fromEvent e) with
      | some a => rfl
      | none =>
          -- the row as it was reflects that nothing applies
          exact hdb.null_of_settled hone he hs

/-- The stored assignments after a list of events. -/
theorem stored_writeEvents (hone : OneLog Event) {events : List LegacyOrmPEvent}
    (hdb : pg.Backfilled Event db) (he : ∀ e ∈ events, Event e) (a : OrmpMessageAssignedRow) :
    Stored (pg.writeEvents db events) a ↔ Stored db a ∨ a ∈ assignedRows events := by
  induction events generalizing db with
  | nil => simp [writeEvents, assignedRows]
  | cons e events ih =>
      have hevent := he e List.mem_cons_self
      rw [writeEvents_cons, ih (backfilled_writeLegacyEvent hone hevent hdb)
        fun e' he' => he e' (List.mem_cons_of_mem e he')]
      cases e with
      | messageAssigned e =>
          rw [stored_writeAssigned hone hevent hdb, mem_assignedRows, mem_assignedRows]
          simp only [List.mem_cons]
          grind
      | messageAccepted e =>
          rw [Stored, get_assigned_writeLegacyEvent]
          rfl
      | _ => exact Iff.rfl

/-- Of events that only assign, the last assignment that applies decided the first time, too. -/
theorem lane_assign_again {l : List LegacyOrmPEvent} {d : Database} {msgHash : String}
    (hnone : ∀ e ∈ l, accepts msgHash e = false) {r r' : OrmpMessageAcceptedRow}
    (hr : (pg.writeEvents d l).ormpMessageAccepted.get msgHash = some r)
    (hr' : (pg.writeEvents (pg.writeEvents d l) l).ormpMessageAccepted.get msgHash = some r')
    (lane : Lane) : r'.lane lane = r.lane lane := by
  rw [get_writeEvents_tail pg l _ hnone, hr] at hr'
  rw [get_writeEvents_tail pg l _ hnone] at hr
  obtain ⟨r₀, _, rfl⟩ := Option.map_eq_some_iff.mp hr
  cases hr'
  rw [lane_foldl_assign, funext (pg.applies_congr (pg.core_foldl_assign _ _) lane),
    lane_foldl_assign]
  cases lastWhere (pg.applies lane r₀) (assignedRows l) <;> rfl

/-- The lanes are the same the second time. -/
theorem lane_replay (hone : OneLog Event) {l suf : List LegacyOrmPEvent}
    (he : ∀ e ∈ l ++ suf, Event e) {msgHash : String} {r r' : OrmpMessageAcceptedRow}
    (hr : (pg.writeEvents .empty (l ++ suf)).ormpMessageAccepted.get msgHash = some r)
    (hr' : (pg.writeEvents (pg.writeEvents .empty (l ++ suf)) suf).ormpMessageAccepted.get
      msgHash = some r') (lane : Lane) : r'.lane lane = r.lane lane := by
  have hsuf : ∀ e ∈ suf, Event e := fun e h => he e (List.mem_append_right l h)
  have hl : ∀ e ∈ l, Event e := fun e h => he e (List.mem_append_left suf h)
  have first : pg.Backfilled Event (pg.writeEvents .empty (l ++ suf)) :=
    backfilled_writeEvents hone he backfilled_empty
  cases hlast : lastWhere (accepts msgHash) suf with
  | none =>
      rw [writeEvents_append] at hr hr'
      exact pg.lane_assign_again (lastWhere_eq_none_iff.mp hlast) hr hr' lane
  | some e =>
      -- the tails after the last accepted event are the same list
      obtain ⟨head, tail, rfl, htail⟩ := exists_eq_append_of_lastWhere hlast
      obtain ⟨e, rfl, rfl⟩ := accepts_eq_true (holds_of_lastWhere hlast)
      have hevent : Event (.messageAccepted e) := hsuf _ (by simp)
      have hhead : ∀ e' ∈ head, Event e' := fun e' h => hsuf e' (List.mem_append_left _ h)
      have hlhead : ∀ e' ∈ l ++ head, Event e' := fun e' h =>
        (List.mem_append.mp h).elim (hl e') (hhead e')
      have before : pg.Backfilled Event (pg.writeEvents .empty (l ++ head)) :=
        backfilled_writeEvents hone hlhead backfilled_empty
      have before' : pg.Backfilled Event
          (pg.writeEvents (pg.writeEvents .empty (l ++ (head ++ .messageAccepted e :: tail))) head) :=
        backfilled_writeEvents hone hhead first
      rw [← List.append_assoc, writeEvents_append] at hr
      rw [writeEvents_append pg head] at hr'
      rw [pg.lane_after_accepted before hone hevent htail hr,
        pg.lane_after_accepted before' hone hevent htail hr']
      cases hdecides : lastWhere (pg.applies lane (.fromEvent e)) (assignedRows tail) with
      | some a => rfl
      | none =>
          -- the stored assignments that apply are the same, since none is in the tail
          have hnone := lastWhere_eq_none_iff.mp hdecides
          refine congrArg (fun o => ((Option.or none o).map (value lane)).getD .null) ?_
          refine pg.lastWhere_applies_congr (List.mem_singleton_self _) (List.mem_singleton_self _)
            fun a ha => ?_
          have hnot : a ∉ assignedRows tail := fun h => by
            rw [hnone a h] at ha
            cases ha
          show Stored _ a ↔ Stored _ a
          rw [pg.stored_writeEvents hone first hhead, pg.stored_writeEvents hone backfilled_empty he,
            pg.stored_writeEvents hone backfilled_empty hlhead]
          have htail' : a ∈ assignedRows (.messageAccepted e :: tail) ↔ a ∈ assignedRows tail := by
            rfl
          simp only [assignedRows, List.filterMap_append, List.mem_append] at htail' hnot ⊢
          rw [htail']
          tauto

/-- Writing batch by batch is writing all their events. -/
theorem foldl_writeEvents (batches : List (List LegacyOrmPEvent)) (db : Database) :
    batches.foldl pg.writeEvents db = pg.writeEvents db batches.flatten :=
  List.foldl_flatten.symm

/-- The event rows are the same the second time. -/
theorem eventRow_replay (l suf : List LegacyOrmPEvent) (k : LegacyTable × String) :
    (pg.writeEvents (pg.writeEvents .empty (l ++ suf)) suf).eventRow k =
      (pg.writeEvents .empty (l ++ suf)).eventRow k := by
  rw [eventRow_writeEvents, eventRow_writeEvents, lastWhere_append]
  cases lastWhere (fun e => eventKey e == k) suf <;> simp

/-- **Replay is idempotent.** Batches written in order from an empty database, and any suffix of them
written again: every table is what it was, the assignment columns included. -/
theorem replay_idempotent (pg : Postgres) (batches suffix : List (List LegacyOrmPEvent))
    (hsuffix : suffix <:+ batches)
    (hkeys : ∀ e ∈ batches.flatten, ∀ e' ∈ batches.flatten, eventKey e = eventKey e' → e = e') :
    suffix.foldl pg.writeEvents (batches.foldl pg.writeEvents .empty) =
      batches.foldl pg.writeEvents .empty := by
  obtain ⟨pre, rfl⟩ := hsuffix
  have hone : OneLog (· ∈ (pre ++ suffix).flatten) :=
    oneLog_of_keys fun e e' he he' => hkeys e he e' he'
  rw [foldl_writeEvents, foldl_writeEvents]
  rw [List.flatten_append] at hone ⊢
  have progress : ∀ l, Postgres.progress (pg.writeEvents
      (pg.writeEvents .empty l) suffix.flatten) = Postgres.progress (pg.writeEvents .empty l) :=
    fun l => pg.progress_writeEvents _ _
  refine database_ext (pg.eventRow_replay pre.flatten suffix.flatten)
    (fun id r' r hr' hr lane => pg.lane_replay hone (fun _ h => h) hr hr' lane)
    (congrArg Prod.fst (progress _)) (congrArg Prod.snd (progress _))

/-! ## One list of events, written twice -/

theorem stored_iff_eventRow {a : OrmpMessageAssignedRow} :
    Stored db a ↔ db.eventRow (.ormpMessageAssigned, a.id) = some (.ormpMessageAssigned a) := by
  refine ⟨fun h => congrArg (Option.map _) h, fun h => ?_⟩
  obtain ⟨row, hrow, hsame⟩ := Option.map_eq_some_iff.mp h
  cases hsame
  exact hrow

theorem stored_congr {d : Database} (h : d.eventRow = db.eventRow) {a : OrmpMessageAssignedRow} :
    Stored d a ↔ Stored db a := by
  rw [stored_iff_eventRow, stored_iff_eventRow, h]

theorem eq_messageAssigned_of_eventKey {e : LegacyOrmPEvent} {id : String}
    (h : eventKey e = (.ormpMessageAssigned, id)) :
    ∃ b, e = .messageAssigned b ∧ b.metadata.id = id := by
  cases e with
  | messageAssigned b => exact ⟨b, rfl, congrArg Prod.snd h⟩
  | _ => cases congrArg Prod.fst h

/-- Whether a row applies is decided by three of its columns. -/
theorem applies_congr_assigned {lane : Lane} {r : OrmpMessageAcceptedRow}
    {a b : OrmpMessageAssignedRow} (hhash : a.msgHash = b.msgHash) (horacle : a.oracle = b.oracle)
    (hrelayer : a.relayer = b.relayer) : pg.applies lane r a = pg.applies lane r b := by
  unfold applies isOracleAssignmentForAccepted
  rw [hhash, horacle, hrelayer]

section

variable {pg} {events : List LegacyOrmPEvent}
  (hkeys : ∀ e ∈ events, ∀ e' ∈ events, eventKey e = eventKey e' → e = e')

include hkeys

/-- Every event has its row. -/
theorem eventRow_written {e : LegacyOrmPEvent} (he : e ∈ events) :
    (pg.writeEvents db events).eventRow (eventKey e) = some (rowOf e) := by
  rw [eventRow_writeEvents]
  cases hlast : lastWhere (fun f => eventKey f == eventKey e) events with
  | none => exact absurd (lastWhere_eq_none_iff.mp hlast e he) (by simp)
  | some f =>
      have hkey := by simpa using holds_of_lastWhere hlast
      rw [hkeys f (mem_of_lastWhere hlast) e he hkey]
      rfl

/-- Writing some of the events again leaves every event row as it is. -/
theorem eventRow_writeEvents_again {d : Database} {l : List LegacyOrmPEvent}
    (hd : d.eventRow = (pg.writeEvents db events).eventRow) (hl : ∀ e ∈ l, e ∈ events) :
    (pg.writeEvents d l).eventRow = (pg.writeEvents db events).eventRow := by
  funext k
  rw [eventRow_writeEvents]
  cases hlast : lastWhere (fun e => eventKey e == k) l with
  | none => rw [← hd]; rfl
  | some e =>
      obtain rfl : eventKey e = k := by simpa using holds_of_lastWhere hlast
      rw [eventRow_written hkeys (hl e (mem_of_lastWhere hlast))]
      rfl

/-- The assigned rows of the events are stored. -/
theorem stored_written {d : Database} (hd : d.eventRow = (pg.writeEvents db events).eventRow)
    {a : MessageAssigned} (ha : .messageAssigned a ∈ events) : Stored d (.fromEvent a) :=
  stored_iff_eventRow.mpr ((congrFun hd _).trans (eventRow_written hkeys ha))

/-- Writing one of the events again keeps the row, and a lane for which nothing is stored that applies. -/
theorem lane_writeLegacyEvent_again {d : Database} {lane : Lane} {e : LegacyOrmPEvent}
    (hd : d.eventRow = (pg.writeEvents db events).eventRow) (he : e ∈ events) {msgHash : String}
    {r : OrmpMessageAcceptedRow} (hr : d.ormpMessageAccepted.get msgHash = some r)
    (hnone : ∀ a, Stored d a → pg.applies lane r a = false) :
    ∃ r', (pg.writeLegacyEvent d e).ormpMessageAccepted.get msgHash = some r' ∧
      r'.core = r.core ∧ r'.lane lane = r.lane lane := by
  cases e with
  | messageAccepted e =>
      rw [get_writeAccepted]
      split
      · rename_i hhash
        subst hhash
        have hcore : r.core = .fromEvent e := by
          have hrow := (congrFun hd _).trans (eventRow_written hkeys he)
          have hold : d.eventRow (.ormpMessageAccepted, e.msgHash) =
              some (.ormpMessageAccepted r.core) := congrArg (Option.map _) hr
          exact LegacyRow.ormpMessageAccepted.inj (Option.some.inj (hold.symm.trans hrow))
        have hsettled : pg.settled d lane (.fromEvent e) = none := by
          refine pg.settled_eq_none_iff.mpr fun a ha => ?_
          rw [← pg.applies_congr (r := r) (s := .fromEvent e) hcore]
          exact hnone a ha
        refine ⟨_, rfl, (pg.core_acceptedAfter d e).trans hcore.symm, ?_⟩
        rw [lane_acceptedAfter, hsettled, hr]
        rfl
      · exact ⟨r, hr, rfl, rfl⟩
  | messageAssigned a =>
      refine ⟨pg.assign r (.fromEvent a), ?_, pg.core_assign r _, ?_⟩
      · rw [get_writeAssigned, hr]
        rfl
      · rw [lane_assign, hnone _ (stored_written hkeys hd he)]
        rfl
  | _ => exact ⟨r, hr, rfl, rfl⟩

/-- A lane for which nothing is stored that applies stays as it is. -/
theorem lane_writeEvents_again {d : Database} {l : List LegacyOrmPEvent} {lane : Lane}
    (hd : d.eventRow = (pg.writeEvents db events).eventRow) (hl : ∀ e ∈ l, e ∈ events)
    {msgHash : String} {r : OrmpMessageAcceptedRow}
    (hr : d.ormpMessageAccepted.get msgHash = some r)
    (hnone : ∀ a, Stored d a → pg.applies lane r a = false) :
    ∃ r', (pg.writeEvents d l).ormpMessageAccepted.get msgHash = some r' ∧ r'.lane lane = r.lane lane := by
  induction l generalizing d r with
  | nil => exact ⟨r, hr, rfl⟩
  | cons e l ih =>
      have he := hl e List.mem_cons_self
      have hl := fun e' he' => hl e' (List.mem_cons_of_mem e he')
      have hstep : (pg.writeLegacyEvent d e).eventRow = (pg.writeEvents db events).eventRow :=
        eventRow_writeEvents_again (l := [e]) hkeys hd (by simpa using he)
      obtain ⟨r₁, hr₁, hcore, hlane⟩ := lane_writeLegacyEvent_again hkeys hd he hr hnone
      have hnone' : ∀ a, Stored (pg.writeLegacyEvent d e) a → pg.applies lane r₁ a = false := by
        intro a ha
        rw [pg.applies_congr hcore]
        exact hnone a ((stored_congr (hstep.trans hd.symm)).mp ha)
      obtain ⟨r', hr', hlane'⟩ := ih hstep hl hr₁ hnone'
      exact ⟨r', hr', hlane'.trans hlane⟩

/-- A row that is there is written over by a row that applies where it does. -/
def WritesOver (db : Database) (events : List LegacyOrmPEvent) : Prop :=
  ∀ a, .messageAssigned a ∈ events → ∀ row, db.ormpMessageAssigned.get a.metadata.id = some row →
    row.msgHash = a.msgHash ∧ row.oracle = a.oracle ∧ row.relayer = a.relayer

/-- Without an applying assignment in the tail, the same stored assignments apply before it and at the end. -/
theorem stored_twice {e : MessageAccepted} {head tail : List LegacyOrmPEvent} {lane : Lane}
    (hevents : events = head ++ .messageAccepted e :: tail) (hover : WritesOver db events)
    (hnone : lastWhere (pg.applies lane (.fromEvent e)) (assignedRows tail) = none)
    {a : OrmpMessageAssignedRow} (ha : pg.applies lane (.fromEvent e) a = true) :
    Stored (pg.writeEvents db events) a ↔ Stored (pg.writeEvents db head) a := by
  have hrows : (pg.writeEvents db events).eventRow (.ormpMessageAssigned, a.id) =
      ((lastWhere (fun f => eventKey f == (.ormpMessageAssigned, a.id))
        (.messageAccepted e :: tail)).map rowOf).or
          ((pg.writeEvents db head).eventRow (.ormpMessageAssigned, a.id)) := by
    rw [hevents, writeEvents_append, eventRow_writeEvents]
  rw [stored_iff_eventRow, stored_iff_eventRow, hrows]
  cases hlast : lastWhere (fun f => eventKey f == (.ormpMessageAssigned, a.id))
      (.messageAccepted e :: tail) with
  | none => rfl
  | some f =>
      have hkey : eventKey f = (.ormpMessageAssigned, a.id) := by
        simpa using holds_of_lastWhere hlast
      obtain ⟨b, rfl, hid⟩ := eq_messageAssigned_of_eventKey hkey
      have hmem := mem_of_lastWhere hlast
      have hb : .messageAssigned b ∈ tail := by simpa using hmem
      have hbevents : .messageAssigned b ∈ events := by
        rw [hevents]
        exact List.mem_append_right _ hmem
      -- what is written there in the tail does not apply
      have hfalse : pg.applies lane (.fromEvent e) (.fromEvent b) = false :=
        lastWhere_eq_none_iff.mp hnone _ (mem_assignedRows.mpr ⟨b, hb, rfl⟩)
      constructor
      · intro hrow
        cases Option.some.inj hrow
        rw [hfalse] at ha
        cases ha
      · -- and neither does what was there
        intro hrow
        rw [← hid] at hrow
        rcases pg.eventRow_writeEvents_eq_some hrow with ⟨g, hg, hgkey, hgrow⟩ | hold
        · have hgevents : g ∈ events := by
            rw [hevents]
            exact List.mem_append_left _ hg
          obtain rfl := hkeys g hgevents _ hbevents hgkey
          cases hgrow
          rw [hfalse] at ha
          cases ha
        · obtain ⟨row, hget, hsame⟩ := Option.map_eq_some_iff.mp hold
          cases hsame
          obtain ⟨hhash, horacle, hrelayer⟩ := hover b hbevents _ hget
          rw [pg.applies_congr_assigned (b := .fromEvent b) hhash horacle hrelayer, hfalse] at ha
          cases ha

/-- The lanes are the same the second time. -/
theorem lane_twice (hover : WritesOver db events) {msgHash : String} {r r' : OrmpMessageAcceptedRow}
    (hr : (pg.writeEvents db events).ormpMessageAccepted.get msgHash = some r)
    (hr' : (pg.writeEvents (pg.writeEvents db events) events).ormpMessageAccepted.get msgHash =
      some r') (lane : Lane) : r'.lane lane = r.lane lane := by
  cases hlast : lastWhere (accepts msgHash) events with
  | none => exact pg.lane_assign_again (lastWhere_eq_none_iff.mp hlast) hr hr' lane
  | some e =>
      obtain ⟨head, tail, rfl, htail⟩ := exists_eq_append_of_lastWhere hlast
      obtain ⟨e, rfl, rfl⟩ := accepts_eq_true (holds_of_lastWhere hlast)
      have hhead : ∀ f ∈ head, f ∈ head ++ .messageAccepted e :: tail :=
        fun f hf => List.mem_append_left _ hf
      have hagain : (pg.writeEvents (pg.writeEvents db (head ++ .messageAccepted e :: tail))
          head).eventRow = (pg.writeEvents db (head ++ .messageAccepted e :: tail)).eventRow :=
        eventRow_writeEvents_again hkeys rfl hhead
      have hfirst := hr
      rw [writeEvents_append] at hfirst
      rw [writeEvents_append pg head] at hr'
      obtain ⟨hcore, hlane⟩ := pg.lane_after htail hfirst lane
      rw [(pg.lane_after htail hr' lane).2, hlane]
      cases hdecides : lastWhere (pg.applies lane (.fromEvent e)) (assignedRows tail) with
      | some a => rfl
      | none =>
          have hstored := fun a => stored_twice hkeys rfl hover hdecides (a := a)
          have hsame : pg.settled (pg.writeEvents (pg.writeEvents db
              (head ++ .messageAccepted e :: tail)) head) lane (.fromEvent e) =
                pg.settled (pg.writeEvents db head) lane (.fromEvent e) := by
            refine pg.lastWhere_applies_congr (List.mem_singleton_self _) (List.mem_singleton_self _)
              fun a ha => (stored_congr hagain).trans (hstored a ha)
          rw [hsame]
          cases hsettled : pg.settled (pg.writeEvents db head) lane (.fromEvent e) with
          | some a => rfl
          | none =>
              -- nothing that is stored applies, and the second time the lane is not written at all
              have happlies : ∀ a, Stored (pg.writeEvents db (head ++ .messageAccepted e :: tail)) a →
                  pg.applies lane r a = false := by
                intro a ha
                by_contra htrue
                rw [Bool.not_eq_false, pg.applies_congr (s := .fromEvent e) hcore] at htrue
                have := pg.settled_eq_none_iff.mp hsettled a ((hstored a htrue).mp ha)
                rw [htrue] at this
                cases this
              obtain ⟨r₂, hr₂, hlane₂⟩ := lane_writeEvents_again hkeys rfl hhead hr happlies
              rw [hr₂]
              show r₂.lane lane = _
              rw [hlane₂, hlane, hdecides, hsettled]

/-- **A list of events written twice.** -/
theorem writeEvents_twice (hover : WritesOver db events) :
    pg.writeEvents (pg.writeEvents db events) events = pg.writeEvents db events := by
  have hprogress := pg.progress_writeEvents (pg.writeEvents db events) events
  exact database_ext
    (congrFun (eventRow_writeEvents_again hkeys rfl fun _ h => h))
    (fun id r' r hr' hr lane => lane_twice hkeys hover hr hr' lane)
    (congrArg Prod.fst hprogress) (congrArg Prod.snd hprogress)

end

/-- The first assignment arrives before the message is accepted, the second one after. -/
def acceptedBetweenAssignments : List (List LegacyOrmPEvent) :=
  [[assignedEvent 46 4 1 "0xaa" "0x8d8a2bd991c1d900c59a82a2eeb0df44e0671aab" 7],
    [acceptedEvent 46 5 "0xaa"],
    [assignedEvent 46 9 1 "0xaa" "0x2cdc7178013de451ed99607ac15def6bab8c37e6" 8]]

/-- Replaying the last two batches, the accepted event among them. -/
theorem replay_idempotent_acceptedBetween :
    (acceptedBetweenAssignments.drop 1).foldl legacyStore.writeEvents
        (acceptedBetweenAssignments.foldl legacyStore.writeEvents .empty) =
      acceptedBetweenAssignments.foldl legacyStore.writeEvents .empty :=
  replay_idempotent legacyStore acceptedBetweenAssignments _ (List.drop_suffix 1 _)
    (by decide +kernel)

end Postgres

end OrmpIndexer
