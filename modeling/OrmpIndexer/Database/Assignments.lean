/-
# OrmpIndexer.Database.Assignments — the six assignment columns

The oracle columns and the relayer columns of an accepted row behave alike, so they are two `Lane`s: a
rule that says whether an assigned row counts for an accepted row (`applies`), the three values it
writes (`value`), and the three columns (`lane`). On a lane every statement of the store is an
overwriting update, and a backfill leaves what the LAST applying row of its list writes
(`lane_foldl_assign`).

Writing an accepted row applies all stored assignments of the message, in the order of the numerals of the
blocks and then of the ids, both compared as texts; writing an assigned row applies that row. The two lemmas `lane_writeAccepted` and
`lane_writeAssigned` are all that later modules need of the SQL.
-/
import OrmpIndexer.Database.Rows

namespace OrmpIndexer

open Foundation

/-! ## Lanes -/

/-- The two groups of assignment columns. -/
inductive Lane where
  | oracle
  | relayer
deriving DecidableEq, Repr

/-- The three columns of a lane: who was assigned, that someone was, and the fee. -/
structure LaneColumns where
  address : Option String
  assigned : Option Bool
  fee : Option Nat
deriving DecidableEq, Repr

def LaneColumns.null : LaneColumns := ⟨none, none, none⟩

def OrmpMessageAcceptedRow.lane (r : OrmpMessageAcceptedRow) : Lane → LaneColumns
  | .oracle => ⟨r.oracle, r.oracleAssigned, r.oracleAssignedFee⟩
  | .relayer => ⟨r.relayer, r.relayerAssigned, r.relayerAssignedFee⟩

@[simp]
theorem lane_core (r : OrmpMessageAcceptedRow) (lane : Lane) : r.core.lane lane = .null := by
  cases lane <;> rfl

/-- An accepted row is its core and its lanes. -/
theorem accepted_ext {r s : OrmpMessageAcceptedRow} (hcore : r.core = s.core)
    (hlane : ∀ lane, r.lane lane = s.lane lane) : r = s := by
  have horacle := hlane .oracle
  have hrelayer := hlane .relayer
  cases r
  cases s
  simp_all [OrmpMessageAcceptedRow.core, OrmpMessageAcceptedRow.lane]

/-- A database is its event rows, the lanes of its accepted rows, its anchors and its checkpoints. -/
theorem database_ext {db db' : Database} (hrow : ∀ k, db.eventRow k = db'.eventRow k)
    (hlane : ∀ id r r', db.ormpMessageAccepted.get id = some r →
      db'.ormpMessageAccepted.get id = some r' → ∀ lane, r.lane lane = r'.lane lane)
    (hanchor : db.blockAnchor = db'.blockAnchor) (hcheckpoint : db.checkpoint = db'.checkpoint) :
    db = db' := by
  have table : ∀ {ρ : Type} [Keyed ρ String] {t t' : Table ρ} {f : ρ → LegacyRow},
      (∀ id, (t.get id).map f = (t'.get id).map f) → Function.Injective f → t = t' :=
    fun h hf => Table.ext fun id => Option.map_injective hf (h id)
  have accepted : db.ormpMessageAccepted = db'.ormpMessageAccepted := by
    apply Table.ext
    intro id
    have h := hrow (.ormpMessageAccepted, id)
    simp only [Database.eventRow] at h
    cases hr : db.ormpMessageAccepted.get id with
    | none =>
        rw [hr] at h
        exact (Option.map_eq_none_iff.mp h.symm).symm
    | some r =>
        rw [hr] at h
        obtain ⟨r', hr', hcore⟩ := Option.map_eq_some_iff.mp h.symm
        rw [hr', accepted_ext (LegacyRow.ormpMessageAccepted.inj hcore).symm (hlane id r r' hr hr')]
  have h₁ := table (fun id => hrow (.ormpHashImported, id)) fun _ _ h => by cases h; rfl
  have h₂ := table (fun id => hrow (.ormpMessageAssigned, id)) fun _ _ h => by cases h; rfl
  have h₃ := table (fun id => hrow (.ormpMessageDispatched, id)) fun _ _ h => by cases h; rfl
  have h₄ := table (fun id => hrow (.msgportMessageRecv, id)) fun _ _ h => by cases h; rfl
  have h₅ := table (fun id => hrow (.msgportMessageSent, id)) fun _ _ h => by cases h; rfl
  have h₆ := table (fun id => hrow (.signaturePubSignatureSubmittion, id))
    fun _ _ h => by cases h; rfl
  cases db
  cases db'
  simp_all

namespace Postgres

variable (self : Postgres)

/-- The assigned row counts for the accepted row on this lane. -/
def applies (lane : Lane) (r : OrmpMessageAcceptedRow) (a : OrmpMessageAssignedRow) : Bool :=
  r.id == a.msgHash &&
    match lane with
    | .oracle => isOracleAssignmentForAccepted r a self.assignmentConfig
    | .relayer => OrmpIndexer.containsAddress self.assignmentConfig.relayerAddresses a.relayer

/-- What an assigned row writes on a lane. -/
def value (lane : Lane) (a : OrmpMessageAssignedRow) : LaneColumns :=
  match lane with
  | .oracle => ⟨some (acceptedOracleValue a.msgHash a.oracle), some true, some a.oracleFee⟩
  | .relayer => ⟨some a.relayer, some true, some a.relayerFee⟩

/-- Whether a row applies does not depend on the assignment columns. -/
theorem applies_congr {r s : OrmpMessageAcceptedRow} (h : r.core = s.core) (lane : Lane)
    (a : OrmpMessageAssignedRow) : self.applies lane r a = self.applies lane s a := by
  have core : ∀ r : OrmpMessageAcceptedRow, self.applies lane r a = self.applies lane r.core a :=
    fun r => by cases lane <;> rfl
  rw [core r, core s, h]

theorem applies_msgHash {lane : Lane} {r : OrmpMessageAcceptedRow} {a : OrmpMessageAssignedRow}
    (h : self.applies lane r a = true) : a.msgHash = r.id := by
  unfold applies at h
  exact (beq_iff_eq.mp (Bool.and_eq_true_iff.mp h).1).symm

/-! ## The backfill statement -/

/-- Both spellings of `contains_address` accept the same addresses. -/
theorem containsAddress_eq (addresses : List String) (candidate : String) :
    containsAddress addresses candidate = OrmpIndexer.containsAddress addresses candidate := by
  simp [containsAddress, OrmpIndexer.containsAddress, eqIgnoreAsciiCase_toAsciiLowercase]

/-- The CASE of the statement is the rule of `schema/assignments.rs`, spelled out in SQL. -/
theorem oracleCase_eq (r : OrmpMessageAcceptedRow) (a : OrmpMessageAssignedRow) :
    oracleCase
        (containsAddress self.assignmentConfig.oracleAddresses a.oracle &&
          !eqIgnoreAsciiCase a.oracle LEGACY_B49E_ORACLE)
        (eqIgnoreAsciiCase a.oracle LEGACY_B49E_ORACLE) r =
      isOracleAssignmentForAccepted r a self.assignmentConfig := by
  rw [isOracleAssignmentForAccepted, ← containsAddress_eq]
  rfl

/-- What the backfill statement does to an accepted row. -/
def assign (r : OrmpMessageAcceptedRow) (a : OrmpMessageAssignedRow) : OrmpMessageAcceptedRow :=
  if r.id == a.msgHash then
    setAssignment a
      (containsAddress self.assignmentConfig.oracleAddresses a.oracle &&
        !eqIgnoreAsciiCase a.oracle LEGACY_B49E_ORACLE)
      (eqIgnoreAsciiCase a.oracle LEGACY_B49E_ORACLE)
      (containsAddress self.assignmentConfig.relayerAddresses a.relayer)
      (acceptedOracleValue a.msgHash a.oracle) r
  else r

@[simp]
theorem core_assign (r : OrmpMessageAcceptedRow) (a : OrmpMessageAssignedRow) :
    (self.assign r a).core = r.core := by
  unfold assign
  split <;> rfl

theorem lane_assign (lane : Lane) (r : OrmpMessageAcceptedRow) (a : OrmpMessageAssignedRow) :
    (self.assign r a).lane lane =
      if self.applies lane r a then value lane a else r.lane lane := by
  unfold assign applies
  -- the WHERE of the statement
  by_cases hid : (r.id == a.msgHash) = true
  · rw [if_pos hid, hid, Bool.true_and]
    cases lane with
    | relayer =>
        rw [← containsAddress_eq]
        cases containsAddress self.assignmentConfig.relayerAddresses a.relayer <;> rfl
    | oracle =>
        dsimp only
        rw [← self.oracleCase_eq]
        simp only [OrmpMessageAcceptedRow.lane, setAssignment, value]
        split <;> rfl
  · rw [if_neg hid, Bool.eq_false_of_not_eq_true hid]
    rfl

/-- The early return of the backfill is a case in which the statement would change nothing. -/
theorem get_backfillMessageAssignment (db : Database) (a : OrmpMessageAssignedRow) (id : String) :
    (self.backfillMessageAssignment db a).ormpMessageAccepted.get id =
      (db.ormpMessageAccepted.get id).map fun r => self.assign r a := by
  unfold backfillMessageAssignment
  extract_lets legacy oracle relayer value
  split
  · rename_i hnone
    simp only [Bool.and_eq_true, Bool.not_eq_true'] at hnone
    obtain ⟨⟨horacle, hlegacy⟩, hrelayer⟩ := hnone
    have same : ∀ r, self.assign r a = r := fun r => by
      show (if _ then setAssignment a oracle legacy relayer value r else r) = r
      rw [horacle, hlegacy, hrelayer]
      split <;> rfl
    simp only [same, Option.map_id_fun']
    rfl
  · have key : ∀ r, Keyed.key (setAssignment a oracle legacy relayer value r) = Keyed.key r :=
      fun _ => rfl
    exact Table.get_updateWhere db.ormpMessageAccepted _ _ key id

/-- The SET list of the statement is the rule of `schema/assignments.rs`. -/
theorem setAssignment_eq_apply {r : OrmpMessageAcceptedRow} {a : OrmpMessageAssignedRow}
    (hid : r.id = a.msgHash) :
    setAssignment a
        (containsAddress self.assignmentConfig.oracleAddresses a.oracle &&
          !eqIgnoreAsciiCase a.oracle LEGACY_B49E_ORACLE)
        (eqIgnoreAsciiCase a.oracle LEGACY_B49E_ORACLE)
        (containsAddress self.assignmentConfig.relayerAddresses a.relayer)
        (acceptedOracleValue a.msgHash a.oracle) r =
      (applyAssignmentToAccepted r a self.assignmentConfig).1 := by
  -- the Rust rule writes the relayer first, and the oracle rule does not look at what it wrote
  have same : isOracleAssignmentForAccepted
      { r with
        relayer := some a.relayer
        relayerAssigned := some true
        relayerAssignedFee := some a.relayerFee } a self.assignmentConfig =
      isOracleAssignmentForAccepted r a self.assignmentConfig := rfl
  unfold setAssignment applyAssignmentToAccepted
  rw [oracleCase_eq, containsAddress_eq, if_neg (not_not_intro hid), ← hid]
  cases hrelayer : OrmpIndexer.containsAddress self.assignmentConfig.relayerAddresses a.relayer <;>
    cases horacle : isOracleAssignmentForAccepted r a self.assignmentConfig <;>
    simp [same, horacle]

theorem assign_eq_apply (r : OrmpMessageAcceptedRow) (a : OrmpMessageAssignedRow) :
    self.assign r a = (applyAssignmentToAccepted r a self.assignmentConfig).1 := by
  unfold assign
  by_cases hid : r.id = a.msgHash
  · rw [if_pos (beq_iff_eq.mpr hid)]
    exact self.setAssignment_eq_apply hid
  · rw [if_neg (by simpa using hid), applyAssignmentToAccepted, if_pos hid]

/-- **The SQL backfill is the Rust rule.** The backfill of an assigned row leaves the accepted row of its
message as `applyAssignmentToAccepted` leaves it, whether or not the statement was run, and it leaves
every other accepted row alone. -/
theorem backfill_follows_rust_rule (db : Database) (a : OrmpMessageAssignedRow) (id : String) :
    (self.backfillMessageAssignment db a).ormpMessageAccepted.get id =
      if id = a.msgHash then
        (db.ormpMessageAccepted.get id).map fun r =>
          (applyAssignmentToAccepted r a self.assignmentConfig).1
      else db.ormpMessageAccepted.get id := by
  rw [get_backfillMessageAssignment, funext fun r => self.assign_eq_apply r a]
  split
  · rfl
  · rename_i hne
    apply Table.map_get_eq_self
    intro r hid
    have hr : r.id ≠ a.msgHash := fun h => hne (hid.symm.trans h)
    rw [applyAssignmentToAccepted, if_pos hr]

/-- A list of assigned rows, applied one after the other. -/
theorem get_foldl_backfill (l : List OrmpMessageAssignedRow) (db : Database) (id : String) :
    (l.foldl self.backfillMessageAssignment db).ormpMessageAccepted.get id =
      (db.ormpMessageAccepted.get id).map fun r => l.foldl self.assign r := by
  induction l generalizing db with
  | nil => simp
  | cons a l ih =>
      rw [List.foldl_cons, ih, get_backfillMessageAssignment, Option.map_map]
      rfl

@[simp]
theorem core_foldl_assign (l : List OrmpMessageAssignedRow) (r : OrmpMessageAcceptedRow) :
    (l.foldl self.assign r).core = r.core := by
  induction l generalizing r with
  | nil => rfl
  | cons a l ih => rw [List.foldl_cons, ih, core_assign]

/-- The last applying row decides; without one the lane stays as it was. -/
theorem lane_foldl_assign (lane : Lane) (l : List OrmpMessageAssignedRow)
    (r : OrmpMessageAcceptedRow) :
    (l.foldl self.assign r).lane lane =
      ((lastWhere (self.applies lane r) l).map (value lane)).getD (r.lane lane) := by
  induction l using List.reverseRecOn with
  | nil => rfl
  | append_singleton l a ih =>
      rw [List.foldl_append, List.foldl_cons, List.foldl_nil, lane_assign,
        self.applies_congr (self.core_foldl_assign l r), lastWhere_concat]
      split
      · rfl
      · exact ih

/-! ## The assignments of a message -/

/-- The order in which assignments are applied. -/
def AssignmentLe (r s : OrmpMessageAssignedRow) : Prop := self.assignmentLe r s = true

instance : DecidableRel self.AssignmentLe := fun r s =>
  inferInstanceAs (Decidable (self.assignmentLe r s = true))

theorem assignmentLe_iff {r s : OrmpMessageAssignedRow} : self.AssignmentLe r s ↔
    (r.blockNumber = s.blockNumber ∧ self.locale.le r.id s.id) ∨
      (r.blockNumber ≠ s.blockNumber ∧ self.blockNumberLe r.blockNumber s.blockNumber) := by
  rw [AssignmentLe, assignmentLe]
  split
  · next h => simp [h]
  · next h => simp [h]

theorem assignmentLe_refl (r : OrmpMessageAssignedRow) : self.AssignmentLe r r :=
  self.assignmentLe_iff.mpr (.inl ⟨rfl, by simpa using self.locale.le_total r.id r.id⟩)

instance : Std.Total self.AssignmentLe := ⟨fun r s => by
  rw [assignmentLe_iff, assignmentLe_iff]
  rcases eq_or_ne r.blockNumber s.blockNumber with h | h
  · have htotal := self.locale.le_total r.id s.id
    rw [Bool.or_eq_true] at htotal
    rcases htotal with ht | ht
    · exact .inl (.inl ⟨h, ht⟩)
    · exact .inr (.inl ⟨h.symm, ht⟩)
  · rcases self.blockNumberLe_total r.blockNumber s.blockNumber with ht | ht
    · exact .inl (.inr ⟨h, ht⟩)
    · exact .inr (.inr ⟨h.symm, ht⟩)⟩

instance : IsTrans OrmpMessageAssignedRow self.AssignmentLe := ⟨fun r s t hrs hst => by
  rw [assignmentLe_iff] at *
  rcases hrs with ⟨hrs, hrs'⟩ | ⟨hrs, hrs'⟩ <;> rcases hst with ⟨hst, hst'⟩ | ⟨hst, hst'⟩
  · exact .inl ⟨hrs.trans hst, self.locale.le_trans _ _ _ hrs' hst'⟩
  · exact .inr ⟨hrs ▸ hst, hrs ▸ hst'⟩
  · exact .inr ⟨hst ▸ hrs, hst ▸ hrs'⟩
  · -- three numerals in a row: if the first and the last are the same, so is the one between
    refine .inr ⟨fun h => hrs ?_, self.blockNumberLe_trans hrs' hst'⟩
    exact self.blockNumberLe_antisymm hrs' (h ▸ hst')⟩

theorem mem_assignmentsOf {db : Database} {msgHashes : List String} {a : OrmpMessageAssignedRow} :
    a ∈ self.assignmentsOf db msgHashes ↔
      db.ormpMessageAssigned.get a.id = some a ∧ a.msgHash ∈ msgHashes := by
  rw [assignmentsOf, List.mem_insertionSort, Table.mem_select, List.contains_iff_mem]
  rfl

theorem pairwise_assignmentsOf (db : Database) (msgHashes : List String) :
    (self.assignmentsOf db msgHashes).Pairwise self.AssignmentLe :=
  List.pairwise_insertionSort self.AssignmentLe _

/-- Assignments at the same place of the order are one row. -/
theorem assignmentsOf_antisymm {db : Database} {msgHashes : List String} :
    ∀ a ∈ self.assignmentsOf db msgHashes, ∀ b ∈ self.assignmentsOf db msgHashes,
      self.AssignmentLe a b → self.AssignmentLe b a → a = b := by
  intro a ha b hb hab hba
  rw [assignmentLe_iff] at hab hba
  -- the ids tie, and an id is a primary key
  have hid : a.id = b.id := by
    rcases hab with hab | hab <;> rcases hba with hba | hba
    · exact self.locale.le_antisymm _ _ hab.2 hba.2
    · exact absurd hab.1.symm hba.1
    · exact absurd hba.1.symm hab.1
    · exact absurd (self.blockNumberLe_antisymm hab.2 hba.2) hab.1
  have hgeta := (self.mem_assignmentsOf.mp ha).1
  rw [hid, (self.mem_assignmentsOf.mp hb).1] at hgeta
  exact (Option.some.inj hgeta).symm

/-- The assignment a recomputation of the lane ends with: the last one that applies, in the order of the
numeral of the block and the id. -/
def settled (db : Database) (lane : Lane) (r : OrmpMessageAcceptedRow) :
    Option OrmpMessageAssignedRow :=
  lastWhere (self.applies lane r) (self.assignmentsOf db [r.id])

/-- It depends on the stored assignments that apply, and on nothing else. -/
theorem lastWhere_applies_congr {db db' : Database} {lane : Lane} {r : OrmpMessageAcceptedRow}
    {msgHashes msgHashes' : List String} (hmem : r.id ∈ msgHashes) (hmem' : r.id ∈ msgHashes')
    (h : ∀ a, self.applies lane r a = true →
      (db.ormpMessageAssigned.get a.id = some a ↔ db'.ormpMessageAssigned.get a.id = some a)) :
    lastWhere (self.applies lane r) (self.assignmentsOf db msgHashes) =
      lastWhere (self.applies lane r) (self.assignmentsOf db' msgHashes') := by
  refine lastWhere_congr_of_pairwise (self.pairwise_assignmentsOf db msgHashes)
    (self.pairwise_assignmentsOf db' msgHashes') self.assignmentLe_refl
    self.assignmentsOf_antisymm self.assignmentsOf_antisymm fun a ha => ?_
  rw [mem_assignmentsOf, mem_assignmentsOf, self.applies_msgHash ha]
  exact and_congr (h a ha) (iff_of_true hmem hmem')

/-- A stored assignment applies if and only if there is one to settle on. -/
theorem settled_eq_none_iff {db : Database} {lane : Lane} {r : OrmpMessageAcceptedRow} :
    self.settled db lane r = none ↔
      ∀ a, db.ormpMessageAssigned.get a.id = some a → self.applies lane r a = false := by
  rw [settled, lastWhere_eq_none_iff]
  constructor
  · intro h a ha
    by_contra happ
    rw [Bool.not_eq_false] at happ
    have hmem : a ∈ self.assignmentsOf db [r.id] :=
      self.mem_assignmentsOf.mpr ⟨ha, by simp [self.applies_msgHash happ]⟩
    rw [h a hmem] at happ
    cases happ
  · exact fun h a ha => h a (self.mem_assignmentsOf.mp ha).1

theorem settled_eq_some {db : Database} {lane : Lane} {r : OrmpMessageAcceptedRow}
    {a : OrmpMessageAssignedRow} (h : self.settled db lane r = some a) :
    db.ormpMessageAssigned.get a.id = some a ∧ self.applies lane r a = true :=
  ⟨(self.mem_assignmentsOf.mp (mem_of_lastWhere h)).1, holds_of_lastWhere h⟩

/-! ## Writing events, on the lanes -/

@[simp]
theorem ormpMessageAssigned_backfill (db : Database) (a : OrmpMessageAssignedRow) :
    (self.backfillMessageAssignment db a).ormpMessageAssigned = db.ormpMessageAssigned := by
  unfold backfillMessageAssignment
  extract_lets
  split <;> rfl

@[simp]
theorem ormpMessageAssigned_foldl_backfill (l : List OrmpMessageAssignedRow) (db : Database) :
    (l.foldl self.backfillMessageAssignment db).ormpMessageAssigned = db.ormpMessageAssigned := by
  induction l generalizing db with
  | nil => rfl
  | cons a l ih => rw [List.foldl_cons, ih, ormpMessageAssigned_backfill]

@[simp]
theorem core_keepAssignments (old : Option OrmpMessageAcceptedRow) (row : OrmpMessageAcceptedRow) :
    (keepAssignments old row).core = row.core := rfl

theorem lane_keepAssignments (old : Option OrmpMessageAcceptedRow) (row : OrmpMessageAcceptedRow)
    (lane : Lane) :
    (keepAssignments old row).lane lane = (old.map (·.lane lane)).getD .null := by
  cases old <;> cases lane <;> rfl

/-- The accepted row an accepted event leaves under its own id. -/
def acceptedAfter (db : Database) (row : OrmpMessageAcceptedRow) : OrmpMessageAcceptedRow :=
  (self.assignmentsOf db [row.msgHash]).foldl self.assign
    (keepAssignments (db.ormpMessageAccepted.get row.id) row)

/-- A backfill of one message reaches the row with that id only. -/
theorem foldl_assign_of_ne {db : Database} {msgHash : String} {r : OrmpMessageAcceptedRow}
    (h : r.id ≠ msgHash) : (self.assignmentsOf db [msgHash]).foldl self.assign r = r := by
  have : ∀ l : List OrmpMessageAssignedRow, (∀ a ∈ l, a.msgHash = msgHash) →
      l.foldl self.assign r = r := by
    intro l hl
    induction l with
    | nil => rfl
    | cons a l ih =>
        -- the WHERE fails
        have ha : self.assign r a = r := by
          unfold assign
          rw [if_neg]
          simpa [hl a List.mem_cons_self] using h
        rw [List.foldl_cons, ha]
        exact ih fun b hb => hl b (List.mem_cons_of_mem a hb)
  exact this _ fun a ha => List.mem_singleton.mp (self.mem_assignmentsOf.mp ha).2

theorem get_writeAccepted (db : Database) (e : MessageAccepted) (id : String) :
    (self.writeLegacyEvent db (.messageAccepted e)).ormpMessageAccepted.get id =
      if e.msgHash = id then some (self.acceptedAfter db (.fromEvent e))
      else db.ormpMessageAccepted.get id := by
  have list : self.assignmentsOf (insertMessageAccepted db (.fromEvent e)) [e.msgHash] =
      self.assignmentsOf db [e.msgHash] := rfl
  show ((self.assignmentsOf (insertMessageAccepted db (.fromEvent e)) [e.msgHash]).foldl
    self.backfillMessageAssignment _).ormpMessageAccepted.get id = _
  rw [list, get_foldl_backfill]
  simp only [insertMessageAccepted, Table.get_upsert]
  have key : Keyed.key (keepAssignments (db.ormpMessageAccepted.get
      (OrmpMessageAcceptedRow.fromEvent e).id) (.fromEvent e)) = e.msgHash := rfl
  rw [key]
  split
  · rfl
  · rename_i hne
    apply Table.map_get_eq_self
    intro r hid
    have hr : r.id ≠ e.msgHash := fun h => hne (h.symm.trans hid)
    exact self.foldl_assign_of_ne hr

theorem get_writeAssigned (db : Database) (e : MessageAssigned) (id : String) :
    (self.writeLegacyEvent db (.messageAssigned e)).ormpMessageAccepted.get id =
      (db.ormpMessageAccepted.get id).map fun r => self.assign r (.fromEvent e) :=
  self.get_backfillMessageAssignment _ _ _

/-- Writing an accepted event: the row has the core of the event, and each lane holds what the stored
assignments settle on, or what it held before. -/
theorem core_acceptedAfter (db : Database) (e : MessageAccepted) :
    (self.acceptedAfter db (.fromEvent e)).core = .fromEvent e := by
  rw [acceptedAfter, core_foldl_assign, core_keepAssignments]
  rfl

theorem lane_acceptedAfter (db : Database) (e : MessageAccepted) (lane : Lane) :
    (self.acceptedAfter db (.fromEvent e)).lane lane =
      ((self.settled db lane (.fromEvent e)).map (value lane)).getD
        (((db.ormpMessageAccepted.get e.msgHash).map (·.lane lane)).getD .null) := by
  rw [acceptedAfter, lane_foldl_assign, lane_keepAssignments, settled,
    funext (self.applies_congr (core_keepAssignments _ _) lane)]
  rfl

/-- The stored assigned rows after one event. -/
theorem get_assigned_writeLegacyEvent (db : Database) (e : LegacyOrmPEvent) (id : String) :
    (self.writeLegacyEvent db e).ormpMessageAssigned.get id =
      match e with
      | .messageAssigned e =>
          if e.metadata.id = id then some (.fromEvent e) else db.ormpMessageAssigned.get id
      | _ => db.ormpMessageAssigned.get id := by
  cases e with
  | messageAccepted e =>
      simp [writeLegacyEvent, backfillAcceptedAssignment, insertMessageAccepted]
  | messageAssigned e =>
      simp only [writeLegacyEvent, ormpMessageAssigned_backfill, insertMessageAssigned,
        Table.get_upsert]
      rfl
  | _ => rfl

/-! ## Rollback, on the lanes -/

/-- What the recomputation of some messages makes of an accepted row. -/
def recomputed (db : Database) (msgHashes : List String) (r : OrmpMessageAcceptedRow) :
    OrmpMessageAcceptedRow :=
  (self.assignmentsOf db msgHashes).foldl self.assign
    (if msgHashes.contains r.msgHash then r.core else r)

theorem assignmentsOf_nil (db : Database) : self.assignmentsOf db [] = [] :=
  List.eq_nil_iff_forall_not_mem.mpr fun a ha => by simpa using (self.mem_assignmentsOf.mp ha).2

theorem get_recomputeAcceptedAssignments (db : Database) (msgHashes : List String) (id : String) :
    (self.recomputeAcceptedAssignments db msgHashes).ormpMessageAccepted.get id =
      (db.ormpMessageAccepted.get id).map (self.recomputed db msgHashes) := by
  unfold recomputeAcceptedAssignments
  split
  · rename_i hempty
    obtain rfl := List.isEmpty_iff.mp hempty
    have same : ∀ r, self.recomputed db [] r = r := fun r => by
      rw [recomputed, assignmentsOf_nil]
      rfl
    cases db.ormpMessageAccepted.get id <;> simp [same]
  · have key : ∀ r : OrmpMessageAcceptedRow, Keyed.key r.core = Keyed.key r := fun _ => rfl
    have clear : (clearAssignments db msgHashes).ormpMessageAccepted.get id =
        (db.ormpMessageAccepted.get id).map fun r =>
          if msgHashes.contains r.msgHash then r.core else r :=
      Table.get_updateWhere _ _ _ key _
    rw [get_foldl_backfill, clear, Option.map_map]
    rfl

@[simp]
theorem core_recomputed (db : Database) (msgHashes : List String) (r : OrmpMessageAcceptedRow) :
    (self.recomputed db msgHashes r).core = r.core := by
  rw [recomputed, core_foldl_assign]
  split <;> rfl

/-- The lanes of a recomputed message are settled anew; those of any other message stay. -/
theorem lane_recomputed (db : Database) (msgHashes : List String) {r : OrmpMessageAcceptedRow}
    (hid : r.id = r.msgHash) (lane : Lane) :
    (self.recomputed db msgHashes r).lane lane =
      if r.msgHash ∈ msgHashes then ((self.settled db lane r).map (value lane)).getD .null
      else r.lane lane := by
  rw [recomputed, lane_foldl_assign]
  split
  · rename_i hmem
    have hmem : r.msgHash ∈ msgHashes := List.contains_iff_mem.mp hmem
    rw [if_pos hmem, lane_core, funext (self.applies_congr (OrmpMessageAcceptedRow.core_core r) lane)]
    rw [settled, self.lastWhere_applies_congr (hid ▸ hmem) (List.mem_singleton_self _)
      fun _ _ => Iff.rfl]
  · rename_i hmem
    -- none of the assignments that are applied is of this message
    have hmem : r.msgHash ∉ msgHashes := fun h => hmem (List.contains_iff_mem.mpr h)
    have none : lastWhere (self.applies lane r) (self.assignmentsOf db msgHashes) = none := by
      apply lastWhere_eq_none_iff.mpr
      intro a ha
      by_contra happ
      rw [Bool.not_eq_false] at happ
      apply hmem
      rw [← hid, ← self.applies_msgHash happ]
      exact (self.mem_assignmentsOf.mp ha).2
    rw [if_neg hmem, none]
    rfl

section

variable (db : Database) (chainId : Nat) (dataset : String) (rollbackBlock : Nat)

theorem ormpMessageAssigned_recompute (msgHashes : List String) :
    (self.recomputeAcceptedAssignments db msgHashes).ormpMessageAssigned =
      db.ormpMessageAssigned := by
  unfold recomputeAcceptedAssignments
  split
  · rfl
  · exact self.ormpMessageAssigned_foldl_backfill _ _

theorem ormpMessageAssigned_rollback :
    (self.rollbackLegacyFrom db chainId dataset rollbackBlock).ormpMessageAssigned =
      db.ormpMessageAssigned.deleteWhere fun r =>
        rolledBack chainId rollbackBlock r.chainId r.blockNumber :=
  self.ormpMessageAssigned_recompute _ _

/-- The accepted rows after a rollback: those of the chain from the rollback block on are gone, and the
messages that lost an assignment are recomputed from what is left. -/
theorem get_accepted_rollback (id : String) :
    (self.rollbackLegacyFrom db chainId dataset rollbackBlock).ormpMessageAccepted.get id =
      ((db.ormpMessageAccepted.get id).filter fun r =>
        !rolledBack chainId rollbackBlock r.chainId r.blockNumber).map
      (self.recomputed (self.rollbackLegacyFrom db chainId dataset rollbackBlock)
        (rolledBackAssignmentMsgHashes db chainId rollbackBlock)) := by
  -- what the recomputation reads is not changed by the steps after it
  have left : ∀ msgHashes, self.assignmentsOf
      (self.rollbackLegacyFrom db chainId dataset rollbackBlock) msgHashes =
      self.assignmentsOf (deleteLegacyRows (self.deleteSignatureSubmittionsBySourceAnchors db chainId
        dataset rollbackBlock) chainId rollbackBlock) msgHashes := fun msgHashes => by
    rw [assignmentsOf, ormpMessageAssigned_rollback]
    rfl
  rw [show self.recomputed (self.rollbackLegacyFrom db chainId dataset rollbackBlock) =
    self.recomputed (deleteLegacyRows (self.deleteSignatureSubmittionsBySourceAnchors db chainId
      dataset rollbackBlock) chainId rollbackBlock) from
    funext fun msgHashes => funext fun r => by rw [recomputed, recomputed, left],
    ← Table.get_deleteWhere]
  exact self.get_recomputeAcceptedAssignments _ _ _

/-- The messages a rollback recomputes are those of the assignments it deletes. -/
theorem mem_rolledBackAssignmentMsgHashes {msgHash : String} :
    msgHash ∈ rolledBackAssignmentMsgHashes db chainId rollbackBlock ↔
      ∃ a, db.ormpMessageAssigned.get a.id = some a ∧
        rolledBack chainId rollbackBlock a.chainId a.blockNumber = true ∧ a.msgHash = msgHash := by
  simp only [rolledBackAssignmentMsgHashes, List.mem_dedup, List.mem_map, Table.mem_select,
    and_assoc]
  rfl

end

end Postgres

end OrmpIndexer
