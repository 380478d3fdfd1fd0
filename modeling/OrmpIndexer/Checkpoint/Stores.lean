/-
# OrmpIndexer.Checkpoint.Stores — the two checkpoint stores, call by call

The trait `CheckpointStore` has two implementations. The tests of the runner use the one in memory, and the
indexer uses PostgreSQL. They differ in how they do things: one inserts where the other updates rows that
are there, walks a range of an ordered map where the other selects rows and sorts them, retains entries
where the other deletes rows. From empty stores, in any sequence of calls in which each chain and dataset is
read or created first, they hold the same rows all along and answer every call (`lockstep_stores`).

The answers are the same but for the ORDER of the anchors. In memory they come in the order of their blocks,
and `ORDER BY block_number` compares the numerals of the blocks, so block 10 comes before block 9
(`ten_before_nine`). All answers are the same exactly if no call reads anchors whose numerals are in another
order than their numbers (`answers_inMemory_eq_postgres_iff`).

The two conditions on the sequence are needed: an UPDATE of a checkpoint that is not there does nothing, and
`BTreeMap::range` panics if it ends before it starts.

Both stores are called one call at a time, none fails for reasons outside of the store, and a TEXT column
holds any text.
-/
import OrmpIndexer.Checkpoint.InMemory
import OrmpIndexer.Database.Rows
import OrmpIndexer.Foundation.Lockstep

namespace OrmpIndexer

open Foundation

/-! ## The trait and its implementations -/

/-- The trait `CheckpointStore`; `none` is an error or a panic. -/
structure CheckpointStore (σ : Type) where
  readOrCreate (self : σ) (chainId : Nat) (dataset : String) (startBlock : Nat) :
    Option (Checkpoint × σ)
  advance (self : σ) (chainId : Nat) (dataset : String) (nextBlock : Nat) : Option σ
  upsertBlockAnchors (self : σ) (anchors : List BlockAnchor) : Option σ
  readBlockAnchors (self : σ) (chainId : Nat) (dataset : String) (fromBlock toBlock : Nat) :
    Option (List BlockAnchor)
  rollbackLegacyFrom (self : σ) (chainId : Nat) (dataset : String) (rollbackBlock : Nat) : Option σ

namespace Postgres

/-- The INSERT and the SELECT of `read_or_create`; `fetch_one` is an error if there is no row. -/
def readOrCreate (db : Database) (chainId : Nat) (dataset : String) (startBlock : Nat) :
    Option (Checkpoint × Database) :=
  let db := insertCheckpoint db chainId dataset startBlock
  (db.checkpoint.get (chainId, dataset)).map fun row =>
    ({ chainId, dataset, nextBlock := row.nextBlock }, db)

/-- An UPDATE, so a checkpoint that is not there is not made. -/
def advance (db : Database) (chainId : Nat) (dataset : String) (nextBlock : Nat) : Database :=
  { db with
    checkpoint := db.checkpoint.updateWhere
      (fun row => row.chainId == chainId && row.dataset == dataset)
      (fun row => { row with nextBlock }) (fun _ => rfl) }

end Postgres

namespace CheckpointStore

/-- `PostgresCheckpointStore`. -/
def postgres (self : Postgres) : CheckpointStore Database where
  readOrCreate := Postgres.readOrCreate
  advance db chainId dataset nextBlock := some (Postgres.advance db chainId dataset nextBlock)
  upsertBlockAnchors db anchors := some (Postgres.upsertBlockAnchors db anchors)
  readBlockAnchors db chainId dataset fromBlock toBlock :=
    some (self.readBlockAnchors db chainId dataset fromBlock toBlock)
  rollbackLegacyFrom db chainId dataset rollbackBlock :=
    some (self.rollbackLegacyFrom db chainId dataset rollbackBlock)

/-- `InMemoryCheckpointStore`. -/
def inMemory : CheckpointStore InMemoryCheckpointStore where
  readOrCreate self chainId dataset startBlock := some (self.readOrCreate chainId dataset startBlock)
  advance self chainId dataset nextBlock := some (self.advance chainId dataset nextBlock)
  upsertBlockAnchors self anchors := some (self.upsertBlockAnchors anchors)
  readBlockAnchors self chainId dataset fromBlock toBlock :=
    self.anchors.range (chainId, dataset, fromBlock) (chainId, dataset, toBlock)
  rollbackLegacyFrom self chainId dataset rollbackBlock :=
    some (self.rollbackLegacyFrom chainId dataset rollbackBlock)

end CheckpointStore

/-- The store of `InMemoryCheckpointStore::default()`. -/
def InMemoryCheckpointStore.empty : InMemoryCheckpointStore := ⟨.empty, .empty⟩

inductive StoreCall where
  | readOrCreate (chainId : Nat) (dataset : String) (startBlock : Nat)
  | advance (chainId : Nat) (dataset : String) (nextBlock : Nat)
  | upsertBlockAnchors (anchors : List BlockAnchor)
  | readBlockAnchors (chainId : Nat) (dataset : String) (fromBlock toBlock : Nat)
  | rollbackLegacyFrom (chainId : Nat) (dataset : String) (rollbackBlock : Nat)
deriving DecidableEq, Repr

inductive StoreReply where
  | checkpoint (checkpoint : Checkpoint)
  | anchors (anchors : List BlockAnchor)
  | done
deriving DecidableEq, Repr

/-- A store as a machine that is called through the trait. -/
def CheckpointStore.machine {σ : Type} (store : CheckpointStore σ) : Machine StoreCall StoreReply σ
  | self, .readOrCreate chainId dataset startBlock =>
      (store.readOrCreate self chainId dataset startBlock).map fun (checkpoint, self) =>
        (.checkpoint checkpoint, self)
  | self, .advance chainId dataset nextBlock =>
      (store.advance self chainId dataset nextBlock).map fun self => (.done, self)
  | self, .upsertBlockAnchors anchors =>
      (store.upsertBlockAnchors self anchors).map fun self => (.done, self)
  | self, .readBlockAnchors chainId dataset fromBlock toBlock =>
      (store.readBlockAnchors self chainId dataset fromBlock toBlock).map fun anchors =>
        (.anchors anchors, self)
  | self, .rollbackLegacyFrom chainId dataset rollbackBlock =>
      (store.rollbackLegacyFrom self chainId dataset rollbackBlock).map fun self => (.done, self)

/-- The call is about the chain and the dataset. -/
def StoreCall.Touches (chainId : Nat) (dataset : String) : StoreCall → Prop
  | .readOrCreate c d _ | .advance c d _ | .readBlockAnchors c d _ _ | .rollbackLegacyFrom c d _ =>
      c = chainId ∧ d = dataset
  | .upsertBlockAnchors anchors =>
      ∃ anchor ∈ anchors, anchor.chainId = chainId ∧ anchor.dataset = dataset

/-- The first call about a chain and a dataset is `read_or_create`. -/
def CreatedFirst : List StoreCall → Prop :=
  Legal fun past call => ∀ chainId dataset, call.Touches chainId dataset →
    ∃ startBlock, .readOrCreate chainId dataset startBlock ∈ past ++ [call]

/-- The range of anchors that is read, if one is, does not end before it starts. -/
def StoreCall.RangeAscends : StoreCall → Prop
  | .readBlockAnchors _ _ fromBlock toBlock => fromBlock ≤ toBlock
  | .readOrCreate .. | .advance .. | .upsertBlockAnchors _ | .rollbackLegacyFrom .. => True

/-- Whether the block has an anchor after the call, if that is known before it. -/
def StoreCall.anchors (chainId : Nat) (dataset : String) (n : Nat) (before : Bool) : StoreCall → Bool
  | .upsertBlockAnchors anchors =>
      before || anchors.any fun anchor => Keyed.key anchor == (chainId, dataset, n)
  | .rollbackLegacyFrom c d rollbackBlock =>
      before && !(c == chainId && d == dataset && decide (rollbackBlock ≤ n))
  | .readOrCreate .. | .advance .. | .readBlockAnchors .. => before

/-- Whether it has one after these calls: one was upserted, and not rolled back since. -/
def anchored (calls : List StoreCall) (chainId : Nat) (dataset : String) (n : Nat) : Bool :=
  calls.foldl (fun before call => call.anchors chainId dataset n before) false

/-- The anchors that are read, if any are, are in one order as numbers and as numerals. -/
def SortsAlike (postgres : Postgres) (past : List StoreCall) : StoreCall → Prop
  | .readBlockAnchors chainId dataset fromBlock toBlock => ∀ m n, fromBlock ≤ m → m < n → n ≤ toBlock →
      anchored past chainId dataset m = true → anchored past chainId dataset n = true →
      postgres.blockNumberLe m n = true
  | .readOrCreate .. | .advance .. | .upsertBlockAnchors _ | .rollbackLegacyFrom .. => True

/-! ## Anchors -/

theorem isLE_compare_anchorKey (chainId : Nat) (dataset : String) (m n : Nat) :
    (Keyed.cmp BlockAnchor (chainId, dataset, m) (chainId, dataset, n)).isLE ↔ m ≤ n :=
  (isLE_lexOrd_iff chainId (dataset, m) (dataset, n)).trans
    ((isLE_lexOrd_iff dataset m n).trans Nat.isLE_compare)

/-- The keys from one block to another of a chain and a dataset are those of its blocks in between. -/
theorem range_anchors (t : Table BlockAnchor) (chainId : Nat) (dataset : String)
    (fromBlock toBlock : Nat) :
    t.range (chainId, dataset, fromBlock) (chainId, dataset, toBlock) =
      if fromBlock ≤ toBlock then some (t.select (anchorInRange chainId dataset fromBlock toBlock))
      else none := by
  have hkeys : (fun anchor : BlockAnchor =>
      (Keyed.cmp BlockAnchor (chainId, dataset, fromBlock) (Keyed.key anchor)).isLE &&
        (Keyed.cmp BlockAnchor (Keyed.key anchor) (chainId, dataset, toBlock)).isLE) =
      anchorInRange chainId dataset fromBlock toBlock := by
    funext anchor
    rw [Bool.eq_iff_iff, Bool.and_eq_true, anchorInRange_iff]
    refine between_lexOrd_iff.trans (and_congr_right fun _ => ?_)
    refine between_lexOrd_iff.trans (and_congr_right fun _ => ?_)
    exact and_congr Nat.isLE_compare Nat.isLE_compare
  simp only [Table.range, isLE_compare_anchorKey, hkeys]

/-- The order of the key is that of the blocks. -/
theorem pairwise_select_anchorInRange (t : Table BlockAnchor) (chainId : Nat) (dataset : String)
    (fromBlock toBlock : Nat) :
    (t.select (anchorInRange chainId dataset fromBlock toBlock)).Pairwise
      fun a b => a.blockNumber < b.blockNumber := by
  refine (Table.pairwise_select _ _).imp_of_mem fun {a b} ha hb hlt => ?_
  obtain ⟨hac, had, -⟩ := anchorInRange_iff.mp (Table.mem_select.mp ha).2
  obtain ⟨hbc, hbd, -⟩ := anchorInRange_iff.mp (Table.mem_select.mp hb).2
  have hnotLE : ¬(Keyed.cmp BlockAnchor (b.chainId, b.dataset, b.blockNumber)
      (a.chainId, a.dataset, a.blockNumber)).isLE := Std.OrientedCmp.not_isLE_of_lt hlt
  rw [hac, had, hbc, hbd, isLE_compare_anchorKey] at hnotLE
  exact Nat.lt_of_not_le hnotLE

/-- `ORDER BY block_number` leaves the rows in the order of the blocks exactly if that is the order of their
numerals. -/
theorem readBlockAnchors_eq_select_iff (postgres : Postgres) (db : Database) (chainId : Nat)
    (dataset : String) (fromBlock toBlock : Nat) :
    postgres.readBlockAnchors db chainId dataset fromBlock toBlock =
        db.blockAnchor.select (anchorInRange chainId dataset fromBlock toBlock) ↔
      ∀ m n, fromBlock ≤ m → m < n → n ≤ toBlock →
        (db.blockAnchor.get (chainId, dataset, m)).isSome →
        (db.blockAnchor.get (chainId, dataset, n)).isSome → postgres.blockNumberLe m n = true := by
  have hblocks := pairwise_select_anchorInRange db.blockAnchor chainId dataset fromBlock toBlock
  constructor
  · intro heq m n hfrom hlt hto hm hn
    obtain ⟨a, ha⟩ := Option.isSome_iff_exists.mp hm
    obtain ⟨b, hb⟩ := Option.isSome_iff_exists.mp hn
    obtain ⟨-, -, rfl⟩ := BlockAnchor.key_of_get ha
    obtain ⟨-, -, rfl⟩ := BlockAnchor.key_of_get hb
    have hsorted := postgres.pairwise_readBlockAnchors db chainId dataset fromBlock toBlock
    rw [heq] at hsorted
    refine List.Pairwise.forall_of_forall_of_flip
      (R := fun a b : BlockAnchor => a.blockNumber < b.blockNumber → postgres.AnchorLe a b)
      (fun _ _ h => absurd h (Nat.lt_irrefl _)) (hsorted.imp fun {a b} h (_ : a.blockNumber < b.blockNumber) => h)
      (hblocks.imp fun h h' => absurd h (Nat.lt_asymm h')) ?_ ?_ hlt
    · exact mem_select_anchorInRange.mpr ⟨ha, hfrom, hlt.le.trans hto⟩
    · exact mem_select_anchorInRange.mpr ⟨hb, hfrom.trans hlt.le, hto⟩
  · intro h
    apply List.Pairwise.insertionSort_eq
    refine hblocks.imp_of_mem fun {a b} ha hb hlt => ?_
    obtain ⟨hgeta, hfrom, -⟩ := mem_select_anchorInRange.mp ha
    obtain ⟨hgetb, -, hto⟩ := mem_select_anchorInRange.mp hb
    exact h _ _ hfrom hlt hto (Option.isSome_of_eq_some hgeta) (Option.isSome_of_eq_some hgetb)

/-! ## Call by call -/

/-- The UPDATE of a checkpoint that is there is an overwriting INSERT. -/
theorem Postgres.checkpoint_advance {db : Database} {chainId : Nat} {dataset : String} {row : Checkpoint}
    (h : db.checkpoint.get (chainId, dataset) = some row) {nextBlock : Nat} :
    (advance db chainId dataset nextBlock).checkpoint =
      db.checkpoint.upsert { chainId, dataset, nextBlock } := by
  obtain ⟨rfl, rfl⟩ := Checkpoint.key_of_get h
  rw [advance]
  dsimp only
  apply Table.updateWhere_eq_upsert (⟨row.chainId, row.dataset, nextBlock⟩ : Checkpoint) h rfl
  intro r
  simp [Keyed.key]

/-- The stores hold the same rows, with a checkpoint for whatever was read or created. -/
structure Agree (past : List StoreCall) (s : InMemoryCheckpointStore) (db : Database) : Prop where
  checkpoints : db.checkpoint = s.checkpoints
  anchors : db.blockAnchor = s.anchors
  created : ∀ {chainId dataset startBlock}, .readOrCreate chainId dataset startBlock ∈ past →
    (s.checkpoints.get (chainId, dataset)).isSome
  anchored : ∀ chainId dataset n,
    (s.anchors.get (chainId, dataset, n)).isSome = anchored past chainId dataset n

namespace Agree

variable {past : List StoreCall} {s : InMemoryCheckpointStore} {db : Database}

theorem start : Agree [] .empty .empty := ⟨rfl, rfl, nofun, fun _ _ _ => rfl⟩

/-- A call that leaves the anchors alone. -/
theorem anchored_concat (h : Agree past s db) {call : StoreCall}
    (hcall : ∀ chainId dataset n before, call.anchors chainId dataset n before = before)
    (chainId : Nat) (dataset : String) (n : Nat) :
    (s.anchors.get (chainId, dataset, n)).isSome =
      OrmpIndexer.anchored (past ++ [call]) chainId dataset n := by
  rw [OrmpIndexer.anchored, List.foldl_concat, hcall]
  exact h.anchored chainId dataset n

/-- What is left to prove after a call: a checkpoint never goes away, and a created one is there. -/
theorem created_concat (h : Agree past s db) {call : StoreCall} {checkpoints : Table Checkpoint}
    (kept : ∀ key, (s.checkpoints.get key).isSome → (checkpoints.get key).isSome)
    (made : ∀ chainId dataset startBlock, call = .readOrCreate chainId dataset startBlock →
      (checkpoints.get (chainId, dataset)).isSome)
    {chainId : Nat} {dataset : String} {startBlock : Nat}
    (hmem : .readOrCreate chainId dataset startBlock ∈ past ++ [call]) :
    (checkpoints.get (chainId, dataset)).isSome := by
  rcases List.mem_append.mp hmem with hpast | hcall
  · exact kept _ (h.created hpast)
  · exact made chainId dataset startBlock (List.mem_singleton.mp hcall).symm

theorem isSome_get_upsert (t : Table Checkpoint) (row : Checkpoint) {key : Nat × String}
    (h : (t.get key).isSome) : ((t.upsert row).get key).isSome := by
  rw [Table.get_upsert]
  split
  · rfl
  · exact h

theorem readOrCreate (h : Agree past s db) (chainId : Nat) (dataset : String) (startBlock : Nat) :
    ∃ db', Postgres.readOrCreate db chainId dataset startBlock =
        some ((s.readOrCreate chainId dataset startBlock).1, db') ∧
      Agree (past ++ [.readOrCreate chainId dataset startBlock])
        (s.readOrCreate chainId dataset startBlock).2 db' := by
  have hrow : ((s.checkpoints.insertIfAbsent ⟨chainId, dataset, startBlock⟩).get
      (chainId, dataset)).isSome := by
    have hkey : Keyed.key (⟨chainId, dataset, startBlock⟩ : Checkpoint) = (chainId, dataset) := rfl
    rw [Table.get_insertIfAbsent, if_pos hkey]
    rfl
  obtain ⟨row, hget⟩ := Option.isSome_iff_exists.mp hrow
  refine ⟨Postgres.insertCheckpoint db chainId dataset startBlock, ?_, ?_⟩
  · simp only [Postgres.readOrCreate, Postgres.insertCheckpoint,
      InMemoryCheckpointStore.readOrCreate, h.checkpoints, hget]
    rfl
  · refine ⟨congrArg (Table.insertIfAbsent · _) h.checkpoints, h.anchors, h.created_concat ?_ ?_,
      h.anchored_concat fun _ _ _ _ => rfl⟩
    · intro key hkey
      show ((s.checkpoints.insertIfAbsent _).get key).isSome
      rw [Table.get_insertIfAbsent]
      split
      · rfl
      · exact hkey
    · rintro chainId dataset startBlock ⟨⟩
      exact hrow

theorem advance (h : Agree past s db) {chainId : Nat} {dataset : String} {nextBlock : Nat}
    (hcreated : ∃ startBlock, .readOrCreate chainId dataset startBlock ∈ past) :
    Agree (past ++ [.advance chainId dataset nextBlock]) (s.advance chainId dataset nextBlock)
      (Postgres.advance db chainId dataset nextBlock) := by
  obtain ⟨startBlock, hmem⟩ := hcreated
  obtain ⟨row, hget⟩ := Option.isSome_iff_exists.mp (h.created hmem)
  rw [← h.checkpoints] at hget
  refine ⟨?_, h.anchors, h.created_concat (fun _ => isSome_get_upsert _ _) (by rintro _ _ _ ⟨⟩),
    h.anchored_concat fun _ _ _ _ => rfl⟩
  rw [Postgres.checkpoint_advance hget, h.checkpoints]
  rfl

theorem upsertBlockAnchors (h : Agree past s db) (anchors : List BlockAnchor) :
    Agree (past ++ [.upsertBlockAnchors anchors]) (s.upsertBlockAnchors anchors)
      (Postgres.upsertBlockAnchors db anchors) := by
  refine ⟨h.checkpoints, congrArg (anchors.foldl Table.upsert) h.anchors,
    h.created_concat (fun _ => id) (by rintro _ _ _ ⟨⟩), fun chainId dataset n => ?_⟩
  show ((anchors.foldl Table.upsert s.anchors).get (chainId, dataset, n)).isSome = _
  have hany : (lastWhere (fun a => Keyed.key a == (chainId, dataset, n)) anchors).isSome =
      anchors.any fun a => Keyed.key a == (chainId, dataset, n) :=
    Bool.eq_iff_iff.mpr (lastWhere_isSome_iff.trans List.any_eq_true.symm)
  rw [OrmpIndexer.anchored, List.foldl_concat, Postgres.get_foldl_upsert_anchor, Option.isSome_or, hany,
    h.anchored, Bool.or_comm]
  rfl

/-- Both read the anchors of the range, each in its order. -/
theorem readBlockAnchors (h : Agree past s db) (postgres : Postgres) {chainId : Nat} {dataset : String}
    {fromBlock toBlock : Nat} (hle : fromBlock ≤ toBlock) :
    ∃ anchors, CheckpointStore.inMemory.readBlockAnchors s chainId dataset fromBlock toBlock =
        some anchors ∧
      (anchors = postgres.readBlockAnchors db chainId dataset fromBlock toBlock ↔
        SortsAlike postgres past (.readBlockAnchors chainId dataset fromBlock toBlock)) ∧
      Agree (past ++ [.readBlockAnchors chainId dataset fromBlock toBlock]) s db := by
  refine ⟨_, (range_anchors s.anchors chainId dataset fromBlock toBlock).trans (if_pos hle), ?_,
    h.checkpoints, h.anchors, h.created_concat (fun _ => id) (by rintro _ _ _ ⟨⟩),
    h.anchored_concat fun _ _ _ _ => rfl⟩
  rw [← h.anchors, eq_comm, readBlockAnchors_eq_select_iff, h.anchors]
  simp only [h.anchored]
  rfl

theorem rollbackLegacyFrom (h : Agree past s db) (postgres : Postgres) (chainId : Nat)
    (dataset : String) (rollbackBlock : Nat) :
    Agree (past ++ [.rollbackLegacyFrom chainId dataset rollbackBlock])
      (s.rollbackLegacyFrom chainId dataset rollbackBlock)
      (postgres.rollbackLegacyFrom db chainId dataset rollbackBlock) := by
  refine ⟨?_, ?_, h.created_concat (fun _ => isSome_get_upsert _ _) (by rintro _ _ _ ⟨⟩),
    fun c d n => ?_⟩
  · rw [Postgres.checkpoint_rollback, h.checkpoints]
    rfl
  · rw [Postgres.blockAnchor_rollback, h.anchors]
    -- what is retained is what is not deleted
    show _ = s.anchors.deleteWhere _
    congr 1
    funext anchor
    simp [bne, ← Bool.not_and, ← decide_not]
  · have hget : (s.rollbackLegacyFrom chainId dataset rollbackBlock).anchors.get (c, d, n) =
        if c = chainId ∧ d = dataset ∧ rollbackBlock ≤ n then none else s.anchors.get (c, d, n) :=
      get_deleteWhere_anchor (by simp [and_assoc]) c d n
    rw [hget, OrmpIndexer.anchored, List.foldl_concat, ← OrmpIndexer.anchored, ← h.anchored]
    by_cases hgone : c = chainId ∧ d = dataset ∧ rollbackBlock ≤ n
    · obtain ⟨rfl, rfl, hle⟩ := hgone
      simp [StoreCall.anchors, hle]
    · have hkept : (chainId == c && dataset == d && decide (rollbackBlock ≤ n)) = false := by
        rw [Bool.eq_false_iff, Ne, Bool.and_eq_true, Bool.and_eq_true, beq_iff_eq, beq_iff_eq,
          decide_eq_true_eq]
        rintro ⟨⟨rfl, rfl⟩, hle⟩
        exact hgone ⟨rfl, rfl, hle⟩
      rw [if_neg hgone, StoreCall.anchors, hkept]
      exact (Bool.and_true _).symm

end Agree

/-- What a call may be, after the calls before it. -/
def MayCall (past : List StoreCall) (call : StoreCall) : Prop :=
  (∀ chainId dataset nextBlock, call = .advance chainId dataset nextBlock →
    ∃ startBlock, .readOrCreate chainId dataset startBlock ∈ past) ∧ call.RangeAscends

theorem lockstep_stores (postgres : Postgres) :
    Lockstep CheckpointStore.inMemory.machine (CheckpointStore.postgres postgres).machine MayCall
      (SortsAlike postgres) Agree where
  step := by
    intro past call s db h hcall
    cases call with
    | readOrCreate chainId dataset startBlock =>
        obtain ⟨db', hcreate, hagree⟩ := h.readOrCreate chainId dataset startBlock
        refine ⟨_, _, _, _, rfl, ?_, iff_of_true rfl trivial, hagree⟩
        rw [CheckpointStore.machine]
        exact congrArg _ hcreate
    | advance chainId dataset nextBlock =>
        exact ⟨_, _, _, _, rfl, rfl, iff_of_true rfl trivial,
          h.advance (hcall.1 chainId dataset nextBlock rfl)⟩
    | upsertBlockAnchors anchors =>
        exact ⟨_, _, _, _, rfl, rfl, iff_of_true rfl trivial, h.upsertBlockAnchors anchors⟩
    | readBlockAnchors chainId dataset fromBlock toBlock =>
        obtain ⟨anchors, hread, hsame, hagree⟩ := h.readBlockAnchors postgres hcall.2
        refine ⟨.anchors anchors, _, _, _, ?_, rfl, ?_, hagree⟩
        · rw [CheckpointStore.machine, hread]
          rfl
        · rw [StoreReply.anchors.injEq]
          exact hsame
    | rollbackLegacyFrom chainId dataset rollbackBlock =>
        exact ⟨_, _, _, _, rfl, rfl, iff_of_true rfl trivial,
          h.rollbackLegacyFrom postgres chainId dataset rollbackBlock⟩

/-- What is created first is there when it is advanced. -/
theorem legal_of_createdFirst {calls : List StoreCall} (hcreated : CreatedFirst calls)
    (hranges : ∀ call ∈ calls, call.RangeAscends) : Legal MayCall calls := by
  intro past call rest hcalls
  constructor
  · rintro chainId dataset nextBlock rfl
    obtain ⟨startBlock, hmem⟩ := hcreated past _ rest hcalls chainId dataset ⟨rfl, rfl⟩
    refine ⟨startBlock, ?_⟩
    rcases List.mem_append.mp hmem with hpast | hnow
    · exact hpast
    · cases List.mem_singleton.mp hnow
  · exact hranges call (by rw [hcalls]; simp)

/-- From empty stores, the store in memory and the PostgreSQL store answer every call, and all calls alike
exactly if no call reads anchors whose numerals are in another order than their blocks. -/
theorem answers_inMemory_eq_postgres_iff (postgres : Postgres) (calls : List StoreCall)
    (hcreated : CreatedFirst calls) (hranges : ∀ call ∈ calls, call.RangeAscends) :
    ∃ replies replies' s db,
      CheckpointStore.inMemory.machine.answers .empty calls = some (replies, s) ∧
      (CheckpointStore.postgres postgres).machine.answers .empty calls = some (replies', db) ∧
      replies.length = calls.length ∧ replies'.length = calls.length ∧
      (replies = replies' ↔ Legal (SortsAlike postgres) calls) := by
  obtain ⟨replies, replies', s, db, hmemory, hpostgres, hsame, -⟩ :=
    (lockstep_stores postgres).answers Agree.start (legal_of_createdFirst hcreated hranges)
  exact ⟨replies, replies', s, db, hmemory, hpostgres, Machine.length_of_answers hmemory,
    Machine.length_of_answers hpostgres, hsame⟩

/-- Two chains with one dataset: the rollback of one leaves the other alone. -/
def twoChains : List StoreCall :=
  [.readOrCreate 46 "evm.logs" 5, .readOrCreate 1 "evm.logs" 7,
    .upsertBlockAnchors [⟨46, "evm.logs", 6, "0xbb", none, .latest⟩,
      ⟨46, "evm.logs", 5, "0xaa", none, .latest⟩, ⟨1, "evm.logs", 6, "0xcc", none, .latest⟩],
    .advance 46 "evm.logs" 7, .readBlockAnchors 46 "evm.logs" 0 9,
    .rollbackLegacyFrom 46 "evm.logs" 6, .readBlockAnchors 1 "evm.logs" 6 6,
    .readOrCreate 46 "evm.logs" 0]

theorem answers_inMemory_eq_postgres_iff_twoChains :
    ∃ replies s db, CheckpointStore.inMemory.machine.answers .empty twoChains = some (replies, s) ∧
      (CheckpointStore.postgres Postgres.legacyStore).machine.answers .empty twoChains =
        some (replies, db) ∧ replies.length = 8 := by
  have hcreated : CreatedFirst twoChains := by
    simp only [CreatedFirst, twoChains, legal_cons, legal_nil, StoreCall.Touches]
    grind
  have hdigits : ∀ n ≤ 9, ∀ m < n, Postgres.legacyStore.blockNumberLe m n = true := by decide +kernel
  have hsame : Legal (SortsAlike Postgres.legacyStore) twoChains := by
    simp only [twoChains, legal_cons, legal_nil, SortsAlike, and_true, true_and]
    constructor
    · intro m n _ hlt hto _ _
      exact hdigits n hto m hlt
    · intro m n _ hlt hto _ _
      exact hdigits n (by omega) m hlt
  obtain ⟨replies, replies', s, db, hmemory, hpostgres, hlength, -, hiff⟩ :=
    answers_inMemory_eq_postgres_iff Postgres.legacyStore twoChains hcreated
      (by simp [twoChains, StoreCall.RangeAscends])
  obtain rfl := hiff.mpr hsame
  exact ⟨replies, s, db, hmemory, hpostgres, hlength⟩

def anchorNine : BlockAnchor := ⟨46, "evm.logs", 9, "0xaa", none, .latest⟩

def anchorTen : BlockAnchor := ⟨46, "evm.logs", 10, "0xbb", none, .latest⟩

/-- The anchors of blocks 9 and 10 are stored and read. -/
def tenAfterNine : List StoreCall :=
  [.readOrCreate 46 "evm.logs" 5, .upsertBlockAnchors [anchorNine, anchorTen],
    .readBlockAnchors 46 "evm.logs" 0 20]

/-- PostgreSQL answers with block 10 before block 9, so the answers differ. -/
theorem ten_before_nine :
    CreatedFirst tenAfterNine ∧ (∀ call ∈ tenAfterNine, call.RangeAscends) ∧
      (CheckpointStore.inMemory.machine.answers .empty tenAfterNine).map (·.1) =
        some [.checkpoint ⟨46, "evm.logs", 5⟩, .done, .anchors [anchorNine, anchorTen]] ∧
      ((CheckpointStore.postgres Postgres.legacyStore).machine.answers .empty tenAfterNine).map (·.1) =
        some [.checkpoint ⟨46, "evm.logs", 5⟩, .done, .anchors [anchorTen, anchorNine]] ∧
      (CheckpointStore.inMemory.machine.answers .empty tenAfterNine).map (·.1) ≠
        ((CheckpointStore.postgres Postgres.legacyStore).machine.answers .empty tenAfterNine).map (·.1) := by
  have hmemory : (CheckpointStore.inMemory.machine.answers .empty tenAfterNine).map (·.1) =
      some [.checkpoint ⟨46, "evm.logs", 5⟩, .done, .anchors [anchorNine, anchorTen]] := by
    decide +kernel
  have hpostgres : ((CheckpointStore.postgres Postgres.legacyStore).machine.answers .empty
      tenAfterNine).map (·.1) =
        some [.checkpoint ⟨46, "evm.logs", 5⟩, .done, .anchors [anchorTen, anchorNine]] := by
    decide +kernel
  refine ⟨?_, by simp [tenAfterNine, StoreCall.RangeAscends], hmemory, hpostgres, ?_⟩
  · simp only [CreatedFirst, tenAfterNine, anchorNine, anchorTen, legal_cons, legal_nil,
      StoreCall.Touches]
    grind
  · rw [hmemory, hpostgres]
    decide

end OrmpIndexer
