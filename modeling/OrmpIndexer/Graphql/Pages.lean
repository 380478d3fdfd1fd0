/-
# OrmpIndexer.Graphql.Pages — pages partition the result, if no ties cross a page boundary

A client asks for page after page, and each request is answered by a server that breaks ties as it likes.
`queryPage_pages_iff` says when the pages are the matching rows, each once and sorted: exactly if no ties
of the ORDER BY stand on both sides of a page boundary. An order that contains the id has no ties
(`noTieAt_of_id`), and the order used when none is given does; an order of the client's own may be
without it, and rows are then lost and repeated (`ties_repeat_rows`).
-/
import OrmpIndexer.Graphql.Validity

namespace OrmpIndexer.Graphql

open Foundation Foundation.Sql QueryBuilder

/-! ## Orders of rows -/

section

variable (pg : Postgres)

/-- One order, by the values of its column. -/
def orderLe (order : LegacyOrderByInput) (a b : Row) : Bool :=
  if order.descending then valueLe pg (b order.column) (a order.column)
  else valueLe pg (a order.column) (b order.column)

def ordersLe (orders : List LegacyOrderByInput) : Row → Row → Bool :=
  lexicographicAll (orders.map (orderLe pg))

theorem scalarLe_total (a b : Scalar) : (scalarLe pg a b || scalarLe pg b a) = true := by
  cases a <;> cases b <;> simp only [scalarLe, Bool.or_true, Bool.true_or]
  · exact pg.collate_total _ _
  · simpa using Rat.le_total
  · simpa using Int.le_total _ _
  · simp only [Bool.or_eq_true, Bool.not_eq_true']
    rename_i a b
    cases a <;> simp

theorem scalarLe_trans (a b c : Scalar) (hab : scalarLe pg a b = true)
    (hbc : scalarLe pg b c = true) : scalarLe pg a c = true := by
  cases a <;> cases b <;> cases c <;> simp_all only [scalarLe, Bool.false_eq_true]
  · exact pg.collate_trans _ _ _ hab hbc
  · simp only [decide_eq_true_eq] at hab hbc ⊢
    exact Rat.le_trans hab hbc
  · simp only [decide_eq_true_eq] at hab hbc ⊢
    exact Int.le_trans hab hbc
  · rename_i a b c
    cases a <;> cases b <;> simp_all

theorem scalarLe_antisymm {a b : Scalar} (hab : scalarLe pg a b = true)
    (hba : scalarLe pg b a = true) : a = b := by
  cases a <;> cases b <;> simp_all only [scalarLe, Bool.false_eq_true]
  · rw [pg.collate_antisymm _ _ hab hba]
  · simp only [decide_eq_true_eq] at hab hba
    rw [Rat.le_antisymm hab hba]
  · simp only [decide_eq_true_eq] at hab hba
    rw [Int.le_antisymm hab hba]
  · rename_i a b
    cases a <;> cases b <;> simp_all

theorem valueLe_total (a b : Option Scalar) : (valueLe pg a b || valueLe pg b a) = true := by
  cases a <;> cases b <;> simp [valueLe, scalarLe_total]

theorem valueLe_trans (a b c : Option Scalar) (hab : valueLe pg a b = true)
    (hbc : valueLe pg b c = true) : valueLe pg a c = true := by
  cases a <;> cases b <;> cases c <;> simp_all only [valueLe, Bool.false_eq_true]
  exact scalarLe_trans pg _ _ _ hab hbc

theorem valueLe_antisymm {a b : Option Scalar} (hab : valueLe pg a b = true)
    (hba : valueLe pg b a = true) : a = b := by
  cases a <;> cases b <;> simp_all only [valueLe, Bool.false_eq_true]
  rw [scalarLe_antisymm pg hab hba]

theorem directedLe_total (descending : Bool) (a b : Option Scalar) :
    ((if descending then valueLe pg b a else valueLe pg a b) ||
      (if descending then valueLe pg a b else valueLe pg b a)) = true := by
  split
  · exact valueLe_total pg b a
  · exact valueLe_total pg a b

theorem directedLe_trans (descending : Bool) (a b c : Option Scalar)
    (hab : (if descending then valueLe pg b a else valueLe pg a b) = true)
    (hbc : (if descending then valueLe pg c b else valueLe pg b c) = true) :
    (if descending then valueLe pg c a else valueLe pg a c) = true := by
  by_cases hdescending : descending = true
  · rw [if_pos hdescending] at hab hbc ⊢
    exact valueLe_trans pg c b a hbc hab
  · rw [if_neg hdescending] at hab hbc ⊢
    exact valueLe_trans pg a b c hab hbc

theorem orderLe_total (order : LegacyOrderByInput) (a b : Row) :
    (orderLe pg order a b || orderLe pg order b a) = true :=
  directedLe_total pg order.descending (a order.column) (b order.column)

theorem orderLe_trans (order : LegacyOrderByInput) (a b c : Row)
    (hab : orderLe pg order a b = true) (hbc : orderLe pg order b c = true) :
    orderLe pg order a c = true :=
  directedLe_trans pg order.descending _ (b order.column) _ hab hbc

theorem ordersLe_total (orders : List LegacyOrderByInput) :
    ∀ a b, (ordersLe pg orders a b || ordersLe pg orders b a) = true :=
  lexicographicAll_total (List.forall_mem_map.mpr fun order _ => orderLe_total pg order)

theorem ordersLe_trans (orders : List LegacyOrderByInput) :
    ∀ a b c, ordersLe pg orders a b = true → ordersLe pg orders b c = true →
      ordersLe pg orders a c = true :=
  lexicographicAll_trans (List.forall_mem_map.mpr fun order _ => orderLe_trans pg order)

end

/-! ## Rows in the order of the keys -/

section

variable (pg : Postgres) {table : LegacyTable} {where_ : Option LegacyWhereInput}
  {orderBy : Option (List LegacyOrderByInput)}

/-- The rows of the table are typed as declared, and their ids are different. -/
structure TableContent (table : LegacyTable) (rows : List Row) : Prop where
  typed : ∀ row ∈ rows, ∀ column ∈ table.columns, ∀ v, row column.1 = some v → v.type = column.2
  primaryKey : (rows.map (· "id")).Nodup

/-- An order that is not qualified is by a text, which the output does not change. -/
theorem sortKey_value {rows : List Row} (hcontent : TableContent table rows) {row : Row}
    (hrow : row ∈ rows) {order : LegacyOrderByInput}
    (horder : order.column ∈ table.columns.map (·.1)) :
    (order.sortKey table).value pg row = row order.column := by
  by_cases hqualify : order.key.2.2 = true
  · simp only [SortKey.value, LegacyOrderByInput.sortKey, hqualify, if_true]
  · have htext : filterType order.column = .text := by
      revert hqualify
      cases order <;> decide
    have hcolumn := DeclaredAs.mem (type_eq_filterType table) horder htext
    have hkey : (order.sortKey table).qualifier = none := by
      simp [LegacyOrderByInput.sortKey, hqualify]
    have hname : (order.sortKey table).column = order.column := rfl
    rw [SortKey.value, hkey, hname]
    cases hvalue : row order.column with
    | none => rfl
    | some v =>
        have htype := hcontent.typed row hrow _ hcolumn v hvalue
        cases v with
        | numeric value => cases htype
        | text value => rfl
        | integer value => rfl
        | boolean value => rfl

/-- The statement is sorted by the order that was asked for. -/
theorem keysLe_eq (hvalid : ValidRequest pg table where_ orderBy) {rows : List Row}
    (hcontent : TableContent table rows) {a b : Row} (ha : a ∈ rows) (hb : b ∈ rows) :
    keysLe pg ((effectiveOrder orderBy).map (·.sortKey table)) a b =
      ordersLe pg (effectiveOrder orderBy) a b := by
  rw [keysLe, List.map_map]
  apply lexicographicAll_congr
  intro order horder
  have hcolumn := effectiveOrder_valid_iff.mpr hvalid.orderBy order horder
  have hva := sortKey_value pg hcontent ha hcolumn
  have hvb := sortKey_value pg hcontent hb hcolumn
  constructor
  · show SortKey.le pg _ a b = _
    rw [SortKey.le, hva, hvb]
    rfl
  · show SortKey.le pg _ b a = _
    rw [SortKey.le, hva, hvb]
    rfl

/-! ## Answers to page requests -/

open Classical in
/-- The rows the filter asks for, in no order of their own. -/
noncomputable def matching (where_ : Option LegacyWhereInput) (rows : List Row) : List Row :=
  rows.filter fun row => Asked pg where_ row

theorem sortKey_le_total (key : SortKey) (a b : Row) : (key.le pg a b || key.le pg b a) = true :=
  directedLe_total pg key.descending (key.value pg a) (key.value pg b)

theorem sortKey_le_trans (key : SortKey) (a b c : Row) (hab : key.le pg a b = true)
    (hbc : key.le pg b c = true) : key.le pg a c = true :=
  directedLe_trans pg key.descending _ (key.value pg b) _ hab hbc

theorem filter_selects {clauses : Clauses} {rows : List Row}
    (h : ∀ row, clauses.selects pg row = true ↔ Asked pg where_ row) :
    rows.filter (clauses.selects pg) = matching pg where_ rows := by
  apply List.filter_congr
  intro row _
  exact Bool.eq_iff_iff.mpr ((h row).trans (@decide_eq_true_iff _ (Classical.propDecidable _)).symm)

theorem TableContent.matching {rows : List Row} (h : TableContent table rows) :
    TableContent table (matching pg where_ rows) where
  typed row hrow := h.typed row (List.mem_filter.mp hrow).1
  primaryKey := h.primaryKey.sublist (List.filter_sublist.map _)

variable {pg}

theorem pageArgs_of_le {limit k : Nat} (hpos : 0 < limit) (hmax : limit ≤ 1000) :
    pageArgs (some (k * limit : Nat)) (some limit) = (((k * limit : Nat) : Int), (limit : Int)) ∧
      (limit : Int) ≠ 0 := by
  unfold pageArgs MAX_PAGE_LIMIT
  simp only [Option.getD_some, Prod.mk.injEq]
  omega

/-- A page request is the count and the page. -/
theorem queryPage_eq {connection : Connection} {limit k count : Nat} {items : List Row}
    (hpos : 0 < limit) (hmax : limit ≤ 1000)
    (hcount : connection.fetchCount (pushWhere (.new (.count table)) where_) = .ok count)
    (hfetch : connection.fetchAll (pageStatement table where_ orderBy (k * limit : Nat) limit) =
      .ok items) :
    queryPage connection table where_ orderBy (some (k * limit : Nat)) (some limit) =
      .ok ⟨count, (k * limit : Nat), limit, items⟩ := by
  obtain ⟨hargs, hlimit⟩ := pageArgs_of_le (k := k) hpos hmax
  rw [queryPage, hargs]
  show (countRows connection table where_ >>= _) = _
  rw [countRows, hcount]
  show (if (limit : Int) = 0 then _ else
    connection.fetchAll (pageStatement table where_ orderBy (k * limit : Nat) limit) >>= _) = _
  rw [if_neg hlimit, hfetch]
  rfl

/-- The page request that is answered from an arrangement. -/
def AnsweredFrom (pg : Postgres) (connection : Connection) (table : LegacyTable)
    (where_ : Option LegacyWhereInput) (orderBy : Option (List LegacyOrderByInput))
    (rows sorted : List Row) (limit k : Nat) : Prop :=
  queryPage connection table where_ orderBy (some (k * limit : Nat)) (some limit) =
    .ok ⟨(matching pg where_ rows).length, (k * limit : Nat), limit, page limit k sorted⟩

/-- An honest server answers from some arrangement of the matching rows. -/
theorem answeredFrom_of_honest (hvalid : ValidRequest pg table where_ orderBy)
    {content : LegacyTable → List Row} (hcontent : TableContent table (content table))
    {connection : Connection} (hhonest : connection.Honest pg content) {limit : Nat}
    (hpos : 0 < limit) (hmax : limit ≤ 1000) (k : Nat) :
    ∃ sorted, Arranges (ordersLe pg (effectiveOrder orderBy))
        (matching pg where_ (content table)) sorted ∧
      AnsweredFrom pg connection table where_ orderBy (content table) sorted limit k := by
  obtain ⟨clauses, hread, hclauses, hselects, horder, hwindow⟩ :=
    pageStatement_reads pg hvalid (k * limit : Nat) (limit : Int)
  obtain ⟨countClauses, hcountRead, hcountValid, hcountSelects⟩ := countStatement_reads pg hvalid
  obtain ⟨sorted, harranges, hfetch⟩ := hhonest.fetchAll table _ clauses hread.reads hclauses
  have hcount := hhonest.fetchCount table _ countClauses hcountRead.reads hcountValid
  rw [filter_selects pg hcountSelects, ← hcountRead.eq] at hcount
  rw [filter_selects pg hselects, horder] at harranges
  rw [← hread.eq, Clauses.slice, hwindow] at hfetch
  refine ⟨sorted, ?_, queryPage_eq hpos hmax hcount hfetch⟩
  exact (Arranges.congr fun a ha b hb =>
    keysLe_eq pg hvalid (hcontent.matching pg) ha hb).mp harranges

open Classical in
/-- A server that answers with this arrangement wherever it is one. -/
noncomputable def arranging (pg : Postgres) (content : LegacyTable → List Row) (sorted : List Row) :
    Connection where
  fetchAll query :=
    match query.selection, readClauses (lex query.sql) with
    | .rows table, some clauses =>
        let rows := (content table).filter (clauses.selects pg)
        let le := keysLe pg clauses.orderBy
        .ok (clauses.slice (if Arranges le rows sorted then sorted else rows.mergeSort le))
    | _, _ => .error ["no such statement"]
  fetchCount query :=
    match query.selection, readClauses (lex query.sql) with
    | .count table, some clauses => .ok ((content table).filter (clauses.selects pg)).length
    | _, _ => .error ["no such statement"]

theorem honest_arranging (pg : Postgres) (content : LegacyTable → List Row) (sorted : List Row) :
    (arranging pg content sorted).Honest pg content where
  fetchAll table text clauses hread _ := by
    classical
    have htrans := @lexicographicAll_trans _ (clauses.orderBy.map (·.le pg))
      (List.forall_mem_map.mpr fun key _ => sortKey_le_trans pg key)
    have htotal := @lexicographicAll_total _ (clauses.orderBy.map (·.le pg))
      (List.forall_mem_map.mpr fun key _ => sortKey_le_total pg key)
    refine ⟨_, ?_, by simp only [arranging, hread]; rfl⟩
    split
    · assumption
    · exact ⟨List.mergeSort_perm _ _, List.pairwise_mergeSort htrans htotal _⟩
  fetchCount table text clauses hread _ := by
    simp only [arranging, hread]

/-- Every arrangement of the matching rows is what some honest server answers from. -/
theorem answeredFrom_arranging (hvalid : ValidRequest pg table where_ orderBy)
    {content : LegacyTable → List Row} (hcontent : TableContent table (content table))
    {sorted : List Row} (hsorted : Arranges (ordersLe pg (effectiveOrder orderBy))
      (matching pg where_ (content table)) sorted) {limit : Nat} (hpos : 0 < limit)
    (hmax : limit ≤ 1000) (k : Nat) :
    AnsweredFrom pg (arranging pg content sorted) table where_ orderBy (content table) sorted limit
      k := by
  obtain ⟨clauses, hread, _, hselects, horder, hwindow⟩ :=
    pageStatement_reads pg hvalid (k * limit : Nat) (limit : Int)
  obtain ⟨countClauses, hcountRead, _, hcountSelects⟩ := countStatement_reads pg hvalid
  have harranges : Arranges (keysLe pg clauses.orderBy) ((content table).filter (clauses.selects pg))
      sorted := by
    rw [horder, filter_selects pg hselects]
    exact (Arranges.congr fun a ha b hb =>
      keysLe_eq pg hvalid (hcontent.matching pg) ha hb).mpr hsorted
  apply queryPage_eq hpos hmax
  · rw [hcountRead.eq]
    simp only [arranging, hcountRead.reads, filter_selects pg hcountSelects]
  · rw [hread.eq]
    simp only [arranging, hread.reads]
    rw [if_pos harranges, Clauses.slice, hwindow]
    rfl

/-! ## Page after page -/

/-- What the pages are that such servers answer with. -/
theorem items_of_arranging (hvalid : ValidRequest pg table where_ orderBy)
    {content : LegacyTable → List Row} (hcontent : TableContent table (content table))
    {answers : Nat → List Row} (hanswers : ∀ k, Arranges (ordersLe pg (effectiveOrder orderBy))
      (matching pg where_ (content table)) (answers k)) {limit : Nat} (hpos : 0 < limit)
    (hmax : limit ≤ 1000) {results : Nat → Page}
    (hresults : ∀ k, queryPage (arranging pg content (answers k)) table where_ orderBy
      (some (k * limit : Nat)) (some limit) = .ok (results k)) (k : Nat) :
    (results k).items = page limit k (answers k) := by
  have hanswered := answeredFrom_arranging hvalid hcontent (hanswers k) hpos hmax k
  rw [AnsweredFrom, hresults k] at hanswered
  rw [Except.ok.inj hanswered]

/-- Pages of requests to servers that each break ties in their own way are the matching rows, each once
and sorted, with their number on every page, exactly if no ties stand on both sides of a boundary. -/
theorem queryPage_pages_iff (hvalid : ValidRequest pg table where_ orderBy)
    {content : LegacyTable → List Row} (hcontent : TableContent table (content table))
    {limit n : Nat} (hpos : 0 < limit) (hmax : limit ≤ 1000)
    (hn : (matching pg where_ (content table)).length ≤ n * limit) :
    (∀ connections : Nat → Connection, (∀ k, (connections k).Honest pg content) →
      ∃ results : Nat → Page,
        (∀ k, queryPage (connections k) table where_ orderBy (some (k * limit : Nat)) (some limit) =
            .ok (results k) ∧
          (results k).totalCount = (matching pg where_ (content table)).length) ∧
        Arranges (ordersLe pg (effectiveOrder orderBy)) (matching pg where_ (content table))
          ((List.range n).flatMap fun k => (results k).items)) ↔
      ∀ k, NoTieAt (ordersLe pg (effectiveOrder orderBy)) (matching pg where_ (content table))
        (k * limit) := by
  have hnodup : (matching pg where_ (content table)).Nodup :=
    (hcontent.matching pg).primaryKey.of_map
  rw [← pages_partition_iff (ordersLe_trans pg _) (ordersLe_total pg _) hnodup hpos hn]
  constructor
  · intro hpages answers hanswers
    obtain ⟨results, hresults, harranges⟩ := hpages (fun k => arranging pg content (answers k))
      fun k => honest_arranging pg content (answers k)
    have hitems := items_of_arranging hvalid hcontent hanswers hpos hmax fun k => (hresults k).1
    simp only [hitems] at harranges
    exact harranges
  · intro hpages connections hhonest
    have hanswers := fun k => answeredFrom_of_honest hvalid hcontent (hhonest k) hpos hmax k
    choose answers harranges hanswered using hanswers
    exact ⟨fun k => ⟨_, _, _, page limit k (answers k)⟩, fun k => ⟨hanswered k, rfl⟩,
      hpages answers harranges⟩

/-- An order that contains the id has no ties. -/
theorem noTieAt_of_id (pg : Postgres) {rows : List Row} (hcontent : TableContent table rows)
    {orders : List LegacyOrderByInput} {order : LegacyOrderByInput} (horder : order ∈ orders)
    (hid : order.column = "id") (m : Nat) : NoTieAt (ordersLe pg orders) rows m := by
  apply noTieAt_of_no_ties (ordersLe_trans pg orders) (ordersLe_total pg orders)
    hcontent.primaryKey.of_map
  intro a ha b hb hab hba
  have hties := ties_of_lexicographicAll hab hba _ (List.mem_map_of_mem horder)
  have hvalue : a order.column = b order.column := by
    unfold orderLe at hties
    split at hties
    · exact valueLe_antisymm pg hties.2 hties.1
    · exact valueLe_antisymm pg hties.1 hties.2
  rw [hid] at hvalue
  exact List.inj_on_of_nodup_map hcontent.primaryKey ha hb hvalue

/-- So the pages of a request without an order fit together. -/
theorem noTieAt_default (pg : Postgres) {rows : List Row} (hcontent : TableContent table rows)
    (m : Nat) : NoTieAt (ordersLe pg (effectiveOrder none)) rows m :=
  noTieAt_of_id pg hcontent (show .idAsc ∈ effectiveOrder none by simp [effectiveOrder]) rfl m

/-! ## Messages of one block and of two -/

/-- A message dispatched in a block. -/
def dispatched (blockNumber : Rat) (id : String) : Row
  | "id" => some (.text id)
  | "block_number" => some (.numeric blockNumber)
  | "transaction_hash" => some (.text "0x9f")
  | "block_timestamp" => some (.numeric 1700000000000)
  | "chain_id" => some (.numeric 46)
  | "target_chain_id" => some (.numeric 46)
  | "msg_hash" => some (.text id)
  | "dispatch_result" => some (.boolean true)
  | _ => none

def oneBlock : LegacyTable → List Row
  | .ormpMessageDispatched => [dispatched 7 "0x01", dispatched 7 "0x02"]
  | _ => []

/-- The two messages of block 7 fill a page. -/
def twoBlocks : LegacyTable → List Row
  | .ormpMessageDispatched => [dispatched 8 "0x03", dispatched 7 "0x01", dispatched 7 "0x02"]
  | _ => []

theorem validRequest_byBlock :
    ValidRequest codePoints .ormpMessageDispatched none (some [.blockNumberAsc]) where
  where_ w hw := by cases hw
  orderBy orders horders order horder := by
    obtain rfl := Option.some.inj horders
    rw [List.mem_singleton.mp horder]
    decide

theorem tableContent_dispatched {rows : List Row}
    (h : ∀ row ∈ rows, ∃ blockNumber id, row = dispatched blockNumber id)
    (hids : (rows.map (· "id")).Nodup) : TableContent .ormpMessageDispatched rows where
  typed row hrow column hcolumn v hv := by
    obtain ⟨blockNumber, id, rfl⟩ := h row hrow
    simp only [LegacyTable.columns, List.mem_cons, List.not_mem_nil, or_false] at hcolumn
    rcases hcolumn with rfl | rfl | rfl | rfl | rfl | rfl | rfl | rfl <;>
    · obtain rfl := Option.some.inj hv
      rfl
  primaryKey := hids

theorem tableContent_oneBlock :
    TableContent .ormpMessageDispatched (oneBlock .ormpMessageDispatched) :=
  tableContent_dispatched (by simp [oneBlock]) (by decide)

theorem tableContent_twoBlocks :
    TableContent .ormpMessageDispatched (twoBlocks .ormpMessageDispatched) :=
  tableContent_dispatched (by simp [twoBlocks]) (by decide)

theorem matching_none (pg : Postgres) (rows : List Row) : matching pg none rows = rows := by
  simp [matching, Asked]

/-- The ties of block 7 stand on one page. -/
theorem noTieAt_twoBlocks (k : Nat) :
    NoTieAt (ordersLe codePoints (effectiveOrder (some [.blockNumberAsc])))
      (matching codePoints none (twoBlocks .ormpMessageDispatched)) (k * 2) := by
  have hplaces : ∀ a ∈ twoBlocks .ormpMessageDispatched,
      let le := ordersLe codePoints (effectiveOrder (some [.blockNumberAsc]))
      let rows := twoBlocks .ormpMessageDispatched
      before le rows a = 0 ∧ through le rows a = 2 ∨ before le rows a = 2 ∧ through le rows a = 3 := by
    decide +kernel
  rw [matching_none]
  intro a ha
  have hplace := hplaces a ha
  dsimp only at hplace
  omega

/-- Whoever answers the two requests, the three messages are on the two pages. -/
theorem queryPage_pages_iff_twoBlocks :
    (twoBlocks .ormpMessageDispatched).length = 3 ∧
    ∀ connections : Nat → Connection, (∀ k, (connections k).Honest codePoints twoBlocks) →
      ∃ results : Nat → Page,
        (∀ k, queryPage (connections k) .ormpMessageDispatched none (some [.blockNumberAsc])
            (some (k * 2 : Nat)) (some (2 : Nat)) = .ok (results k) ∧
          (results k).totalCount =
            (matching codePoints none (twoBlocks .ormpMessageDispatched)).length) ∧
        Arranges (ordersLe codePoints (effectiveOrder (some [.blockNumberAsc])))
          (matching codePoints none (twoBlocks .ormpMessageDispatched))
          ((List.range 2).flatMap fun k => (results k).items) :=
  ⟨rfl, (queryPage_pages_iff validRequest_byBlock tableContent_twoBlocks (by decide) (by decide)
    (by rw [matching_none]; decide)).mpr noTieAt_twoBlocks⟩

/-- Two messages of one block, one on a page: the second page may repeat the first one, and then the
other message is on none. -/
theorem ties_repeat_rows :
    ValidRequest codePoints .ormpMessageDispatched none (some [.blockNumberAsc]) ∧
    TableContent .ormpMessageDispatched (oneBlock .ormpMessageDispatched) ∧
    ¬∀ connections : Nat → Connection, (∀ k, (connections k).Honest codePoints oneBlock) →
      ∃ results : Nat → Page,
        (∀ k, queryPage (connections k) .ormpMessageDispatched none (some [.blockNumberAsc])
            (some (k * 1 : Nat)) (some (1 : Nat)) = .ok (results k) ∧
          (results k).totalCount = (matching codePoints none (oneBlock .ormpMessageDispatched)).length) ∧
        Arranges (ordersLe codePoints [.blockNumberAsc])
          (matching codePoints none (oneBlock .ormpMessageDispatched))
          ((List.range 2).flatMap fun k => (results k).items) := by
  refine ⟨validRequest_byBlock, tableContent_oneBlock, fun hpages => ?_⟩
  let answers : Nat → List Row
    | 0 => [dispatched 7 "0x01", dispatched 7 "0x02"]
    | _ => [dispatched 7 "0x02", dispatched 7 "0x01"]
  have hanswers : ∀ k, Arranges (ordersLe codePoints (effectiveOrder (some [.blockNumberAsc])))
      (matching codePoints none (oneBlock .ormpMessageDispatched)) (answers k) := by
    intro k
    rw [matching_none]
    have hties : ∀ a b : String, [dispatched 7 a, dispatched 7 b].Pairwise fun x y =>
        ordersLe codePoints (effectiveOrder (some [.blockNumberAsc])) x y = true := by
      intro a b
      simp only [List.pairwise_pair]
      rfl
    cases k with
    | zero => exact ⟨.refl _, hties _ _⟩
    | succ k => exact ⟨.swap _ _ _, hties _ _⟩
  obtain ⟨results, hresults, harranges⟩ := hpages
    (fun k => arranging codePoints oneBlock (answers k))
    fun k => honest_arranging codePoints oneBlock (answers k)
  have hitems := items_of_arranging validRequest_byBlock tableContent_oneBlock hanswers
    (by decide) (by decide) fun k => (hresults k).1
  simp only [hitems, matching_none] at harranges
  have hperm : [dispatched 7 "0x01", dispatched 7 "0x01"].Perm
      [dispatched 7 "0x01", dispatched 7 "0x02"] := harranges.perm
  have hids := (hperm.map (· "id")).nodup_iff.mpr tableContent_oneBlock.primaryKey
  revert hids
  decide

end

end OrmpIndexer.Graphql
