/-
# OrmpIndexer.Graphql.Validity — which requests the database understands

The text of a statement, read from its SELECT to its OFFSET. `statements_valid_iff`: the statements of a
request are valid exactly if its filter and its order are about columns of the queried table and no list
of values is empty. All the tables share one type of filters and one of orders, and an empty list is
written as `IN ()`.
-/
import OrmpIndexer.Graphql.Statement
import OrmpIndexer.Graphql.Where

namespace OrmpIndexer.Graphql

open Foundation Foundation.Sql QueryBuilder

/-! ## What an order asks for -/

def LegacyOrderByInput.column : LegacyOrderByInput → String
  | .idAsc | .idDesc => "id"
  | .blockNumberAsc | .blockNumberDesc => "block_number"
  | .blockTimestampAsc | .blockTimestampDesc => "block_timestamp"
  | .chainIdAsc | .chainIdDesc => "chain_id"
  | .logIndexAsc | .logIndexDesc => "log_index"
  | .transactionIndexAsc | .transactionIndexDesc => "transaction_index"
  | .msgHashAsc | .msgHashDesc => "msg_hash"
  | .msgIdAsc | .msgIdDesc => "msg_id"
  | .indexAsc | .indexDesc => "index"
  | .msgIndexAsc | .msgIndexDesc => "msg_index"

def LegacyOrderByInput.descending : LegacyOrderByInput → Bool
  | .idDesc | .blockNumberDesc | .blockTimestampDesc | .chainIdDesc | .logIndexDesc
  | .transactionIndexDesc | .msgHashDesc | .msgIdDesc | .indexDesc | .msgIndexDesc => true
  | _ => false

/-- The order used when none is given. -/
def effectiveOrder (orderBy : Option (List LegacyOrderByInput)) : List LegacyOrderByInput :=
  match orderBy.getD [] with
  | [] => [.blockNumberAsc, .idAsc]
  | orders => orders

/-! ## Reading the statement -/

/-- The key an order is written as. -/
def LegacyOrderByInput.sortKey (table : LegacyTable) (order : LegacyOrderByInput) : SortKey where
  qualifier := if order.key.2.2 then some table.name else none
  column := order.column
  descending := order.descending

def SortKey.tokens (key : SortKey) : List Token :=
  (match key.qualifier with | some table => [.name table, .dot] | none => []) ++
    [.name key.column, .name (if key.descending then "DESC" else "ASC")]

theorem lex_tableName (table : LegacyTable) : lex (ofString table.name) = [.name table.name] := by
  cases table <;> rfl

theorem lex_column (order : LegacyOrderByInput) :
    lex (ofString order.key.1) = [.name order.column] := by
  cases order <;> rfl

theorem lex_direction (order : LegacyOrderByInput) :
    lex (ofString order.key.2.1) = [.name (if order.descending then "DESC" else "ASC")] := by
  cases order <;> rfl

theorem ofString_append (a b : String) : ofString (a ++ b) = ofString a ++ ofString b := by
  rw [ofString, String.toList_append, List.map_append]
  rfl

/-- A column and a direction, with a space between them. -/
theorem lex_directed (column direction : String) :
    lex (ofString (column ++ " " ++ direction)) =
      lex (ofString column) ++ lex (ofString direction) := by
  have hspace : endsOpen (ofString column ++ ofString " ") = true := endsOpen_append (by decide)
  rw [ofString_append, ofString_append, lex_append (.inr hspace), lex_append (.inl rfl)]
  show lex (ofString column) ++ [] ++ _ = _
  rw [List.append_nil]

theorem lex_qualified (table column direction : String) :
    lex (ofString (table ++ "." ++ column ++ " " ++ direction)) =
      lex (ofString table) ++ .dot :: (lex (ofString column) ++ lex (ofString direction)) := by
  have hdot : endsOpen (ofString table ++ ofString ".") = true := endsOpen_append (by decide)
  have hassoc : table ++ "." ++ column ++ " " ++ direction =
      table ++ "." ++ (column ++ " " ++ direction) := by simp only [String.append_assoc]
  rw [hassoc, ofString_append, ofString_append, lex_append (.inr hdot), lex_append (.inl rfl),
    lex_directed, List.append_assoc]
  rfl

theorem lex_pushOrder (table : LegacyTable) (order : LegacyOrderByInput) (query : QueryBuilder)
    (hopen : endsOpen query.sql = true) :
    lex (pushOrder table order query).sql =
      lex query.sql ++ (order.sortKey table).tokens := by
  unfold pushOrder
  by_cases hqualify : order.key.2.2 = true
  · simp only [hqualify, if_true]
    rw [lex_push (.inr hopen), lex_qualified, lex_tableName, lex_column, lex_direction]
    simp [SortKey.tokens, LegacyOrderByInput.sortKey, hqualify]
  · simp only [hqualify]
    rw [if_neg (by simp), lex_push (.inr hopen), lex_directed, lex_column, lex_direction]
    simp [SortKey.tokens, LegacyOrderByInput.sortKey, hqualify]

/-- The text without an order is the text of the order that is used then. -/
theorem lex_pushOrderBy (query : QueryBuilder) (table : LegacyTable)
    (orderBy : Option (List LegacyOrderByInput)) :
    lex (pushOrderBy query table orderBy).sql =
      lex query.sql ++ .name "ORDER" :: .name "BY" ::
        chained .comma false
          ((effectiveOrder orderBy).map fun order => (order.sortKey table).tokens) := by
  have hopen : endsOpen (query.push " ORDER BY ").sql = true := endsOpen_push (by decide)
  have hby : lex (query.push " ORDER BY ").sql = lex query.sql ++ [.name "ORDER", .name "BY"] :=
    lex_push (.inl rfl)
  unfold pushOrderBy effectiveOrder
  cases orderBy.getD [] with
  | nil =>
      show lex ((query.push " ORDER BY ").push (table.name ++ ".block_number ASC, id ASC")).sql = _
      have hrest : startsOpen (ofString ".block_number ASC, id ASC") = true := rfl
      rw [lex_push (.inr hopen), hby, ofString_append, lex_append (.inl hrest), lex_tableName,
        List.append_assoc]
      rfl
  | cons order orders =>
      show lex (pushSeparated (order :: orders) (pushOrder table) _).sql = _
      rw [lex_pushSeparated (fun order query => lex_pushOrder table order query) hopen, hby,
        List.append_assoc]
      rfl

theorem lex_pushPage (query : QueryBuilder) (offset limit : Int) :
    lex (pushPage query offset limit).sql =
      lex query.sql ++ [.name "LIMIT", .placeholder (.integer limit), .name "OFFSET",
        .placeholder (.integer offset)] := by
  have hlimit : startsOpen (ofString " LIMIT ") = true := rfl
  have hoffset : startsOpen (ofString " OFFSET ") = true := rfl
  unfold pushPage
  rw [lex_pushBind, lex_push (.inl hoffset), lex_pushBind, lex_push (.inl hlimit)]
  simp only [List.append_assoc]
  rfl

/-- Keys are read up to the LIMIT. -/
theorem readKeys_tokens {keys : List SortKey} (h : keys ≠ []) (rest : List Token) :
    readKeys (chained .comma false (keys.map (·.tokens)) ++ .name "LIMIT" :: rest) =
      some (keys, .name "LIMIT" :: rest) := by
  induction keys with
  | nil => exact absurd rfl h
  | cons key keys ih =>
      obtain ⟨qualifier, column, descending⟩ := key
      cases keys with
      | nil => cases qualifier <;> cases descending <;> rfl
      | cons next keys =>
          have hnext := ih (List.cons_ne_nil next keys)
          have hcomma : chained .comma false ((⟨qualifier, column, descending⟩ :: next :: keys).map
              (·.tokens)) = (SortKey.mk qualifier column descending).tokens ++
                .comma :: chained .comma false ((next :: keys).map (·.tokens)) :=
            chained_false_cons ..
          rw [hcomma, List.append_assoc, List.cons_append]
          cases qualifier <;> cases descending <;>
            · show (readKeys (chained .comma false ((next :: keys).map (·.tokens)) ++
                .name "LIMIT" :: rest) >>= _) = _
              rw [hnext]
              rfl

/-! ## What the statements mean -/

section

variable (pg : Postgres) {table : LegacyTable} {where_ : Option LegacyWhereInput}
  {orderBy : Option (List LegacyOrderByInput)}

/-- The filter is about columns of the table, and so is the order. -/
structure ValidRequest (table : LegacyTable) (where_ : Option LegacyWhereInput)
    (orderBy : Option (List LegacyOrderByInput)) : Prop where
  where_ : ∀ w ∈ where_, w.Every pg.numeric fun test => test.Fits table.columns
  orderBy : ∀ orders ∈ orderBy, ∀ order ∈ orders, order.column ∈ table.columns.map (·.1)

/-- The rows the filter asks for; without one, all of them. -/
def Asked (where_ : Option LegacyWhereInput) (row : Row) : Prop :=
  ∀ w ∈ where_, w.Matches pg.numeric row

/-- What the tokens of a WHERE clause are read as: a condition that selects the rows asked for, none, or
nothing that can be read. -/
structure Selects (where_ : Option LegacyWhereInput) (tokens : List Token)
    (read : Option (Option Cond)) : Prop where
  reads : ∀ rest, rest.head? ≠ some .cast → rest.head? ≠ some .and → rest.head? ≠ some .or →
    rest.head? ≠ some (.name "WHERE") →
    readClauses (tokens ++ rest) = read.bind fun condition => readOrder condition rest
  typed : ∀ table : LegacyTable, (∃ condition ∈ read, ∀ c ∈ condition, c.Typed table.columns) ↔
    ∀ w ∈ where_, w.Every pg.numeric fun test => test.Fits table.columns
  selects : ∀ condition ∈ read, ∀ row,
    (condition.all fun c => c.eval pg.numeric row = .holds) = true ↔ Asked pg where_ row

theorem readClauses_of_head {rest : List Token} (h : rest.head? ≠ some (.name "WHERE")) :
    readClauses rest = readOrder none rest := by
  unfold readClauses
  split
  · exact absurd rfl h
  · rfl

/-- The text pushed for the filter, whatever it is pushed to. -/
theorem pushWhere_selection (where_ : Option LegacyWhereInput) (query : QueryBuilder) :
    ∃ tokens read, Selects pg where_ tokens read ∧
      lex (pushWhere query where_).sql = lex query.sql ++ tokens ∧
      (pushWhere query where_).selection = query.selection := by
  cases where_ with
  | none =>
      refine ⟨[], some none, ⟨fun rest _ _ _ hrest => readClauses_of_head hrest, ?_, ?_⟩,
        (List.append_nil _).symm, rfl⟩
      · simp
      · rintro _ ⟨⟩ row
        simp [Asked]
  | some w =>
      obtain ⟨tokens, read, hreads, hlex, hselection⟩ := pushWhere_reads pg.numeric w query
      refine ⟨.name "WHERE" :: tokens, read.map some, ⟨?_, ?_, ?_⟩, hlex, hselection⟩
      · intro rest hcast hand hor _
        show (readCondition (tokens ++ rest) >>= _) = _
        rw [hreads.disj.readCondition hcast hand hor]
        cases read <;> rfl
      · intro table
        have htyped := hreads.typed table.columns (type_eq_filterType table)
        simpa using htyped
      · intro condition hcondition row
        obtain ⟨c, hc, rfl⟩ := Option.map_eq_some_iff.mp hcondition
        simp [Asked, hreads.eval c hc row]

theorem pushOrderBy_selection (query : QueryBuilder) :
    (pushOrderBy query table orderBy).selection = query.selection := by
  unfold pushOrderBy
  dsimp only
  split
  · rfl
  · rw [pushSeparated_selection]
    · rfl
    · intro order query
      unfold pushOrder
      dsimp only
      split <;> rfl

/-- The order used when none is given is by columns every table has. -/
theorem effectiveOrder_valid_iff : (∀ order ∈ effectiveOrder orderBy,
    order.column ∈ table.columns.map (·.1)) ↔
      ∀ orders ∈ orderBy, ∀ order ∈ orders, order.column ∈ table.columns.map (·.1) := by
  have hdefault : "block_number" ∈ table.columns.map (·.1) ∧ "id" ∈ table.columns.map (·.1) := by
    cases table <;> decide
  have hnone : ∀ order ∈ [LegacyOrderByInput.blockNumberAsc, .idAsc],
      order.column ∈ table.columns.map (·.1) :=
    List.forall_mem_cons.mpr ⟨hdefault.1, List.forall_mem_singleton.mpr hdefault.2⟩
  unfold effectiveOrder
  cases orderBy with
  | none => simpa using hnone
  | some orders =>
      cases orders with
      | nil => simpa using hnone
      | cons first orders => simp

/-- The tokens after the WHERE clause. -/
def pageTokens (table : LegacyTable) (orderBy : Option (List LegacyOrderByInput))
    (offset limit : Int) : List Token :=
  .name "ORDER" :: .name "BY" :: (chained .comma false
      ((effectiveOrder orderBy).map fun order => (order.sortKey table).tokens) ++
    [.name "LIMIT", .placeholder (.integer limit), .name "OFFSET", .placeholder (.integer offset)])

/-- The clauses of a page. -/
def pageClauses (table : LegacyTable) (orderBy : Option (List LegacyOrderByInput))
    (offset limit : Int) (condition : Option Cond) : Clauses where
  condition := condition
  orderBy := (effectiveOrder orderBy).map (·.sortKey table)
  window := some (limit, offset)

theorem readOrder_pageTokens (condition : Option Cond) (offset limit : Int) :
    readOrder condition (pageTokens table orderBy offset limit) =
      some (pageClauses table orderBy offset limit condition) := by
  have hkeys : (effectiveOrder orderBy).map (·.sortKey table) ≠ [] := by
    unfold effectiveOrder
    split
    · simp
    · rename_i h
      simpa using h
  have hread : readKeys (chained .comma false ((effectiveOrder orderBy).map fun order =>
      (order.sortKey table).tokens) ++ [.name "LIMIT", .placeholder (.integer limit),
        .name "OFFSET", .placeholder (.integer offset)]) =
      some ((effectiveOrder orderBy).map (·.sortKey table), [.name "LIMIT",
        .placeholder (.integer limit), .name "OFFSET", .placeholder (.integer offset)]) := by
    have h := readKeys_tokens hkeys
      [.placeholder (.integer limit), .name "OFFSET", .placeholder (.integer offset)]
    rw [List.map_map] at h
    exact h
  rw [pageTokens, readOrder, hread]
  rfl

/-- The text of a page, pushed to whatever it starts with. -/
theorem page_selection (where_ : Option LegacyWhereInput) (table : LegacyTable)
    (orderBy : Option (List LegacyOrderByInput)) (offset limit : Int) (query : QueryBuilder) :
    ∃ tokens read, Selects pg where_ tokens read ∧
      lex (pushPage (pushOrderBy (pushWhere query where_) table orderBy) offset limit).sql =
        lex query.sql ++ (tokens ++ pageTokens table orderBy offset limit) ∧
      (pushPage (pushOrderBy (pushWhere query where_) table orderBy) offset limit).selection =
        query.selection ∧
      readClauses (tokens ++ pageTokens table orderBy offset limit) =
        read.map (pageClauses table orderBy offset limit) := by
  obtain ⟨tokens, read, hselects, hlex, hselection⟩ := pushWhere_selection pg where_ query
  refine ⟨tokens, read, hselects, ?_, (pushOrderBy_selection _).trans hselection, ?_⟩
  · rw [lex_pushPage, lex_pushOrderBy, hlex]
    simp only [pageTokens, List.append_assoc, List.cons_append]
  · rw [hselects.reads _ (by simp [pageTokens]) (by simp [pageTokens]) (by simp [pageTokens])
      (by simp [pageTokens])]
    cases read with
    | none => rfl
    | some condition => exact readOrder_pageTokens condition offset limit

theorem pageClauses_valid_iff {condition : Option Cond} (offset limit : Int) :
    (pageClauses table orderBy offset limit condition).Valid table ↔
      (∀ c ∈ condition, c.Typed table.columns) ∧
        ∀ orders ∈ orderBy, ∀ order ∈ orders, order.column ∈ table.columns.map (·.1) := by
  have hqualifier : ∀ order : LegacyOrderByInput,
      ∀ qualifier ∈ (order.sortKey table).qualifier, qualifier = table.name := by
    intro order qualifier h
    simp only [LegacyOrderByInput.sortKey] at h
    split at h
    · exact (Option.some.inj h).symm
    · cases h
  constructor
  · rintro ⟨hcondition, horder⟩
    refine ⟨hcondition, effectiveOrder_valid_iff.mp fun order hmem => ?_⟩
    exact (horder _ (List.mem_map_of_mem hmem)).1
  · rintro ⟨hcondition, horder⟩
    refine ⟨hcondition, List.forall_mem_map.mpr fun order hmem => ⟨?_, hqualifier order⟩⟩
    exact effectiveOrder_valid_iff.mpr horder order hmem

/-- The clauses of a page are read and valid if the request is. -/
theorem page_valid_iff {tokens : List Token} {read : Option (Option Cond)}
    (h : Selects pg where_ tokens read) (offset limit : Int) :
    (∃ clauses ∈ read.map (pageClauses table orderBy offset limit), clauses.Valid table) ↔
      ValidRequest pg table where_ orderBy := by
  have htyped := h.typed table
  constructor
  · rintro ⟨clauses, hclauses, hvalid⟩
    obtain ⟨condition, hcondition, rfl⟩ := Option.map_eq_some_iff.mp hclauses
    obtain ⟨hwhere, horder⟩ := (pageClauses_valid_iff offset limit).mp hvalid
    exact ⟨htyped.mp ⟨condition, hcondition, hwhere⟩, horder⟩
  · intro hvalid
    obtain ⟨condition, hcondition, hwhere⟩ := htyped.mpr hvalid.where_
    exact ⟨_, Option.map_eq_some_iff.mpr ⟨condition, hcondition, rfl⟩,
      (pageClauses_valid_iff offset limit).mpr ⟨hwhere, hvalid.orderBy⟩⟩

/-- The clauses of a count. -/
def countClauses (condition : Option Cond) : Clauses := ⟨condition, [], none⟩

theorem readClauses_count {tokens : List Token} {read : Option (Option Cond)}
    (h : Selects pg where_ tokens read) : readClauses tokens = read.map countClauses := by
  have hread := h.reads [] (by simp) (by simp) (by simp) (by simp)
  rw [List.append_nil] at hread
  rw [hread]
  cases read <;> rfl

theorem count_valid_iff {tokens : List Token} {read : Option (Option Cond)}
    (h : Selects pg where_ tokens read) :
    (∃ clauses ∈ read.map countClauses, clauses.Valid table) ↔ ValidRequest pg table where_ none := by
  have htyped := h.typed table
  constructor
  · rintro ⟨clauses, hclauses, hvalid⟩
    obtain ⟨condition, hcondition, rfl⟩ := Option.map_eq_some_iff.mp hclauses
    exact ⟨htyped.mp ⟨condition, hcondition, hvalid.condition⟩, by simp⟩
  · intro hvalid
    obtain ⟨condition, hcondition, hwhere⟩ := htyped.mpr hvalid.where_
    exact ⟨_, Option.map_eq_some_iff.mpr ⟨condition, hcondition, rfl⟩, hwhere, by simp [countClauses]⟩

/-! ## Statements without their SELECT -/

/-- The statement of a page. -/
def pageStatement (table : LegacyTable) (where_ : Option LegacyWhereInput)
    (orderBy : Option (List LegacyOrderByInput)) (offset limit : Int) : QueryBuilder :=
  pushPage (pushOrderBy (pushWhere (.new (.rows table)) where_) table orderBy) offset limit

/-- A statement that is read as these clauses. -/
structure ReadAs (selection : Selection) (query : QueryBuilder) (clauses : Clauses) : Prop where
  selection : query.selection = selection
  reads : readClauses (lex query.sql) = some clauses

theorem ReadAs.eq {selection : Selection} {query : QueryBuilder} {clauses : Clauses}
    (h : ReadAs selection query clauses) : query = ⟨selection, query.sql⟩ := by
  rw [← h.selection]

theorem pageStatement_reads (hvalid : ValidRequest pg table where_ orderBy) (offset limit : Int) :
    ∃ clauses, ReadAs (.rows table) (pageStatement table where_ orderBy offset limit) clauses ∧
      clauses.Valid table ∧ (∀ row, clauses.selects pg row = true ↔ Asked pg where_ row) ∧
      clauses.orderBy = (effectiveOrder orderBy).map (·.sortKey table) ∧
      clauses.window = some (limit, offset) := by
  obtain ⟨tokens, read, hselects, hlex, hselection, hread⟩ :=
    page_selection pg where_ table orderBy offset limit (.new (.rows table))
  obtain ⟨condition, rfl, _⟩ := (hselects.typed table).mpr hvalid.where_
  obtain ⟨_, ⟨⟩, hclauses⟩ := (page_valid_iff pg hselects offset limit).mpr hvalid
  refine ⟨pageClauses table orderBy offset limit condition, ⟨hselection, ?_⟩, hclauses,
    hselects.selects condition rfl, rfl, rfl⟩
  exact (congrArg readClauses hlex).trans hread

theorem countStatement_reads (hvalid : ValidRequest pg table where_ orderBy) :
    ∃ clauses, ReadAs (.count table) (pushWhere (.new (.count table)) where_) clauses ∧
      clauses.Valid table ∧ ∀ row, clauses.selects pg row = true ↔ Asked pg where_ row := by
  obtain ⟨tokens, read, hselects, hlex, hselection⟩ :=
    pushWhere_selection pg where_ (.new (.count table))
  obtain ⟨condition, rfl, hwhere⟩ := (hselects.typed table).mpr hvalid.where_
  refine ⟨countClauses condition, ⟨hselection, ?_⟩, ⟨hwhere, by simp [countClauses]⟩,
    hselects.selects condition rfl⟩
  exact (congrArg readClauses hlex).trans (readClauses_count pg hselects)

end

/-! ## Reading a SELECT -/

/-- A statement from its SELECT on: the columns of the output, the table and the clauses. -/
structure Statement where
  columns : List String
  table : String
  clauses : Clauses

/-- The columns of a SELECT list; a number of rows is of no column. -/
def readOutputs : List Token → Option (List String × List Token)
  | .name function :: .openParen :: .name asterisk :: .closeParen :: .cast :: .name _ ::
      .name "AS" :: .name _ :: rest =>
      if function = "COUNT" ∧ asterisk = "*" then some ([], rest) else none
  | .name column :: .cast :: .name _ :: .name "AS" :: .name _ :: .comma :: rest => do
      let (columns, rest) ← readOutputs rest
      return (column :: columns, rest)
  | .name column :: .cast :: .name _ :: .name "AS" :: .name _ :: rest => some ([column], rest)
  | .name column :: .comma :: rest => do
      let (columns, rest) ← readOutputs rest
      return (column :: columns, rest)
  | .name column :: rest => some ([column], rest)
  | _ => none

/-- The table after the list. -/
def readFrom (columns : List String) : List Token → Option (List String × String × List Token)
  | .name "FROM" :: .name table :: rest => some (columns, table, rest)
  | _ => none

def readSelect : List Token → Option (List String × String × List Token)
  | .name "SELECT" :: rest => do
      let (columns, rest) ← readOutputs rest
      readFrom columns rest
  | _ => none

theorem readSelect_select (tokens : List Token) : readSelect (.name "SELECT" :: tokens) =
    readOutputs tokens >>= fun (columns, rest) => readFrom columns rest := rfl

def readStatement (tokens : List Token) : Option Statement := do
  let (columns, table, rest) ← readSelect tokens
  return ⟨columns, table, ← readClauses rest⟩

/-- The statement is about the table and names only columns of it. -/
structure Statement.Valid (table : LegacyTable) (statement : Statement) : Prop where
  about : statement.table = table.name
  columns : ∀ column ∈ statement.columns, column ∈ table.columns.map (·.1)
  clauses : statement.clauses.Valid table

/-- The text can be read, and what is read is valid. -/
def ValidText (table : LegacyTable) (text : Text) : Prop :=
  ∃ statement, readStatement (lex text) = some statement ∧ statement.Valid table

/-! ## The SELECTs -/

def Output.name : Output → String
  | .column name => name
  | .castText name => name

/-- A column is spelled with one word. -/
def Output.Spells (output : Output) (column : String) : Prop :=
  IsWord output.name.toList ∧ Token.ofWord output.name.toList = .name column

instance (output : Output) (column : String) : Decidable (output.Spells column) :=
  inferInstanceAs (Decidable (_ ∧ _))

theorem spells_outputs (table : LegacyTable) :
    ∀ output ∈ table.outputs, ∃ column ∈ table.columns, output.Spells column.1 := by
  cases table <;> decide +kernel

def Output.tokens (output : Output) (column : String) : List Token :=
  match output with
  | .column _ => [.name column]
  | .castText _ => [.name column, .cast, .name "TEXT", .name "AS", .name column]

theorem lex_output {output : Output} {column : String} (h : output.Spells column) :
    lex (ofString output.text) = output.tokens column := by
  cases output with
  | column name => exact (lex_word h.1).trans (by rw [h.2]; rfl)
  | castText name =>
      have hword : lex (ofString name) = [.name column] := (lex_word h.1).trans (by rw [h.2])
      have hcast : lex (ofString "::TEXT AS " ++ ofString name) =
          [.cast, .name "TEXT", .name "AS", .name column] := by
        rw [lex_append (.inr rfl), hword]
        rfl
      have hsplit : lex (ofString name ++ .char ':' :: (ofString ":TEXT AS " ++ ofString name)) =
          .ofWord name.toList :: lex (ofString "::TEXT AS " ++ ofString name) :=
        lex_word_append h.1 rfl
      show lex (ofString (name ++ "::TEXT AS " ++ name)) = _
      rw [ofString_append, ofString_append, List.append_assoc]
      refine hsplit.trans ?_
      rw [hcast]
      exact congrArg (· :: _) h.2

/-- The list is read up to the FROM. -/
theorem readOutputs_outputsText {outputs : List Output} (hne : outputs ≠ []) {Q : String → Prop}
    (h : ∀ output ∈ outputs, ∃ column, Q column ∧ output.Spells column) (rest : List Token) :
    ∃ columns, (∀ column ∈ columns, Q column) ∧
      readOutputs (lex (ofString (outputsText outputs)) ++ .name "FROM" :: rest) =
        some (columns, .name "FROM" :: rest) := by
  induction outputs with
  | nil => exact absurd rfl hne
  | cons output outputs ih =>
      obtain ⟨⟨column, hQ, hspells⟩, hrest⟩ := List.forall_mem_cons.mp h
      cases outputs with
      | nil =>
          refine ⟨[column], List.forall_mem_singleton.mpr hQ, ?_⟩
          rw [outputsText, lex_output hspells]
          cases output <;> rfl
      | cons next outputs =>
          obtain ⟨columns, hcolumns, hread⟩ := ih (List.cons_ne_nil next outputs) hrest
          refine ⟨column :: columns, List.forall_mem_cons.mpr ⟨hQ, hcolumns⟩, ?_⟩
          have hcomma : endsOpen (ofString output.text ++ ofString ", ") = true :=
            endsOpen_append (by decide)
          have hlex : lex (ofString (outputsText (output :: next :: outputs))) =
              output.tokens column ++ .comma :: lex (ofString (outputsText (next :: outputs))) := by
            rw [outputsText, ofString_append, ofString_append, lex_append (.inr hcomma),
              lex_append (.inl rfl), lex_output hspells, List.append_assoc]
            · rfl
            · exact List.cons_ne_nil next outputs
          rw [hlex, List.append_assoc, List.cons_append]
          cases output <;>
            · show (readOutputs (lex _ ++ .name "FROM" :: rest) >>= _) = _
              rw [hread]
              rfl

theorem readSelect_rows (table : LegacyTable) (rest : List Token) :
    ∃ columns, (∀ column ∈ columns, column ∈ table.columns.map (·.1)) ∧
      readSelect (lex (ofString (Selection.rows table).text) ++ rest) =
        some (columns, table.name, rest) := by
  have hspells : ∀ output ∈ table.outputs,
      ∃ column, column ∈ table.columns.map (·.1) ∧ output.Spells column := by
    intro output houtput
    obtain ⟨column, hcolumn, hspells⟩ := spells_outputs table output houtput
    exact ⟨column.1, List.mem_map_of_mem hcolumn, hspells⟩
  obtain ⟨columns, hcolumns, hread⟩ :=
    readOutputs_outputsText (by cases table <;> decide) hspells (.name table.name :: rest)
  refine ⟨columns, hcolumns, ?_⟩
  have hlex : lex (ofString (Selection.rows table).text) = .name "SELECT" ::
      (lex (ofString (outputsText table.outputs)) ++ [.name "FROM", .name table.name]) := by
    have hselect : endsOpen (ofString "SELECT ") = true := by decide
    have hfrom : endsOpen (ofString "SELECT " ++ ofString (outputsText table.outputs) ++
        ofString " FROM ") = true := endsOpen_append (by decide)
    have hselectLex : lex (ofString "SELECT ") = [.name "SELECT"] := rfl
    have hfromLex : lex (ofString " FROM ") = [.name "FROM"] := rfl
    have htext : (Selection.rows table).text =
        "SELECT " ++ outputsText table.outputs ++ " FROM " ++ table.name := rfl
    rw [htext, ofString_append, ofString_append, ofString_append, lex_append (.inr hfrom),
      lex_append (.inl rfl), lex_append (.inr hselect), lex_tableName, hselectLex, hfromLex]
    simp only [List.append_assoc, List.cons_append, List.nil_append]
  simp only [hlex, List.cons_append, List.append_assoc, List.nil_append, readSelect_select]
  rw [hread]
  rfl

theorem readSelect_count (table : LegacyTable) (rest : List Token) :
    readSelect (lex (ofString (Selection.count table).text) ++ rest) =
      some ([], table.name, rest) := by
  have hfrom : endsOpen (ofString "SELECT COUNT(*)::int8 AS total_count FROM ") = true := by
    decide +kernel
  have hcount : lex (ofString "SELECT COUNT(*)::int8 AS total_count FROM ") =
      [.name "SELECT", .name "COUNT", .openParen, .name "*", .closeParen, .cast, .name "int8",
        .name "AS", .name "total_count", .name "FROM"] := by
    decide +kernel
  have htext : (Selection.count table).text =
      "SELECT COUNT(*)::int8 AS total_count FROM " ++ table.name := rfl
  rw [htext, ofString_append, lex_append (.inr hfrom), lex_tableName, hcount]
  rfl

/-! ## Valid statements -/

/-- The text `fetch_page` sends. -/
def fetchPageText (table : LegacyTable) (where_ : Option LegacyWhereInput)
    (orderBy : Option (List LegacyOrderByInput)) (offset limit : Int) : Text :=
  (pushPage (pushOrderBy (pushWhere (.start (.rows table)) where_) table orderBy) offset limit).sql

/-- The text `count_rows` sends. -/
def countRowsText (table : LegacyTable) (where_ : Option LegacyWhereInput) : Text :=
  (pushWhere (.start (.count table)) where_).sql

theorem validText_iff {table : LegacyTable} {text : Text} {columns : List String}
    {tokens : List Token} (hselect : readSelect (lex text) = some (columns, table.name, tokens))
    (hcolumns : ∀ column ∈ columns, column ∈ table.columns.map (·.1)) :
    ValidText table text ↔ ∃ clauses ∈ readClauses tokens, clauses.Valid table := by
  have hread : readStatement (lex text) =
      (readClauses tokens).map fun clauses => ⟨columns, table.name, clauses⟩ := by
    simp only [readStatement, hselect, Option.bind_eq_bind, Option.bind_some]
    cases readClauses tokens <;> rfl
  rw [ValidText, hread]
  constructor
  · rintro ⟨statement, hstatement, hvalid⟩
    obtain ⟨clauses, hclauses, rfl⟩ := Option.map_eq_some_iff.mp hstatement
    exact ⟨clauses, hclauses, hvalid.clauses⟩
  · rintro ⟨clauses, hclauses, hvalid⟩
    exact ⟨_, Option.map_eq_some_iff.mpr ⟨clauses, hclauses, rfl⟩, rfl, hcolumns, hvalid⟩

section

variable (pg : Postgres) (table : LegacyTable) (where_ : Option LegacyWhereInput)

theorem fetchPageText_valid_iff (orderBy : Option (List LegacyOrderByInput)) (offset limit : Int) :
    ValidText table (fetchPageText table where_ orderBy offset limit) ↔
      ValidRequest pg table where_ orderBy := by
  obtain ⟨tokens, read, hselects, hlex, _, hread⟩ :=
    page_selection pg where_ table orderBy offset limit (.start (.rows table))
  obtain ⟨columns, hcolumns, hselect⟩ :=
    readSelect_rows table (tokens ++ pageTokens table orderBy offset limit)
  rw [← page_valid_iff pg hselects offset limit, ← hread]
  exact validText_iff ((congrArg readSelect hlex).trans hselect) hcolumns

theorem countRowsText_valid_iff :
    ValidText table (countRowsText table where_) ↔ ValidRequest pg table where_ none := by
  obtain ⟨tokens, read, hselects, hlex, _⟩ := pushWhere_selection pg where_ (.start (.count table))
  have hselect := readSelect_count table tokens
  rw [← count_valid_iff pg hselects, ← readClauses_count pg hselects]
  exact validText_iff ((congrArg readSelect hlex).trans hselect) (by simp)

/-- A request is understood by the database exactly if it is about columns of its table and no list of
values is empty. -/
theorem statements_valid_iff (orderBy : Option (List LegacyOrderByInput)) (offset limit : Int) :
    (ValidText table (fetchPageText table where_ orderBy offset limit) ↔
      ValidRequest pg table where_ orderBy) ∧
    (ValidText table (countRowsText table where_) ↔ ValidRequest pg table where_ none) :=
  ⟨fetchPageText_valid_iff pg table where_ orderBy offset limit,
    countRowsText_valid_iff pg table where_⟩

end

/-- Texts are compared by their code points, and only digits are read as a number. -/
def codePoints : Postgres where
  numeric := spelledNumber
  numericText value := toString value
  collate a b := decide (a ≤ b)
  collate_trans := decide_le_trans
  collate_total := decide_le_total
  collate_antisymm := decide_le_antisymm

/-- An empty list, a column of other tables in the filter, and one in the order. -/
theorem requests_not_understood :
    ¬ ValidText .ormpMessageAccepted (fetchPageText .ormpMessageAccepted
      (some (.mk { idIn := some [] } none none)) none 0 100) ∧
    ¬ ValidText .ormpHashImported (countRowsText .ormpHashImported
      (some (.mk { logIndexEq := some 1 } none none))) ∧
    ¬ ValidText .ormpMessageAccepted (fetchPageText .ormpMessageAccepted none
      (some [.msgIdAsc]) 0 100) := by
  rw [fetchPageText_valid_iff codePoints, fetchPageText_valid_iff codePoints,
    countRowsText_valid_iff codePoints]
  refine ⟨fun h => ?_, fun h => ?_, fun h => ?_⟩
  · have hfits := (every_mk.mp (h.where_ _ rfl)).1 (.among "id" []) (by
      simp [WhereFields.tests, amongText])
    exact hfits.2 rfl
  · have hfits := (every_mk.mp (h.where_ _ rfl)).1 (.is .eq "log_index" (.integer 1)) (by
      simp [WhereFields.tests, isInteger])
    exact absurd hfits.1 (by decide)
  · have hcolumn := h.orderBy _ rfl .msgIdAsc List.mem_cons_self
    exact absurd hcolumn (by decide)

end OrmpIndexer.Graphql
