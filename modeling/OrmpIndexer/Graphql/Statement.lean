/-
# OrmpIndexer.Graphql.Statement — what PostgreSQL answers to a statement

A statement is read clause by clause (`readClauses`), and answered with the rows its condition holds of,
sorted by its keys with ties in any order, from the offset up to the limit (`Connection.Honest`). Nothing
else is known of the server: every connection may break ties in its own way.

A key that is not qualified is a column of the output, and all the SELECTs cast their NUMERIC columns to
TEXT there (`SortKey.value`).
-/
import OrmpIndexer.Foundation.Paging
import OrmpIndexer.Graphql.Query

namespace OrmpIndexer.Graphql

open Foundation Foundation.Sql

/-! ## The server -/

/-- What PostgreSQL makes of texts and numbers. A collation is a total order. -/
structure Postgres where
  /-- `text::NUMERIC` -/
  numeric : String → Rat
  /-- `numeric::TEXT` -/
  numericText : Rat → String
  collate : String → String → Bool
  collate_trans : ∀ a b c, collate a b = true → collate b c = true → collate a c = true
  collate_total : ∀ a b, (collate a b || collate b a) = true
  collate_antisymm : ∀ a b, collate a b = true → collate b a = true → a = b

section

variable (pg : Postgres)

/-- Values of one type in order. Types are not mixed in a column. -/
def scalarLe : Scalar → Scalar → Bool
  | .text a, .text b => pg.collate a b
  | .text _, _ => true
  | .numeric a, .numeric b => decide (a ≤ b)
  | .numeric _, .text _ => false
  | .numeric _, _ => true
  | .integer a, .integer b => decide (a ≤ b)
  | .integer _, .boolean _ => true
  | .integer _, _ => false
  | .boolean a, .boolean b => !a || b
  | .boolean _, _ => false

/-- NULL comes last. -/
def valueLe : Option Scalar → Option Scalar → Bool
  | some a, some b => scalarLe pg a b
  | _, none => true
  | none, some _ => false

/-! ## Clauses -/

structure SortKey where
  qualifier : Option String
  column : String
  descending : Bool
deriving DecidableEq, Repr

/-- A key in the output is the text of a number. -/
def SortKey.value (key : SortKey) (row : Row) : Option Scalar :=
  match key.qualifier, row key.column with
  | none, some (.numeric value) => some (.text (pg.numericText value))
  | _, value => value

def SortKey.le (key : SortKey) (a b : Row) : Bool :=
  if key.descending then valueLe pg (key.value pg b) (key.value pg a)
  else valueLe pg (key.value pg a) (key.value pg b)

/-- The first key decides, the next ones where it ties. -/
def keysLe (keys : List SortKey) : Row → Row → Bool := lexicographicAll (keys.map (·.le pg))

end

structure Clauses where
  condition : Option Cond
  orderBy : List SortKey
  /-- The limit and the offset. -/
  window : Option (Int × Int)

def readDirection : String → Option Bool
  | "ASC" => some false
  | "DESC" => some true
  | _ => none

def readKeys : List Token → Option (List SortKey × List Token)
  | .name column :: .name direction :: .comma :: rest => do
      let (keys, rest) ← readKeys rest
      return (⟨none, column, ← readDirection direction⟩ :: keys, rest)
  | .name column :: .name direction :: rest => do
      return ([⟨none, column, ← readDirection direction⟩], rest)
  | .name table :: .dot :: .name column :: .name direction :: .comma :: rest => do
      let (keys, rest) ← readKeys rest
      return (⟨some table, column, ← readDirection direction⟩ :: keys, rest)
  | .name table :: .dot :: .name column :: .name direction :: rest => do
      return ([⟨some table, column, ← readDirection direction⟩], rest)
  | _ => none

/-- What comes after the condition. -/
def readOrder (condition : Option Cond) : List Token → Option Clauses
  | [] => some ⟨condition, [], none⟩
  | .name "ORDER" :: .name "BY" :: rest => do
      let (orderBy, rest) ← readKeys rest
      match rest with
      | [.name "LIMIT", .placeholder (.integer limit), .name "OFFSET",
          .placeholder (.integer offset)] => some ⟨condition, orderBy, some (limit, offset)⟩
      | _ => none
  | _ => none

def readClauses : List Token → Option Clauses
  | .name "WHERE" :: rest => do
      let (condition, rest) ← readCondition rest
      readOrder (some condition) rest
  | rest => readOrder none rest

/-- The clauses name columns of the table. -/
structure Clauses.Valid (table : LegacyTable) (clauses : Clauses) : Prop where
  condition : ∀ c ∈ clauses.condition, c.Typed table.columns
  orderBy : ∀ key ∈ clauses.orderBy, key.column ∈ table.columns.map (·.1) ∧
    ∀ qualifier ∈ key.qualifier, qualifier = table.name

/-! ## Answers -/

section

variable (pg : Postgres)

def Clauses.selects (clauses : Clauses) (row : Row) : Bool :=
  clauses.condition.all fun c => c.eval pg.numeric row = .holds

/-- From the offset up to the limit. -/
def Clauses.slice (clauses : Clauses) (sorted : List Row) : List Row :=
  match clauses.window with
  | some (limit, offset) => (sorted.drop offset.toNat).take limit.toNat
  | none => sorted

/-- Every valid statement is answered from the rows of its table. -/
structure Connection.Honest (content : LegacyTable → List Row) (connection : Connection) :
    Prop where
  fetchAll : ∀ table text clauses, readClauses (lex text) = some clauses → clauses.Valid table →
    ∃ sorted, Arranges (keysLe pg clauses.orderBy) ((content table).filter (clauses.selects pg))
      sorted ∧ connection.fetchAll ⟨.rows table, text⟩ = .ok (clauses.slice sorted)
  fetchCount : ∀ table text clauses, readClauses (lex text) = some clauses → clauses.Valid table →
    connection.fetchCount ⟨.count table, text⟩ =
      .ok ((content table).filter (clauses.selects pg)).length

end

end OrmpIndexer.Graphql
