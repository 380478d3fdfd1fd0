/-
# OrmpIndexer.Graphql.Where — the WHERE clause means the filter

`pushWhere_selects`: the text `push_where` writes, read with the precedence of SQL and three truth
values, selects the rows the filter asks for.

A step of the builder adds conditions to a group (`Adds`): their tokens are chained to what is there, with
an AND in front where there is something already, and whatever they are added to, they hold of the rows
the step is about (`Compiles`). Conditions the reader cannot make sense of are among them, and conditions
about columns the table does not have: there are none exactly if the tests of the filter fit the table.
-/
import Mathlib.Data.List.Forall2
import OrmpIndexer.Graphql.Filter
import OrmpIndexer.Graphql.Query

namespace OrmpIndexer.Graphql

open Foundation Foundation.Sql

/-! ## Pushing text -/

namespace QueryBuilder

theorem lex_push {query : QueryBuilder} {s : String}
    (h : startsOpen (ofString s) = true ∨ endsOpen query.sql = true) :
    lex (query.push s).sql = lex query.sql ++ lex (ofString s) :=
  lex_append h

theorem lex_pushBind (query : QueryBuilder) (value : Scalar) :
    lex (query.pushBind value).sql = lex query.sql ++ [.placeholder value] :=
  lex_append (.inl rfl)

theorem endsOpen_push {query : QueryBuilder} {s : String} (h : ofString s ≠ []) :
    endsOpen (query.push s).sql = endsOpen (ofString s) :=
  endsOpen_append h

theorem endsOpen_pushBind (query : QueryBuilder) (value : Scalar) :
    endsOpen (query.pushBind value).sql = true :=
  endsOpen_append (List.cons_ne_nil _ [])

end QueryBuilder

open QueryBuilder

/-- The text of a comparison operator, as the macros are given it. -/
def Op.spelled : Op → String
  | .eq => " = "
  | .ne => " <> "
  | .gt => " > "
  | .gte => " >= "
  | .lt => " < "
  | .lte => " <= "

theorem lex_spelled (op : Op) : lex (ofString (Op.spelled op)) = [.op op] := by cases op <;> rfl

theorem isOpen_spelled (op : Op) : startsOpen (ofString (Op.spelled op)) = true ∧
    endsOpen (ofString (Op.spelled op)) = true ∧ ofString (Op.spelled op) ≠ [] := by
  cases op <;> decide

/-! ## Conditions that are added to a group -/

/-- Tokens, and the condition they are, if they are one. -/
abbrev Part := List Token × Option Cond

/-- The next condition of the group does not grow together with the text before it. -/
def Ready (group : Group) : Prop :=
  group.hasCondition = true ∨ endsOpen group.query.sql = true

/-- From `group` to `next` these parts are added, each with an AND in front unless it is the first. -/
structure Adds (group next : Group) (parts : List Part) : Prop where
  selection : next.query.selection = group.query.selection
  lexes : lex next.query.sql =
    lex group.query.sql ++ chained .and group.hasCondition (parts.map (·.1))
  hasCondition : next.hasCondition = (group.hasCondition || !parts.isEmpty)
  eq_of_nil : parts = [] → next = group

theorem Adds.refl (group : Group) : Adds group group [] where
  selection := rfl
  lexes := (List.append_nil _).symm
  hasCondition := by simp
  eq_of_nil _ := rfl

/-- Parts are added one after the other. -/
theorem Adds.trans {a b c : Group} {parts parts' : List Part} (hab : Adds a b parts)
    (hbc : Adds b c parts') : Adds a c (parts ++ parts') where
  selection := hbc.selection.trans hab.selection
  lexes := by
    rw [hbc.lexes, hab.lexes, hab.hasCondition, List.map_append, chained_append, List.append_assoc,
      List.isEmpty_map]
  hasCondition := by
    rw [hbc.hasCondition, hab.hasCondition]
    cases parts <;> simp
  eq_of_nil h := by
    obtain ⟨hparts, hparts'⟩ := List.append_eq_nil_iff.mp h
    rw [hbc.eq_of_nil hparts', hab.eq_of_nil hparts]

theorem Adds.ready {group next : Group} {parts : List Part} (h : Adds group next parts)
    (hready : Ready group) : Ready next := by
  by_cases hparts : parts = []
  · rw [h.eq_of_nil hparts]
    exact hready
  · left
    rw [h.hasCondition]
    simp [hparts]

theorem pushAnd_spec {group : Group} (h : Ready group) :
    lex (pushAnd group).query.sql =
        lex group.query.sql ++ (if group.hasCondition then [.and] else []) ∧
      endsOpen (pushAnd group).query.sql = true := by
  unfold pushAnd
  by_cases hcondition : group.hasCondition = true
  · simp only [hcondition, if_true]
    exact ⟨lex_push (.inl rfl), endsOpen_push (by decide)⟩
  · simp only [hcondition, Bool.false_eq_true, if_false]
    exact ⟨(List.append_nil _).symm, h.resolve_left hcondition⟩

/-- A step that pushes one condition. -/
def addCondition (push : QueryBuilder → QueryBuilder) (group : Group) : Group :=
  { pushAnd group with query := push (pushAnd group).query }

theorem adds_pushed {group : Group} (h : Ready group) {push : QueryBuilder → QueryBuilder}
    {part : Part} (hselection : ∀ query, (push query).selection = query.selection)
    (hpush : endsOpen (pushAnd group).query.sql = true →
      lex (push (pushAnd group).query).sql = lex (pushAnd group).query.sql ++ part.1) :
    Adds group (addCondition push group) [part] := by
  obtain ⟨hand, hopen⟩ := pushAnd_spec h
  constructor
  · rw [addCondition, hselection]
    unfold pushAnd
    split <;> rfl
  · rw [addCondition, hpush hopen, hand]
    simp [chained]
  · simp [addCondition, pushAnd]
  · intro hnil
    cases hnil

/-! ## Steps that compile a requirement -/

section

/-- The types of the columns are those their names have in every table. -/
def DeclaredAs (columns : Columns) : Prop := ∀ column ∈ columns, column.2 = filterType column.1

theorem DeclaredAs.mem {columns : Columns} (h : DeclaredAs columns) {name : String}
    {type : ScalarType} (hname : name ∈ columns.map (·.1)) (htype : filterType name = type) :
    (name, type) ∈ columns := by
  obtain ⟨column, hcolumn, rfl⟩ := List.mem_map.mp hname
  rw [← htype, ← h column hcolumn]
  exact hcolumn

theorem DeclaredAs.mem_iff {columns : Columns} (h : DeclaredAs columns) {name : String}
    {type : ScalarType} (htype : filterType name = type) :
    (∃ declared, (name, declared) ∈ columns ∧ some type = some declared) ↔
      name ∈ columns.map (·.1) := by
  constructor
  · rintro ⟨declared, hmem, -⟩
    exact List.mem_map_of_mem hmem
  · intro hname
    exact ⟨type, h.mem hname htype, rfl⟩

variable (numeric : String → Rat)

/-- The parts are conditions about columns of a table exactly if the table fits, and if they are
conditions at all, all of them hold of the rows of `P`. -/
structure Means (parts : List Part) (F : Columns → Prop) (P : Row → Prop) : Prop where
  primary : ∀ part ∈ parts, Primary part.1 part.2
  typed : ∀ columns, DeclaredAs columns →
    ((∀ part ∈ parts, ∃ c ∈ part.2, c.Typed columns) ↔ F columns)
  eval : (∀ part ∈ parts, part.2.isSome) → ∀ row,
    (∀ part ∈ parts, ∀ c ∈ part.2, c.eval numeric row = .holds) ↔ P row

/-- Whatever it is applied to, the step adds conditions that mean `P` in the tables that fit. -/
def Compiles (step : Group → Group) (F : Columns → Prop) (P : Row → Prop) : Prop :=
  ∀ group, Ready group → ∃ parts, Adds group (step group) parts ∧ Means numeric parts F P

variable {numeric}

theorem Compiles.skip {F : Columns → Prop} {P : Row → Prop} (hF : ∀ columns, F columns)
    (hP : ∀ row, P row) : Compiles numeric (fun group => group) F P := by
  intro group _
  refine ⟨[], .refl group, ?_, ?_, ?_⟩
  · simp
  · simp [hF]
  · simp [hP]

theorem Compiles.comp {step step' : Group → Group} {F F' : Columns → Prop} {P P' : Row → Prop}
    (h : Compiles numeric step F P) (h' : Compiles numeric step' F' P') :
    Compiles numeric (fun group => step' (step group)) (fun columns => F columns ∧ F' columns)
      fun row => P row ∧ P' row := by
  intro group hready
  obtain ⟨parts, hadds, hmeans⟩ := h group hready
  obtain ⟨parts', hadds', hmeans'⟩ := h' (step group) (hadds.ready hready)
  refine ⟨parts ++ parts', hadds.trans hadds', ?_, ?_, ?_⟩
  · intro part hpart
    exact (List.mem_append.mp hpart).elim (hmeans.primary part) (hmeans'.primary part)
  · intro columns hcolumns
    rw [← hmeans.typed columns hcolumns, ← hmeans'.typed columns hcolumns]
    exact List.forall_mem_append
  · intro hsome row
    obtain ⟨hleft, hright⟩ := List.forall_mem_append.mp hsome
    rw [← hmeans.eval hleft row, ← hmeans'.eval hright row]
    exact List.forall_mem_append

theorem Compiles.congr {step : Group → Group} {F F' : Columns → Prop} {P P' : Row → Prop}
    (h : Compiles numeric step F P) (hF : ∀ columns, F columns ↔ F' columns)
    (hP : ∀ row, P row ↔ P' row) : Compiles numeric step F' P' := by
  intro group hready
  obtain ⟨parts, hadds, hmeans⟩ := h group hready
  exact ⟨parts, hadds, hmeans.primary,
    fun columns hcolumns => (hmeans.typed columns hcolumns).trans (hF columns),
    fun hsome row => (hmeans.eval hsome row).trans (hP row)⟩

/-- A step that pushes the tokens of a condition adds that condition. -/
theorem compiles_pushed {push : QueryBuilder → QueryBuilder} {tokens : List Token}
    {read : Option Cond} {F : Columns → Prop} {P : Row → Prop}
    (hselection : ∀ query, (push query).selection = query.selection)
    (hpush : ∀ query, endsOpen query.sql = true → lex (push query).sql = lex query.sql ++ tokens)
    (hprimary : Primary tokens read)
    (htyped : ∀ columns, DeclaredAs columns → ((∃ c ∈ read, c.Typed columns) ↔ F columns))
    (heval : ∀ c ∈ read, ∀ row, c.eval numeric row = .holds ↔ P row) :
    Compiles numeric (addCondition push) F P := by
  intro group hready
  refine ⟨[(tokens, read)], adds_pushed hready hselection (hpush _), ?_, ?_, ?_⟩
  · rw [List.forall_mem_singleton]
    exact hprimary
  · intro columns hcolumns
    rw [List.forall_mem_singleton]
    exact htyped columns hcolumns
  · intro hsome row
    rw [List.forall_mem_singleton]
    obtain ⟨c, rfl⟩ := Option.isSome_iff_exists.mp (hsome _ List.mem_cons_self)
    rw [← heval c rfl row]
    simp

/-! ## Comparisons -/

/-- The step adds the test, if there is one. -/
def CompilesTest (numeric : String → Rat) (step : Group → Group) (test : Option Test) : Prop :=
  Compiles numeric step (fun columns => ∀ t ∈ test, t.Fits columns) fun row => ∀ t ∈ test, t.Holds row

theorem pushField_compiles {α : Type} {field : Option α} {push : α → QueryBuilder → QueryBuilder}
    {test : α → Test}
    (h : ∀ value, Compiles numeric (addCondition (push value))
      (fun columns => (test value).Fits columns) fun row => (test value).Holds row) :
    CompilesTest numeric (pushField field push) (field.map test) := by
  cases field with
  | none => apply Compiles.skip <;> simp
  | some value => exact (h value).congr (fun columns => by simp) fun row => by simp

theorem compareValues_eq_holds {op : Op} {a : Option Scalar} {value : Scalar} :
    compareValues op a (some value) = .holds ↔ ∃ v, a = some v ∧ op.test v value = true := by
  cases a with
  | none => simp [compareValues]
  | some v => simp [compareValues]

/-- A comparison is about a column of the table, or about none. -/
theorem compare_fits {columns : Columns} (hcolumns : DeclaredAs columns) {name : String}
    {type : ScalarType} (htype : filterType name = type) (op : Op) {operand : Operand}
    (hoperand : operand.type = some type) (value : Scalar) :
    (∃ c ∈ some (Cond.compare name op operand), c.Typed columns) ↔
      (Test.is op name value).Fits columns := by
  simp only [Option.mem_some_iff, exists_eq_left', Cond.Typed, hoperand]
  rw [hcolumns.mem_iff htype]
  exact (and_iff_left trivial).symm

/-- A column, an operator and a value. -/
theorem lex_pushComparison {query : QueryBuilder} {column name : String} (op : Op) (value : Scalar)
    (hcolumn : lex (ofString column) = [.name name]) (hopen : endsOpen query.sql = true) :
    lex (((query.push column).push (Op.spelled op)).pushBind value).sql =
      lex query.sql ++ [.name name, .op op, .placeholder value] := by
  rw [lex_pushBind, lex_push (.inl (isOpen_spelled op).1), lex_push (.inr hopen), hcolumn,
    lex_spelled]
  simp

theorem textCmp_compiles (op : Op) (field : Option String) {column name : String}
    (hcolumn : lex (ofString column) = [.name name]) (htype : filterType name = .text) :
    CompilesTest numeric (textCmp field column (Op.spelled op)) (isText op name field) := by
  apply pushField_compiles
  intro value
  refine compiles_pushed (fun _ => rfl) (fun query => lex_pushComparison op (.text value) hcolumn)
    (primary_compare name op ⟨.text value, none⟩)
    (fun columns hcolumns => compare_fits hcolumns htype op rfl _) ?_
  rintro _ ⟨⟩ row
  exact compareValues_eq_holds

theorem intCmp_compiles (op : Op) (field : Option Int) {column name : String}
    (hcolumn : lex (ofString column) = [.name name]) (htype : filterType name = .integer) :
    CompilesTest numeric (intCmp field column (Op.spelled op)) (isInteger op name field) := by
  apply pushField_compiles
  intro value
  refine compiles_pushed (fun _ => rfl) (fun query => lex_pushComparison op (.integer value) hcolumn)
    (primary_compare name op ⟨.integer value, none⟩)
    (fun columns hcolumns => compare_fits hcolumns htype op rfl _) ?_
  rintro _ ⟨⟩ row
  exact compareValues_eq_holds

theorem boolCmp_compiles (op : Op) (field : Option Bool) {column name : String}
    (hcolumn : lex (ofString column) = [.name name]) (htype : filterType name = .boolean) :
    CompilesTest numeric (boolCmp field column (Op.spelled op)) (isBoolean op name field) := by
  apply pushField_compiles
  intro value
  refine compiles_pushed (fun _ => rfl) (fun query => lex_pushComparison op (.boolean value) hcolumn)
    (primary_compare name op ⟨.boolean value, none⟩)
    (fun columns hcolumns => compare_fits hcolumns htype op rfl _) ?_
  rintro _ ⟨⟩ row
  exact compareValues_eq_holds

theorem bigintCmp_compiles (op : Op) (field : Option BigInt) {column name : String}
    (hcolumn : lex (ofString column) = [.name name]) (htype : filterType name = .numeric) :
    CompilesTest numeric (bigintCmp field column (Op.spelled op)) (isNumeric numeric op name field) := by
  apply pushField_compiles
  intro value
  refine compiles_pushed (fun _ => rfl) (fun query hopen => ?_)
    (primary_compare name op ⟨.text value.text, some "NUMERIC"⟩)
    (fun columns hcolumns => compare_fits hcolumns htype op rfl _) ?_
  · rw [lex_push (.inr (endsOpen_pushBind _ _)), lex_pushComparison op _ hcolumn hopen,
      List.append_assoc]
    rfl
  · rintro _ ⟨⟩ row
    exact compareValues_eq_holds

/-! ## Lists of values -/

/-- Values with commas between them. -/
theorem lex_pushSeparated {α : Type} {values : List α} {bind : α → QueryBuilder → QueryBuilder}
    {tokens : α → List Token} {query : QueryBuilder}
    (hbind : ∀ value query, endsOpen query.sql = true →
      lex (bind value query).sql = lex query.sql ++ tokens value)
    (hopen : endsOpen query.sql = true) :
    lex (pushSeparated values bind query).sql =
      lex query.sql ++ chained .comma false (values.map tokens) := by
  induction values generalizing query with
  | nil => exact (List.append_nil _).symm
  | cons value values ih =>
      cases values with
      | nil => exact (hbind value query hopen).trans (by simp [chained])
      | cons next values =>
          have hcomma : endsOpen ((bind value query).push ", ").sql = true :=
            endsOpen_push (by decide)
          rw [pushSeparated, ih hcomma, lex_push (.inl rfl), hbind value query hopen,
            List.append_assoc, List.append_assoc]
          · rfl
          · exact List.cons_ne_nil next values

theorem pushSeparated_selection {α : Type} {values : List α}
    {bind : α → QueryBuilder → QueryBuilder} {query : QueryBuilder}
    (hbind : ∀ value query, (bind value query).selection = query.selection) :
    (pushSeparated values bind query).selection = query.selection := by
  induction values generalizing query with
  | nil => rfl
  | cons value values ih =>
      cases values with
      | nil => exact hbind value query
      | cons next values =>
          rw [pushSeparated, ih]
          · exact hbind value query
          · exact List.cons_ne_nil next values

theorem isAmong_some {a : Option Scalar} {values : List Scalar} :
    isAmong a (values.map some) = .holds ↔ ∃ v, a = some v ∧ v ∈ values := by
  cases a with
  | none =>
      cases values with
      | nil => simp [isAmong]
      | cons value values => simp [isAmong_none]
  | some v => simp [isAmong_eq_holds]

theorem not_isAmong_some {a : Option Scalar} {values : List Scalar} (h : values ≠ []) :
    (isAmong a (values.map some)).not = .holds ↔ ∃ v, a = some v ∧ v ∉ values := by
  rw [Truth.not_eq_holds]
  cases a with
  | none => simp [isAmong_none, h]
  | some v => simp [isAmong_eq_fails]

/-- The operands of a list evaluate to its values. -/
theorem eval_operands {α : Type} {values : List α} {operand : α → Operand} (scalar : α → Scalar)
    (h : ∀ value, (operand value).eval numeric = some (scalar value)) :
    (values.map operand).map (·.eval numeric) = (values.map scalar).map some := by
  simp [h]

theorem lex_pushList {α : Type} {values : List α} {bind : α → QueryBuilder → QueryBuilder}
    {operand : α → Operand} {query : QueryBuilder} {column name : String} (negated : Bool)
    (hcolumn : lex (ofString column) = [.name name])
    (hbind : ∀ value query, endsOpen query.sql = true →
      lex (bind value query).sql = lex query.sql ++ (operand value).tokens)
    (hopen : endsOpen query.sql = true) :
    lex ((pushSeparated values bind
        ((if negated then (query.push column).push " NOT" else query.push column).push
          " IN (")).push ")").sql =
      lex query.sql ++ .name name :: ((if negated then [.not] else []) ++
        .isIn :: .openParen :: (operandTokens (values.map operand) ++ [.closeParen])) := by
  have hin : ∀ query : QueryBuilder, endsOpen (query.push " IN (").sql = true :=
    fun _ => endsOpen_push (by decide)
  have hnot : lex (if negated then (query.push column).push " NOT" else query.push column).sql =
      lex query.sql ++ .name name :: (if negated then [.not] else []) := by
    cases negated with
    | false =>
        show lex (query.push column).sql = _
        rw [lex_push (.inr hopen), hcolumn]
        rfl
    | true =>
        show lex ((query.push column).push " NOT").sql = _
        rw [lex_push (.inl rfl), lex_push (.inr hopen), hcolumn, List.append_assoc]
        rfl
  rw [lex_push (.inl rfl), lex_pushSeparated hbind (hin _), lex_push (.inl rfl), hnot,
    operandTokens, List.map_map]
  simp only [List.append_assoc, List.cons_append]
  rfl

/-- The operands of a list as they are spelled. -/
def textOperand (value : String) : Operand := ⟨.text value, none⟩
def bigintOperand (value : BigInt) : Operand := ⟨.text value.text, some "NUMERIC"⟩

theorem lex_pushText (value : String) (query : QueryBuilder) (_ : endsOpen query.sql = true) :
    lex (query.pushBind (.text value)).sql = lex query.sql ++ (textOperand value).tokens :=
  lex_pushBind query (.text value)

theorem lex_pushBigint (value : BigInt) (query : QueryBuilder) (_ : endsOpen query.sql = true) :
    lex ((query.pushBind (.text value.text)).push "::NUMERIC").sql =
      lex query.sql ++ (bigintOperand value).tokens := by
  rw [lex_push (.inr (endsOpen_pushBind _ _)), lex_pushBind, List.append_assoc]
  rfl

theorem mem_isInList {negated : Bool} {column : String} {operands : List Operand} {c : Cond} :
    c ∈ Cond.isInList negated column operands ↔ operands ≠ [] ∧ c = .isIn negated column operands := by
  unfold Cond.isInList
  split
  · rename_i h
    simp [h]
  · rename_i h
    simp [h, eq_comm]

/-- A list is about a column of the table and has a value in it, or it is no list at all. -/
theorem isInList_fits {columns : Columns} (hcolumns : DeclaredAs columns) {name : String}
    {type : ScalarType} (htype : filterType name = type) {negated : Bool} {operands : List Operand}
    (hoperands : ∀ operand ∈ operands, operand.type = some type) {test : Test}
    (hcolumn : test.column = name) (hne : operands ≠ [] ↔ test.NonEmpty) :
    (∃ c ∈ Cond.isInList negated name operands, c.Typed columns) ↔ test.Fits columns := by
  constructor
  · rintro ⟨c, hc, htyped⟩
    obtain ⟨hsome, rfl⟩ := mem_isInList.mp hc
    obtain ⟨declared, hmem, -⟩ := htyped
    refine ⟨?_, hne.mp hsome⟩
    rw [hcolumn]
    exact List.mem_map_of_mem hmem
  · rintro ⟨hmem, hnonempty⟩
    rw [hcolumn] at hmem
    obtain ⟨declared, hdeclared, heq⟩ := (hcolumns.mem_iff htype).mpr hmem
    exact ⟨_, mem_isInList.mpr ⟨hne.mpr hnonempty, rfl⟩, declared, hdeclared,
      fun operand hoperand => (hoperands operand hoperand).trans heq⟩

theorem textIn_compiles (field : Option (List String)) {column name : String}
    (hcolumn : lex (ofString column) = [.name name]) (htype : filterType name = .text) :
    CompilesTest numeric (textIn field column false) (amongText name field) := by
  apply pushField_compiles
  intro values
  refine compiles_pushed (fun query => pushSeparated_selection fun _ _ => rfl)
    (fun query => lex_pushList false hcolumn lex_pushText) (primary_isIn name (values.map textOperand))
    (fun columns hcolumns => isInList_fits hcolumns htype (by simp [textOperand, Operand.type, Scalar.type])
      rfl (by simp [Test.NonEmpty])) ?_
  intro c hc row
  obtain ⟨hne, rfl⟩ := mem_isInList.mp hc
  show isAmong (row name) _ = .holds ↔ _
  rw [eval_operands .text fun _ => rfl]
  exact isAmong_some

theorem textNotIn_compiles (field : Option (List String)) {column name : String}
    (hcolumn : lex (ofString column) = [.name name]) (htype : filterType name = .text) :
    CompilesTest numeric (textIn field column true) (notAmongText name field) := by
  apply pushField_compiles
  intro values
  refine compiles_pushed (fun query => pushSeparated_selection fun _ _ => rfl)
    (fun query => lex_pushList true hcolumn lex_pushText) (primary_notIn name (values.map textOperand))
    (fun columns hcolumns => isInList_fits hcolumns htype (by simp [textOperand, Operand.type, Scalar.type])
      rfl (by simp [Test.NonEmpty])) ?_
  intro c hc row
  obtain ⟨hne, rfl⟩ := mem_isInList.mp hc
  show (isAmong (row name) _).not = .holds ↔ _
  rw [eval_operands .text fun _ => rfl]
  exact not_isAmong_some fun h => hne (by rw [List.map_eq_nil_iff.mp h]; rfl)

theorem bigintIn_compiles (field : Option (List BigInt)) {column name : String}
    (hcolumn : lex (ofString column) = [.name name]) (htype : filterType name = .numeric) :
    CompilesTest numeric (bigintIn field column) (amongNumeric numeric name field) := by
  apply pushField_compiles
  intro values
  refine compiles_pushed (fun query => pushSeparated_selection fun _ _ => rfl)
    (fun query => lex_pushList false hcolumn lex_pushBigint) (primary_isIn name (values.map bigintOperand))
    (fun columns hcolumns => isInList_fits hcolumns htype (by simp [bigintOperand, Operand.type])
      rfl (by simp [Test.NonEmpty])) ?_
  intro c hc row
  obtain ⟨hne, rfl⟩ := mem_isInList.mp hc
  show isAmong (row name) _ = .holds ↔ _
  rw [eval_operands (fun value : BigInt => .numeric (numeric value.text)) fun _ => rfl]
  exact isAmong_some

/-! ## The fields of a filter -/

/-- Every line of the macros adds the test of its field. -/
theorem comparisons_compile (fields : WhereFields) :
    List.Forall₂ (CompilesTest numeric) (comparisons fields) (fields.tests numeric) := by
  unfold comparisons WhereFields.tests
  exact .cons (textCmp_compiles .eq _ rfl rfl) <|
    .cons (textCmp_compiles .ne _ rfl rfl) <|
    .cons (textIn_compiles _ rfl rfl) <| .cons (textNotIn_compiles _ rfl rfl) <|
    .cons (bigintCmp_compiles .eq _ rfl rfl) <|
    .cons (bigintCmp_compiles .gt _ rfl rfl) <|
    .cons (bigintCmp_compiles .gte _ rfl rfl) <|
    .cons (bigintCmp_compiles .lt _ rfl rfl) <|
    .cons (bigintCmp_compiles .lte _ rfl rfl) <|
    .cons (bigintIn_compiles _ rfl rfl) <|
    .cons (textCmp_compiles .eq _ rfl rfl) <|
    .cons (textIn_compiles _ rfl rfl) <|
    .cons (bigintCmp_compiles .eq _ rfl rfl) <|
    .cons (bigintCmp_compiles .gt _ rfl rfl) <|
    .cons (bigintCmp_compiles .gte _ rfl rfl) <|
    .cons (bigintCmp_compiles .lt _ rfl rfl) <|
    .cons (bigintCmp_compiles .lte _ rfl rfl) <|
    .cons (bigintCmp_compiles .eq _ rfl rfl) <|
    .cons (bigintIn_compiles _ rfl rfl) <|
    .cons (intCmp_compiles .eq _ rfl rfl) <|
    .cons (intCmp_compiles .gt _ rfl rfl) <|
    .cons (intCmp_compiles .gte _ rfl rfl) <|
    .cons (intCmp_compiles .lt _ rfl rfl) <|
    .cons (intCmp_compiles .lte _ rfl rfl) <|
    .cons (intCmp_compiles .eq _ rfl rfl) <|
    .cons (textCmp_compiles .eq _ rfl rfl) <|
    .cons (textIn_compiles _ rfl rfl) <|
    .cons (textCmp_compiles .eq _ rfl rfl) <|
    .cons (textIn_compiles _ rfl rfl) <|
    .cons (textCmp_compiles .eq _ rfl rfl) <|
    .cons (textCmp_compiles .eq _ rfl rfl) <|
    .cons (textCmp_compiles .eq _ rfl rfl) <|
    .cons (textCmp_compiles .eq _ rfl rfl) <|
    .cons (textCmp_compiles .eq _ rfl rfl) <|
    .cons (textIn_compiles _ rfl rfl) <|
    .cons (textCmp_compiles .eq _ rfl rfl) <|
    .cons (textCmp_compiles .eq _ rfl rfl) <|
    .cons (textCmp_compiles .eq _ rfl rfl) <|
    .cons (textCmp_compiles .eq _ rfl rfl) <|
    .cons (textIn_compiles _ rfl rfl) <|
    .cons (textCmp_compiles .eq _ rfl rfl) <|
    .cons (textIn_compiles _ rfl rfl) <|
    .cons (textCmp_compiles .eq _ rfl rfl) <|
    .cons (bigintCmp_compiles .eq _ rfl rfl) <|
    .cons (bigintIn_compiles _ rfl rfl) <|
    .cons (bigintCmp_compiles .eq _ rfl rfl) <|
    .cons (bigintIn_compiles _ rfl rfl) <|
    .cons (bigintCmp_compiles .eq _ rfl rfl) <|
    .cons (bigintCmp_compiles .eq _ rfl rfl) <|
    .cons (bigintIn_compiles _ rfl rfl) <|
    .cons (bigintCmp_compiles .eq _ rfl rfl) <|
    .cons (bigintCmp_compiles .gt _ rfl rfl) <|
    .cons (bigintCmp_compiles .gte _ rfl rfl) <|
    .cons (bigintCmp_compiles .lt _ rfl rfl) <|
    .cons (bigintCmp_compiles .lte _ rfl rfl) <|
    .cons (bigintCmp_compiles .eq _ rfl rfl) <|
    .cons (bigintCmp_compiles .gt _ rfl rfl) <|
    .cons (bigintCmp_compiles .gte _ rfl rfl) <|
    .cons (bigintCmp_compiles .lt _ rfl rfl) <|
    .cons (bigintCmp_compiles .lte _ rfl rfl) <|
    .cons (boolCmp_compiles .eq _ rfl rfl) <|
    .cons (boolCmp_compiles .eq _ rfl rfl) <|
    .cons (boolCmp_compiles .eq _ rfl rfl) <| .nil

theorem compiles_foldl {steps : List (Group → Group)} {tests : List (Option Test)}
    (h : List.Forall₂ (CompilesTest numeric) steps tests) :
    Compiles numeric (fun group => steps.foldl (fun group push => push group) group)
      (fun columns => ∀ t, some t ∈ tests → t.Fits columns)
      fun row => ∀ t, some t ∈ tests → t.Holds row := by
  have hcons : ∀ {P : Test → Prop} {test : Option Test} {tests : List (Option Test)},
      ((∀ t ∈ test, P t) ∧ ∀ t, some t ∈ tests → P t) ↔ ∀ t, some t ∈ test :: tests → P t := by
    intro P test tests
    simp only [List.mem_cons, Option.mem_def, @eq_comm _ test, or_imp, forall_and]
  induction h with
  | nil => apply Compiles.skip <;> simp
  | cons hstep _ ih => exact (hstep.comp ih).congr (fun columns => hcons) fun row => hcons

/-! ## Groups -/

/-- The text is one condition about columns of the tables that fit, and it means `P`; or it is none. -/
structure Reads (numeric : String → Rat) (tokens : List Token) (read : Option Cond)
    (F : Columns → Prop) (P : Row → Prop) : Prop where
  disj : Disj tokens read
  typed : ∀ columns, DeclaredAs columns → ((∃ c ∈ read, c.Typed columns) ↔ F columns)
  eval : ∀ c ∈ read, ∀ row, c.eval numeric row = .holds ↔ P row

/-- Conditions of one list, all of them or one of them. -/
theorem typed_collect {parts : List Part} {combine : List Cond → Cond} {columns : Columns}
    (h : ∀ cs : List Cond, (combine cs).Typed columns ↔ ∀ c ∈ cs, c.Typed columns) :
    (∃ c ∈ (collect (parts.map (·.2))).map combine, c.Typed columns) ↔
      ∀ part ∈ parts, ∃ c ∈ part.2, c.Typed columns := by
  constructor
  · rintro ⟨c, hc, htyped⟩ part hpart
    obtain ⟨cs, hcs, rfl⟩ := Option.map_eq_some_iff.mp hc
    have hmem : part.2 ∈ cs.map some := collect_eq_some.mp hcs ▸ List.mem_map_of_mem hpart
    obtain ⟨c, hmem, hread⟩ := List.mem_map.mp hmem
    exact ⟨c, hread.symm, (h cs).mp htyped c hmem⟩
  · intro hall
    have hsome : ∃ cs : List Cond, parts.map (·.2) = cs.map some ∧ ∀ c ∈ cs, c.Typed columns := by
      induction parts with
      | nil => exact ⟨[], rfl, by simp⟩
      | cons part parts ih =>
          obtain ⟨⟨c, hc, htyped⟩, hrest⟩ := List.forall_mem_cons.mp hall
          obtain ⟨cs, hcs, hcsTyped⟩ := ih hrest
          refine ⟨c :: cs, ?_, List.forall_mem_cons.mpr ⟨htyped, hcsTyped⟩⟩
          rw [List.map_cons, List.map_cons, hcs, hc]
    obtain ⟨cs, hcs, htyped⟩ := hsome
    exact ⟨combine cs, Option.map_eq_some_iff.mpr ⟨cs, collect_eq_some.mpr hcs, rfl⟩, (h cs).mpr htyped⟩

/-- The conditions of the parts, if all of them are conditions. -/
theorem mem_of_collect {parts : List Part} {cs : List Cond}
    (h : collect (parts.map (·.2)) = some cs) :
    (∀ part ∈ parts, part.2.isSome) ∧
      ∀ Q : Cond → Prop, (∀ c ∈ cs, Q c) ↔ ∀ part ∈ parts, ∀ c ∈ part.2, Q c := by
  have hmap := collect_eq_some.mp h
  clear h
  induction parts generalizing cs with
  | nil =>
      cases cs with
      | nil => simp
      | cons c cs => simp at hmap
  | cons part parts ih =>
      cases cs with
      | nil => simp at hmap
      | cons c cs =>
          obtain ⟨hpart, hparts⟩ := List.cons.inj hmap
          obtain ⟨hsome, hQ⟩ := ih hparts
          refine ⟨List.forall_mem_cons.mpr ⟨by simp [hpart], hsome⟩, fun Q => ?_⟩
          simp [hpart, hQ Q]

/-- A step that starts with nothing, with a TRUE if it adds nothing. -/
theorem group_reads {step : Group → Group} {F : Columns → Prop} {P : Row → Prop}
    (h : Compiles numeric step F P) {query : QueryBuilder} (hopen : endsOpen query.sql = true)
    (truth : String) (htruth : lex (ofString truth) = [.true]) :
    ∃ tokens read, Reads numeric tokens read F P ∧
      lex (if (step ⟨query, false⟩).hasCondition then (step ⟨query, false⟩).query
        else (step ⟨query, false⟩).query.push truth).sql = lex query.sql ++ tokens ∧
      (if (step ⟨query, false⟩).hasCondition then (step ⟨query, false⟩).query
        else (step ⟨query, false⟩).query.push truth).selection = query.selection := by
  obtain ⟨parts, hadds, hmeans⟩ := h ⟨query, false⟩ (.inr hopen)
  by_cases hparts : parts = []
  · subst hparts
    refine ⟨[.true], some .truth, ⟨primary_truth.conj.disj, fun columns hcolumns => ?_, ?_⟩, ?_⟩
    · rw [← hmeans.typed columns hcolumns]
      simp [Cond.Typed]
    · rintro _ ⟨⟩ row
      rw [← hmeans.eval (by simp) row]
      simp [Cond.eval]
    · rw [hadds.eq_of_nil rfl]
      simp only [Bool.false_eq_true, if_false]
      exact ⟨by rw [lex_push (.inr hopen), htruth], rfl⟩
  · refine ⟨chained .and false (parts.map (·.1)), (collect (parts.map (·.2))).map Cond.all,
      ⟨(conj_chained hmeans.primary hparts).disj, fun columns hcolumns => ?_, ?_⟩, ?_⟩
    · rw [typed_collect (Cond.typed_all columns)]
      exact hmeans.typed columns hcolumns
    · intro c hc row
      obtain ⟨cs, hcs, rfl⟩ := Option.map_eq_some_iff.mp hc
      obtain ⟨hsome, hall⟩ := mem_of_collect hcs
      rw [Cond.eval_all, hall]
      exact hmeans.eval hsome row
    · have hcondition : (step ⟨query, false⟩).hasCondition = true := by
        rw [hadds.hasCondition]
        simp [hparts]
      rw [if_pos hcondition]
      exact ⟨hadds.lexes, hadds.selection⟩

/-- The filter is about columns of the table, and its lists have values in them. -/
abbrev FilterFits (numeric : String → Rat) (where_ : LegacyWhereInput) (columns : Columns) : Prop :=
  where_.Every numeric fun test => test.Fits columns

/-- What a member of a list of filters is compiled to. -/
abbrev CompilesFilter (numeric : String → Rat) (where_ : LegacyWhereInput) : Prop :=
  Compiles numeric (pushWhereGroup where_) (FilterFits numeric where_)
    fun row => where_.Matches numeric row

/-- The parts of the members: each in parentheses, each with the meaning of its member. -/
def MembersRead (numeric : String → Rat) : List LegacyWhereInput → List Part → Prop :=
  List.Forall₂ fun member part => Primary part.1 part.2 ∧
    (∀ columns, DeclaredAs columns → ((∃ c ∈ part.2, c.Typed columns) ↔ FilterFits numeric member columns)) ∧
    ∀ c ∈ part.2, ∀ row, c.eval numeric row = .holds ↔ member.Matches numeric row

/-- The members of AND and OR by induction, each in parentheses. -/
theorem pushMembers_reads {members : List LegacyWhereInput}
    (h : ∀ member ∈ members, CompilesFilter numeric member)
    {op : String} {separator : Token} (hop : lex (ofString op) = [separator])
    (hopStarts : startsOpen (ofString op) = true) (hopEnds : endsOpen (ofString op) = true)
    (hopNe : ofString op ≠ []) {query : QueryBuilder} (hopen : endsOpen query.sql = true)
    (first : Bool) :
    ∃ parts, MembersRead numeric members parts ∧
      lex (pushMembers members op first query).sql =
        lex query.sql ++ chained separator (!first) (parts.map (·.1)) ∧
      (pushMembers members op first query).selection = query.selection := by
  induction members generalizing query first with
  | nil => exact ⟨[], .nil, (List.append_nil _).symm, rfl⟩
  | cons member members ih =>
      rw [pushMembers]
      -- the text in front of the member
      have hfront : ∃ front : QueryBuilder, front = (if first then query else query.push op) ∧
          endsOpen front.sql = true ∧ front.selection = query.selection ∧
          lex front.sql = lex query.sql ++ (if !first then [separator] else []) := by
        refine ⟨_, rfl, ?_⟩
        cases first with
        | true => exact ⟨hopen, rfl, (List.append_nil _).symm⟩
        | false =>
            refine ⟨(endsOpen_push hopNe).trans hopEnds, rfl, ?_⟩
            show lex (query.push op).sql = _
            rw [lex_push (.inl hopStarts), hop]
            rfl
      obtain ⟨front, rfl, hfrontOpen, hfrontSelection, hfrontLex⟩ := hfront
      have hclose : ∀ query : QueryBuilder, endsOpen (query.push ")").sql = true :=
        fun _ => endsOpen_push (by decide)
      have hparen : endsOpen ((if first then query else query.push op).push "(").sql = true :=
        endsOpen_push (by decide)
      obtain ⟨tokens, read, hreads, hlex, hselection⟩ :=
        group_reads (h member List.mem_cons_self) hparen "TRUE" rfl
      obtain ⟨parts, hparts, hrest, hrestSelection⟩ :=
        ih (fun m hm => h m (List.mem_cons_of_mem member hm)) (hclose _) false
      refine ⟨(.openParen :: (tokens ++ [.closeParen]), read) :: parts,
        .cons ⟨hreads.disj.parens, hreads.typed, hreads.eval⟩ hparts, ?_, ?_⟩
      · rw [hrest, lex_push (.inl rfl), hlex, lex_push (.inl rfl), hfrontLex]
        simp only [List.map_cons, chained, List.append_assoc, List.cons_append, List.nil_append,
          Bool.not_false]
        rfl
      · exact hrestSelection.trans (hselection.trans hfrontSelection)

section

variable {members : List LegacyWhereInput} {parts : List Part}

theorem primary_of_membersRead (h : MembersRead numeric members parts) :
    ∀ part ∈ parts, Primary part.1 part.2 := by
  induction h with
  | nil => simp
  | cons hpart _ ih => exact List.forall_mem_cons.mpr ⟨hpart.1, ih⟩

theorem typed_of_membersRead (h : MembersRead numeric members parts) {columns : Columns}
    (hcolumns : DeclaredAs columns) : (∀ part ∈ parts, ∃ c ∈ part.2, c.Typed columns) ↔
      ∀ member ∈ members, FilterFits numeric member columns := by
  induction h with
  | nil => simp
  | cons hpart _ ih =>
      rw [List.forall_mem_cons, List.forall_mem_cons, hpart.2.1 columns hcolumns, ih]

/-- What the conditions say of a row, all of them and one of them, is what the members say. -/
theorem eval_of_membersRead (h : MembersRead numeric members parts) {cs : List Cond}
    (hread : collect (parts.map (·.2)) = some cs) (row : Row) :
    ((∀ c ∈ cs, c.eval numeric row = .holds) ↔ ∀ member ∈ members, member.Matches numeric row) ∧
      ((∃ c ∈ cs, c.eval numeric row = .holds) ↔ ∃ member ∈ members, member.Matches numeric row) := by
  have hmap := collect_eq_some.mp hread
  clear hread
  induction h generalizing cs with
  | nil =>
      cases cs with
      | nil => simp
      | cons c cs => simp at hmap
  | cons hpart _ ih =>
      cases cs with
      | nil => simp at hmap
      | cons c cs =>
          obtain ⟨hc, hcs⟩ := List.cons.inj hmap
          have hmember := hpart.2.2 c hc row
          simp [hmember, (ih hcs).1, (ih hcs).2]

/-- A list of groups in parentheses is one condition. -/
theorem pushLogicalGroups_compiles (h : ∀ member ∈ members, CompilesFilter numeric member)
    {op : String} (separator : Token) (hop : lex (ofString op) = [separator])
    (hopStarts : startsOpen (ofString op) = true) (hopEnds : endsOpen (ofString op) = true)
    (hopNe : ofString op ≠ []) (combine : List Cond → Cond) {P : Row → Prop}
    (hread : ∀ parts : List Part, (∀ part ∈ parts, Primary part.1 part.2) → parts ≠ [] →
      Disj (chained separator false (parts.map (·.1))) ((collect (parts.map (·.2))).map combine))
    (htyped : ∀ columns (cs : List Cond),
      (combine cs).Typed columns ↔ ∀ c ∈ cs, c.Typed columns)
    (heval : ∀ parts cs row, MembersRead numeric members parts → members ≠ [] →
      collect (parts.map (·.2)) = some cs → ((combine cs).eval numeric row = .holds ↔ P row))
    (hempty : members = [] → ∀ row, P row) :
    Compiles numeric (pushLogicalGroups members.isEmpty (pushMembers members op true))
      (fun columns => ∀ member ∈ members, FilterFits numeric member columns) P := by
  intro group hready
  by_cases hmembers : members = []
  · rw [hmembers]
    exact Compiles.skip (by simp) (hempty hmembers) group hready
  · have hstep : pushLogicalGroups members.isEmpty (pushMembers members op true) group =
        addCondition (fun query => (pushMembers members op true (query.push "(")).push ")") group := by
      have hne : members.isEmpty = false := by simpa using hmembers
      rw [pushLogicalGroups, hne]
      rfl
    have hopen : ∀ query : QueryBuilder, endsOpen (query.push "(").sql = true :=
      fun _ => endsOpen_push (by decide)
    obtain ⟨parts, hparts, hlex, _⟩ := pushMembers_reads h hop hopStarts hopEnds hopNe
      (hopen (pushAnd group).query) true
    have hne : parts ≠ [] := by
      rintro rfl
      cases hparts
      exact hmembers rfl
    refine ⟨[(.openParen :: (chained separator false (parts.map (·.1)) ++ [.closeParen]),
      (collect (parts.map (·.2))).map combine)], ?_, ?_, ?_, ?_⟩
    · rw [hstep]
      apply adds_pushed hready
      · intro query
        obtain ⟨_, _, _, hselection⟩ := pushMembers_reads h hop hopStarts hopEnds hopNe
          (hopen query) true
        exact hselection
      · intro _
        rw [lex_push (.inl rfl), hlex, lex_push (.inl rfl), List.append_assoc, List.append_assoc]
        rfl
    · rw [List.forall_mem_singleton]
      exact (hread parts (primary_of_membersRead hparts) hne).parens
    · intro columns hcolumns
      rw [List.forall_mem_singleton, typed_collect (htyped columns)]
      exact typed_of_membersRead hparts hcolumns
    · intro hsome row
      rw [List.forall_mem_singleton]
      obtain ⟨c, hc⟩ := Option.isSome_iff_exists.mp (hsome _ List.mem_cons_self)
      obtain ⟨cs, hcs, rfl⟩ := Option.map_eq_some_iff.mp hc
      rw [← heval parts cs row hparts hmembers hcs]
      simp [hcs]

theorem pushLogicalGroups_and (h : ∀ member ∈ members, CompilesFilter numeric member) :
    Compiles numeric (pushLogicalGroups members.isEmpty (pushMembers members " AND " true))
      (fun columns => ∀ member ∈ members, FilterFits numeric member columns)
      fun row => LegacyWhereInput.MatchesAll numeric row members := by
  refine pushLogicalGroups_compiles h .and rfl rfl rfl (by decide) Cond.all
    (fun parts hprimary hne => (conj_chained hprimary hne).disj) Cond.typed_all
    (fun parts cs row hparts _ hcs => ?_) ?_
  · rw [Cond.eval_all, matchesAll_iff]
    exact (eval_of_membersRead hparts hcs row).1
  · intro hmembers row
    rw [hmembers]
    trivial

theorem pushLogicalGroups_or (h : ∀ member ∈ members, CompilesFilter numeric member) :
    Compiles numeric (pushLogicalGroups members.isEmpty (pushMembers members " OR " true))
      (fun columns => ∀ member ∈ members, FilterFits numeric member columns)
      fun row => members = [] ∨ LegacyWhereInput.MatchesAny numeric row members := by
  refine pushLogicalGroups_compiles h .or rfl rfl rfl (by decide) Cond.any
    (fun parts hprimary hne => disj_chained hprimary hne) Cond.typed_any
    (fun parts cs row hparts hmembers hcs => ?_) ?_
  · have hne : cs ≠ [] := by
      rintro rfl
      have hparts' := collect_eq_some.mp hcs
      rw [List.map_nil, List.map_eq_nil_iff] at hparts'
      subst hparts'
      cases hparts
      exact hmembers rfl
    rw [Cond.eval_any _ _ hne, matchesAny_iff, or_iff_right hmembers]
    exact (eval_of_membersRead hparts hcs row).2
  · intro hmembers row
    exact .inl hmembers

end

/-! ## The WHERE clause -/

/-- A step for a list that may be absent. -/
def optionally {β : Type} (step : β → Group → Group) (o : Option β) (group : Group) : Group :=
  match o with
  | some b => step b group
  | none => group

theorem optionally_compiles {β : Type} {o : Option β} {step : β → Group → Group}
    {F : β → Columns → Prop} {P : β → Row → Prop}
    (h : ∀ b ∈ o, Compiles numeric (step b) (F b) (P b)) :
    Compiles numeric (optionally step o) (fun columns => ∀ b ∈ o, F b columns)
      fun row => ∀ b ∈ o, P b row := by
  cases o with
  | none => apply Compiles.skip <;> simp
  | some b => exact (h b rfl).congr (fun columns => by simp) fun row => by simp

/-- The groups of an AND or of an OR with their operator. -/
def pushGroups (op : String) (groups : List LegacyWhereInput) : Group → Group :=
  pushLogicalGroups groups.isEmpty (pushMembers groups op true)

theorem pushWhereGroup_mk (fields : WhereFields) (and or : Option (List LegacyWhereInput))
    (group : Group) : pushWhereGroup (.mk fields and or) group =
      optionally (pushGroups " OR ") or (optionally (pushGroups " AND ") and
        ((comparisons fields).foldl (fun group push => push group) group)) := by
  cases and <;> cases or <;> rfl

/-- Every filter, by induction on it. -/
theorem pushWhereGroup_compiles (where_ : LegacyWhereInput) : CompilesFilter numeric where_ := by
  induction where_ using LegacyWhereInput.induction with
  | step fields and or hand hor =>
      have hcomparisons : Compiles numeric _ _ _ := compiles_foldl (comparisons_compile fields)
      have handGroups : Compiles numeric (optionally (pushGroups " AND ") and) _ _ :=
        optionally_compiles fun groups hgroups => pushLogicalGroups_and (hand groups hgroups)
      have horGroups : Compiles numeric (optionally (pushGroups " OR ") or) _ _ :=
        optionally_compiles fun groups hgroups => pushLogicalGroups_or (hor groups hgroups)
      have hstep : pushWhereGroup (.mk fields and or) = _ :=
        funext fun group => pushWhereGroup_mk fields and or group
      rw [CompilesFilter, hstep]
      refine ((hcomparisons.comp handGroups).comp horGroups).congr (fun columns => ?_) fun row => ?_
      · rw [FilterFits, every_mk, and_assoc]
      · rw [matches_mk, and_assoc]

/-- The clause is the word and one condition, if the lists have values in them. -/
theorem pushWhere_reads (numeric : String → Rat) (where_ : LegacyWhereInput) (query : QueryBuilder) :
    ∃ tokens read, Reads numeric tokens read (FilterFits numeric where_)
        (fun row => where_.Matches numeric row) ∧
      lex (pushWhere query (some where_)).sql = lex query.sql ++ .name "WHERE" :: tokens ∧
      (pushWhere query (some where_)).selection = query.selection := by
  have hopen : endsOpen (query.push " WHERE ").sql = true := endsOpen_push (by decide)
  obtain ⟨tokens, read, hreads, hlex, hselection⟩ :=
    group_reads (pushWhereGroup_compiles where_) hopen " TRUE" rfl
  refine ⟨tokens, read, hreads, hlex.trans ?_, hselection⟩
  rw [lex_push (.inl rfl), List.append_assoc]
  rfl

/-- A filter that fits is read as a condition about the columns of the table. -/
theorem Reads.of_fits {numeric : String → Rat} {tokens : List Token} {read : Option Cond}
    {F : Columns → Prop} {P : Row → Prop} (h : Reads numeric tokens read F P) {table : LegacyTable}
    (hfits : F table.columns) : ∃ c, read = some c ∧ c.Typed table.columns :=
  (h.typed table.columns (type_eq_filterType table)).mpr hfits

end

/-- The WHERE clause means the filter: the text is one condition about the columns of the table, and it
holds of the rows that match. -/
theorem pushWhere_selects (numeric : String → Rat) (table : LegacyTable) {where_ : LegacyWhereInput}
    (hfits : where_.Every numeric fun test => test.Fits table.columns) (query : QueryBuilder) :
    ∃ tokens c, lex (pushWhere query (some where_)).sql = lex query.sql ++ .name "WHERE" :: tokens ∧
      readCondition tokens = some (c, []) ∧ c.Typed table.columns ∧
      ∀ row, c.eval numeric row = .holds ↔ where_.Matches numeric row := by
  obtain ⟨tokens, read, hreads, hlex, _⟩ := pushWhere_reads numeric where_ query
  obtain ⟨c, rfl, htyped⟩ := hreads.of_fits hfits
  refine ⟨tokens, c, hlex, ?_, htyped, hreads.eval c rfl⟩
  have hread : readCondition (tokens ++ []) = some (c, []) :=
    hreads.disj.readCondition (by simp) (by simp) (by simp)
  rw [List.append_nil] at hread
  exact hread

/-- A block or later, and one of two messages. -/
def laterMessages : LegacyWhereInput :=
  .mk { blockNumberGte := some ⟨"100"⟩ } (some [])
    (some [.mk { msgHashEq := some "0xaa" } none none,
      .mk { idNotIn := some ["0xbb", "0xcc"], fromEq := some "0x01" } none none])

/-- The number a text of digits spells. -/
def spelledNumber (text : String) : Rat := (text.toNat?.getD 0 : Nat)

theorem pushWhere_selects_laterMessages :
    ∃ tokens c,
      lex (pushWhere (.new (.rows .ormpMessageAccepted)) (some laterMessages)).sql =
        lex (.new (.rows .ormpMessageAccepted) : QueryBuilder).sql ++ .name "WHERE" :: tokens ∧
      readCondition tokens = some (c, []) ∧ c.Typed LegacyTable.ormpMessageAccepted.columns ∧
      ∀ row, c.eval spelledNumber row = .holds ↔ laterMessages.Matches spelledNumber row := by
  apply pushWhere_selects
  simp [laterMessages, every_mk, WhereFields.tests, isText, isNumeric, isInteger, isBoolean,
    amongText, notAmongText, amongNumeric, Test.Fits, Test.column, Test.NonEmpty,
    LegacyTable.columns]

end OrmpIndexer.Graphql
