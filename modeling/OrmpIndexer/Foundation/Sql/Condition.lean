/-
# OrmpIndexer.Foundation.Sql.Condition — reading a condition, and what it means

`readCondition` reads tokens with the precedence of SQL: OR under AND under comparisons. `Cond.eval` is
the meaning of what was read in three truth values: a comparison with NULL is unknown, and a row is
selected if the condition holds.

`Primary`, `Conj` and `Disj` say what reading makes of tokens on one level of precedence, whatever comes
after them; with their rules a condition is put together as its text is. Where reading fails in a part,
the same rules say that it fails in the whole.
-/
import OrmpIndexer.Foundation.Sql.Text

namespace OrmpIndexer.Foundation.Sql

/-! ## Conditions -/

/-- A bound value, with the type it is cast to. -/
structure Operand where
  value : Scalar
  cast : Option String
deriving DecidableEq, Repr

inductive Cond where
  | truth
  | compare (column : String) (op : Op) (operand : Operand)
  | isIn (negated : Bool) (column : String) (operands : List Operand)
  | and (a b : Cond)
  | or (a b : Cond)

/-! ## Reading -/

/-- A list of operands and the parenthesis that closes it. -/
def readOperands : List Token → Option (List Operand × List Token)
  | .placeholder value :: .closeParen :: rest => some ([⟨value, none⟩], rest)
  | .placeholder value :: .comma :: rest =>
      (readOperands rest).map fun (operands, rest) => (⟨value, none⟩ :: operands, rest)
  | .placeholder value :: .cast :: .name type :: .closeParen :: rest =>
      some ([⟨value, some type⟩], rest)
  | .placeholder value :: .cast :: .name type :: .comma :: rest =>
      (readOperands rest).map fun (operands, rest) => (⟨value, some type⟩ :: operands, rest)
  | _ => none

/-- What comes after the column of a comparison. -/
def readComparison (column : String) : List Token → Option (Cond × List Token)
  | .op op :: .placeholder value :: .cast :: .name type :: rest =>
      some (.compare column op ⟨value, some type⟩, rest)
  | .op op :: .placeholder value :: rest => some (.compare column op ⟨value, none⟩, rest)
  | .isIn :: .openParen :: rest =>
      (readOperands rest).map fun (operands, rest) => (.isIn false column operands, rest)
  | .not :: .isIn :: .openParen :: rest =>
      (readOperands rest).map fun (operands, rest) => (.isIn true column operands, rest)
  | _ => none

mutual

def readOr : Nat → List Token → Option (Cond × List Token)
  | 0, _ => none
  | fuel + 1, tokens =>
      match readAnd fuel tokens with
      | some (a, .or :: rest) => (readOr fuel rest).map fun (b, rest) => (.or a b, rest)
      | read => read

def readAnd : Nat → List Token → Option (Cond × List Token)
  | 0, _ => none
  | fuel + 1, tokens =>
      match readPrimary fuel tokens with
      | some (a, .and :: rest) => (readAnd fuel rest).map fun (b, rest) => (.and a b, rest)
      | read => read

def readPrimary : Nat → List Token → Option (Cond × List Token)
  | 0, _ => none
  | fuel + 1, .openParen :: tokens =>
      match readOr fuel tokens with
      | some (c, .closeParen :: rest) => some (c, rest)
      | _ => none
  | _ + 1, .true :: rest => some (.truth, rest)
  | _ + 1, .name column :: rest => readComparison column rest
  | _ + 1, _ => none

end

/-- A condition at the beginning of the tokens, and the tokens after it. A token takes three turns at
most. -/
def readCondition (tokens : List Token) : Option (Cond × List Token) :=
  readOr (3 * tokens.length + 2) tokens

/-! ## Meaning -/

/-- The truth values of SQL. -/
inductive Truth where
  | holds
  | fails
  | unknown
deriving DecidableEq, Repr

namespace Truth

def ofBool : Bool → Truth
  | true => holds
  | false => fails

def and : Truth → Truth → Truth
  | fails, _ => fails
  | _, fails => fails
  | holds, holds => holds
  | _, _ => unknown

def or : Truth → Truth → Truth
  | holds, _ => holds
  | _, holds => holds
  | fails, fails => fails
  | _, _ => unknown

def not : Truth → Truth
  | holds => fails
  | fails => holds
  | unknown => unknown

@[simp]
theorem ofBool_eq_holds {b : Bool} : ofBool b = holds ↔ b = true := by cases b <;> simp [ofBool]

@[simp]
theorem ofBool_eq_fails {b : Bool} : ofBool b = fails ↔ b = false := by cases b <;> simp [ofBool]

@[simp]
theorem and_eq_holds {a b : Truth} : a.and b = holds ↔ a = holds ∧ b = holds := by
  cases a <;> cases b <;> simp [and]

@[simp]
theorem or_eq_holds {a b : Truth} : a.or b = holds ↔ a = holds ∨ b = holds := by
  cases a <;> cases b <;> simp [or]

@[simp]
theorem or_eq_fails {a b : Truth} : a.or b = fails ↔ a = fails ∧ b = fails := by
  cases a <;> cases b <;> simp [or]

@[simp]
theorem not_eq_holds {a : Truth} : a.not = holds ↔ a = fails := by cases a <;> simp [not]

end Truth

/-- The columns of a row; NULL is `none`. -/
abbrev Row := String → Option Scalar

section

variable (numeric : String → Rat)

/-- The value of an operand, where `numeric` is the cast to NUMERIC. -/
def Operand.eval : Operand → Option Scalar
  | ⟨value, none⟩ => some value
  | ⟨.text s, some "NUMERIC"⟩ => some (.numeric (numeric s))
  | _ => none

/-- A comparison of a column with a value. -/
def compareValues (op : Op) (a b : Option Scalar) : Truth :=
  match a, b with
  | some a, some b => .ofBool (op.test a b)
  | _, _ => .unknown

/-- `a IN (values)`: one of the equations holds. -/
def isAmong (a : Option Scalar) : List (Option Scalar) → Truth
  | [] => .fails
  | b :: values => (compareValues .eq a b).or (isAmong a values)

def Cond.eval (row : Row) : Cond → Truth
  | .truth => .holds
  | .compare column op operand => compareValues op (row column) (operand.eval numeric)
  | .isIn negated column operands =>
      let among := isAmong (row column) (operands.map (·.eval numeric))
      if negated then among.not else among
  | .and a b => (a.eval row).and (b.eval row)
  | .or a b => (a.eval row).or (b.eval row)

end

/-- The columns of a table with their types. -/
abbrev Columns := List (String × ScalarType)

def Operand.type : Operand → Option ScalarType
  | ⟨value, none⟩ => some value.type
  | ⟨.text _, some "NUMERIC"⟩ => some .numeric
  | _ => none

/-- The condition names columns of the table and compares them with values of their types. -/
def Cond.Typed (columns : Columns) : Cond → Prop
  | .truth => True
  | .compare column _ operand => ∃ type, (column, type) ∈ columns ∧ operand.type = some type
  | .isIn _ column operands =>
      ∃ type, (column, type) ∈ columns ∧ ∀ operand ∈ operands, operand.type = some type
  | .and a b => a.Typed columns ∧ b.Typed columns
  | .or a b => a.Typed columns ∧ b.Typed columns

/-! ## Tokens on one level of precedence -/

/-- The tokens are read as one comparison or one parenthesis, or not at all, whatever follows that is
not a cast. -/
def Primary (tokens : List Token) (read : Option Cond) : Prop :=
  ∀ fuel rest, 3 * tokens.length ≤ fuel → rest.head? ≠ some .cast →
    readPrimary fuel (tokens ++ rest) = read.map fun c => (c, rest)

/-- The tokens are read as a conjunction, or not at all. -/
def Conj (tokens : List Token) (read : Option Cond) : Prop :=
  ∀ fuel rest, 3 * tokens.length + 1 ≤ fuel → rest.head? ≠ some .cast → rest.head? ≠ some .and →
    readAnd fuel (tokens ++ rest) = read.map fun c => (c, rest)

/-- The tokens are read as a disjunction, or not at all. -/
def Disj (tokens : List Token) (read : Option Cond) : Prop :=
  ∀ fuel rest, 3 * tokens.length + 2 ≤ fuel → rest.head? ≠ some .cast → rest.head? ≠ some .and →
    rest.head? ≠ some .or → readOr fuel (tokens ++ rest) = read.map fun c => (c, rest)

theorem Primary.conj {tokens : List Token} {read : Option Cond} (h : Primary tokens read) :
    Conj tokens read := by
  intro fuel rest hfuel hcast hand
  obtain ⟨fuel, rfl⟩ : ∃ n, fuel = n + 1 := ⟨fuel - 1, by omega⟩
  rw [readAnd, h fuel rest (by omega) hcast]
  cases read with
  | none => rfl
  | some c =>
      cases rest with
      | nil => rfl
      | cons token rest => cases token <;> first | rfl | exact absurd rfl hand

theorem Primary.and {tokens tokens' : List Token} {a b : Option Cond} (ha : Primary tokens a)
    (hb : Conj tokens' b) :
    Conj (tokens ++ .and :: tokens') (a.bind fun a => b.map fun b => .and a b) := by
  intro fuel rest hfuel hcast hand
  rw [List.length_append, List.length_cons] at hfuel
  obtain ⟨fuel, rfl⟩ : ∃ n, fuel = n + 1 := ⟨fuel - 1, by omega⟩
  rw [readAnd, List.append_assoc, List.cons_append,
    ha fuel (.and :: (tokens' ++ rest)) (by omega) (by simp)]
  cases a with
  | none => rfl
  | some a =>
      simp only [Option.map_some, hb fuel rest (by omega) hcast hand]
      cases b <;> rfl

theorem Conj.disj {tokens : List Token} {read : Option Cond} (h : Conj tokens read) :
    Disj tokens read := by
  intro fuel rest hfuel hcast hand hor
  obtain ⟨fuel, rfl⟩ : ∃ n, fuel = n + 1 := ⟨fuel - 1, by omega⟩
  rw [readOr, h fuel rest (by omega) hcast hand]
  cases read with
  | none => rfl
  | some c =>
      cases rest with
      | nil => rfl
      | cons token rest => cases token <;> first | rfl | exact absurd rfl hor

theorem Conj.or {tokens tokens' : List Token} {a b : Option Cond} (ha : Conj tokens a)
    (hb : Disj tokens' b) :
    Disj (tokens ++ .or :: tokens') (a.bind fun a => b.map fun b => .or a b) := by
  intro fuel rest hfuel hcast hand hor
  rw [List.length_append, List.length_cons] at hfuel
  obtain ⟨fuel, rfl⟩ : ∃ n, fuel = n + 1 := ⟨fuel - 1, by omega⟩
  rw [readOr, List.append_assoc, List.cons_append,
    ha fuel (.or :: (tokens' ++ rest)) (by omega) (by simp) (by simp)]
  cases a with
  | none => rfl
  | some a =>
      simp only [Option.map_some, hb fuel rest (by omega) hcast hand hor]
      cases b <;> rfl

/-- Whatever is in parentheses is one primary condition. -/
theorem Disj.parens {tokens : List Token} {read : Option Cond} (h : Disj tokens read) :
    Primary (.openParen :: (tokens ++ [.closeParen])) read := by
  intro fuel rest hfuel _
  simp only [List.length_cons, List.length_append, List.length_nil] at hfuel
  obtain ⟨fuel, rfl⟩ : ∃ n, fuel = n + 1 := ⟨fuel - 1, by omega⟩
  have hread := h fuel (.closeParen :: rest) (by omega) (by simp) (by simp) (by simp)
  rw [List.cons_append, readPrimary, List.append_assoc, List.singleton_append, hread]
  cases read <;> rfl

theorem primary_truth : Primary [.true] (some .truth) := by
  intro fuel rest hfuel _
  obtain ⟨fuel, rfl⟩ : ∃ n, fuel = n + 1 := ⟨fuel - 1, by
    rw [List.length_singleton] at hfuel
    omega⟩
  rfl

/-- A comparison is read by what comes after its column. -/
theorem primary_comparison {column : String} {tokens : List Token} {read : Option Cond}
    (h : ∀ rest, rest.head? ≠ some .cast →
      readComparison column (tokens ++ rest) = read.map fun c => (c, rest)) :
    Primary (.name column :: tokens) read := by
  intro fuel rest hfuel hcast
  rw [List.length_cons] at hfuel
  obtain ⟨fuel, rfl⟩ : ∃ n, fuel = n + 1 := ⟨fuel - 1, by omega⟩
  rw [List.cons_append, readPrimary]
  exact h rest hcast

theorem Disj.readCondition {tokens : List Token} {read : Option Cond} (h : Disj tokens read)
    {rest : List Token} (hcast : rest.head? ≠ some .cast) (hand : rest.head? ≠ some .and)
    (hor : rest.head? ≠ some .or) :
    Sql.readCondition (tokens ++ rest) = read.map fun c => (c, rest) := by
  refine h _ rest ?_ hcast hand hor
  rw [List.length_append]
  omega

/-! ## Chains -/

/-- Parts with a separator before each one but the first, and before the first one too where the chain
has been started already. -/
def chained (separator : Token) : Bool → List (List Token) → List Token
  | _, [] => []
  | started, part :: parts =>
      (if started then [separator] else []) ++ part ++ chained separator true parts

theorem chained_false_cons (separator : Token) (part next : List Token) (parts : List (List Token)) :
    chained separator false (part :: next :: parts) =
      part ++ separator :: chained separator false (next :: parts) :=
  rfl

theorem chained_append (separator : Token) (started : Bool) (parts parts' : List (List Token)) :
    chained separator started (parts ++ parts') = chained separator started parts ++
      chained separator (started || !parts.isEmpty) parts' := by
  induction parts generalizing started with
  | nil => simp [chained]
  | cons part parts ih =>
      rw [List.cons_append, chained, chained, ih]
      simp

/-- All of the conditions. -/
def Cond.all : List Cond → Cond
  | [] => .truth
  | [c] => c
  | c :: next :: cs => .and c (Cond.all (next :: cs))

/-- One of the conditions, of which there is one at least. -/
def Cond.any : List Cond → Cond
  | [] => .truth
  | [c] => c
  | c :: next :: cs => .or c (Cond.any (next :: cs))

theorem Cond.all_cons (c : Cond) {cs : List Cond} (h : cs ≠ []) :
    Cond.all (c :: cs) = .and c (Cond.all cs) := by
  cases cs with
  | nil => exact absurd rfl h
  | cons next cs => rfl

theorem Cond.any_cons (c : Cond) {cs : List Cond} (h : cs ≠ []) :
    Cond.any (c :: cs) = .or c (Cond.any cs) := by
  cases cs with
  | nil => exact absurd rfl h
  | cons next cs => rfl

/-- All of the values, if none is missing. -/
def collect {α : Type} : List (Option α) → Option (List α)
  | [] => some []
  | value :: values => value.bind fun a => (collect values).map fun as => a :: as

theorem collect_eq_some {α : Type} {values : List (Option α)} {as : List α} :
    collect values = some as ↔ values = as.map some := by
  induction values generalizing as with
  | nil => cases as <;> simp [collect]
  | cons value values ih =>
      cases value with
      | none => cases as <;> simp [collect]
      | some a =>
          cases as with
          | nil => simp [collect]
          | cons b as =>
              simp only [collect, Option.bind_some, Option.map_eq_some_iff, ih, List.map_cons,
                List.cons.injEq, Option.some.injEq]
              constructor
              · rintro ⟨as, hvalues, rfl, rfl⟩
                exact ⟨rfl, hvalues⟩
              · rintro ⟨rfl, hvalues⟩
                exact ⟨as, hvalues, rfl, rfl⟩

/-- A chain is read if all its parts are, and `combine` puts the conditions together. -/
theorem collect_cons_map {combine : List Cond → Cond} {op : Cond → Cond → Cond}
    (hop : ∀ c {cs}, cs ≠ [] → combine (c :: cs) = op c (combine cs)) (read : Option Cond)
    {reads : List (Option Cond)} (h : reads ≠ []) :
    (collect (read :: reads)).map combine =
      read.bind fun c => ((collect reads).map combine).map fun d => op c d := by
  cases read with
  | none => rfl
  | some c =>
      cases hreads : collect reads with
      | none => simp [collect, hreads]
      | some cs =>
          have hne : cs ≠ [] := by
            rintro rfl
            exact h (collect_eq_some.mp hreads)
          simp [collect, hreads, hop c hne]

/-- A chain is read if each part is, alone and in front of a chain that is read. -/
theorem reads_chained {separator : Token} {combine : List Cond → Cond} {op : Cond → Cond → Cond}
    {Reads : List Token → Option Cond → Prop} (hone : ∀ c, combine [c] = c)
    (hmore : ∀ c {cs}, cs ≠ [] → combine (c :: cs) = op c (combine cs))
    {parts : List (List Token × Option Cond)} (one : ∀ part ∈ parts, Reads part.1 part.2)
    (more : ∀ part ∈ parts, ∀ tokens read, Reads tokens read →
      Reads (part.1 ++ separator :: tokens) (part.2.bind fun c => read.map fun d => op c d))
    (hne : parts ≠ []) :
    Reads (chained separator false (parts.map (·.1))) ((collect (parts.map (·.2))).map combine) := by
  induction parts with
  | nil => exact absurd rfl hne
  | cons part parts ih =>
      cases parts with
      | nil =>
          have hread : (collect [part.2]).map combine = part.2 := by
            cases part.2 with
            | none => rfl
            | some c => exact congrArg some (hone c)
          simpa [chained, hread] using one part List.mem_cons_self
      | cons next parts =>
          have hrest := ih (fun p hp => one p (List.mem_cons_of_mem part hp))
            (fun p hp => more p (List.mem_cons_of_mem part hp)) (List.cons_ne_nil next parts)
          have hreads : (collect ((part :: next :: parts).map (·.2))).map combine = _ :=
            collect_cons_map hmore part.2 (by simp)
          rw [hreads]
          exact more part List.mem_cons_self _ _ hrest

theorem conj_chained {parts : List (List Token × Option Cond)}
    (h : ∀ part ∈ parts, Primary part.1 part.2) (hne : parts ≠ []) :
    Conj (chained .and false (parts.map (·.1))) ((collect (parts.map (·.2))).map Cond.all) :=
  reads_chained (fun _ => rfl) Cond.all_cons (fun part hpart => (h part hpart).conj)
    (fun part hpart _ _ hrest => (h part hpart).and hrest) hne

theorem disj_chained {parts : List (List Token × Option Cond)}
    (h : ∀ part ∈ parts, Primary part.1 part.2) (hne : parts ≠ []) :
    Disj (chained .or false (parts.map (·.1))) ((collect (parts.map (·.2))).map Cond.any) :=
  reads_chained (fun _ => rfl) Cond.any_cons (fun part hpart => (h part hpart).conj.disj)
    (fun part hpart _ _ hrest => (h part hpart).conj.or hrest) hne

theorem Cond.eval_all (numeric : String → Rat) (row : Row) (cs : List Cond) :
    (Cond.all cs).eval numeric row = .holds ↔ ∀ c ∈ cs, c.eval numeric row = .holds := by
  induction cs with
  | nil => simp [Cond.all, Cond.eval]
  | cons c cs ih =>
      cases cs with
      | nil => simp [Cond.all]
      | cons next cs =>
          rw [Cond.all, Cond.eval, Truth.and_eq_holds, ih]
          simp

theorem Cond.eval_any (numeric : String → Rat) (row : Row) {cs : List Cond} (h : cs ≠ []) :
    (Cond.any cs).eval numeric row = .holds ↔ ∃ c ∈ cs, c.eval numeric row = .holds := by
  induction cs with
  | nil => exact absurd rfl h
  | cons c cs ih =>
      cases cs with
      | nil => simp [Cond.any]
      | cons next cs =>
          rw [Cond.any, Cond.eval, Truth.or_eq_holds, ih (List.cons_ne_nil next cs)]
          simp

theorem Cond.typed_all (columns : Columns) (cs : List Cond) :
    (Cond.all cs).Typed columns ↔ ∀ c ∈ cs, c.Typed columns := by
  induction cs with
  | nil => simp [Cond.all, Cond.Typed]
  | cons c cs ih =>
      cases cs with
      | nil => simp [Cond.all]
      | cons next cs =>
          rw [Cond.all, Cond.Typed, ih]
          simp

theorem Cond.typed_any (columns : Columns) (cs : List Cond) :
    (Cond.any cs).Typed columns ↔ ∀ c ∈ cs, c.Typed columns := by
  induction cs with
  | nil => simp [Cond.any, Cond.Typed]
  | cons c cs ih =>
      cases cs with
      | nil => simp [Cond.any]
      | cons next cs =>
          rw [Cond.any, Cond.Typed, ih]
          simp

/-! ## Comparisons -/

def Operand.tokens : Operand → List Token
  | ⟨value, none⟩ => [.placeholder value]
  | ⟨value, some type⟩ => [.placeholder value, .cast, .name type]

theorem primary_compare (column : String) (op : Op) (operand : Operand) :
    Primary (.name column :: .op op :: operand.tokens) (some (.compare column op operand)) := by
  apply primary_comparison
  intro rest hcast
  obtain ⟨value, cast⟩ := operand
  cases cast with
  | some type => rfl
  | none =>
      cases rest with
      | nil => rfl
      | cons token rest => cases token <;> first | rfl | exact absurd rfl hcast

/-- Operands with commas between them. -/
def operandTokens (operands : List Operand) : List Token :=
  chained .comma false (operands.map (·.tokens))

theorem readOperands_operandTokens {operands : List Operand} (h : operands ≠ []) (rest : List Token) :
    readOperands (operandTokens operands ++ .closeParen :: rest) = some (operands, rest) := by
  induction operands with
  | nil => exact absurd rfl h
  | cons operand operands ih =>
      obtain ⟨value, cast⟩ := operand
      cases operands with
      | nil => cases cast <;> rfl
      | cons next operands =>
          have hnext := ih (List.cons_ne_nil next operands)
          have hcomma : operandTokens (⟨value, cast⟩ :: next :: operands) =
              (Operand.mk value cast).tokens ++ .comma :: operandTokens (next :: operands) :=
            chained_false_cons ..
          rw [hcomma, List.append_assoc, List.cons_append]
          cases cast with
          | none =>
              show (readOperands (operandTokens (next :: operands) ++ .closeParen :: rest)).map _ = _
              rw [hnext]
              rfl
          | some type =>
              show (readOperands (operandTokens (next :: operands) ++ .closeParen :: rest)).map _ = _
              rw [hnext]
              rfl

/-- A list of operands, if there is one. -/
def Cond.isInList (negated : Bool) (column : String) (operands : List Operand) : Option Cond :=
  if operands = [] then none else some (.isIn negated column operands)

/-- The parenthesis that closes a list has to come after an operand. -/
theorem readOperands_map (negated : Bool) (column : String) (operands : List Operand)
    (rest : List Token) :
    ((readOperands (operandTokens operands ++ .closeParen :: rest)).map fun (operands, rest) =>
      (Cond.isIn negated column operands, rest)) =
        (Cond.isInList negated column operands).map fun c => (c, rest) := by
  by_cases h : operands = []
  · subst h
    rfl
  · rw [readOperands_operandTokens h, Cond.isInList, if_neg h]
    rfl

theorem primary_isIn (column : String) (operands : List Operand) :
    Primary (.name column :: .isIn :: .openParen :: (operandTokens operands ++ [.closeParen]))
      (Cond.isInList false column operands) := by
  apply primary_comparison
  intro rest _
  rw [List.cons_append, List.cons_append, List.append_assoc]
  exact readOperands_map false column operands rest

theorem primary_notIn (column : String) (operands : List Operand) :
    Primary
      (.name column :: .not :: .isIn :: .openParen :: (operandTokens operands ++ [.closeParen]))
      (Cond.isInList true column operands) := by
  apply primary_comparison
  intro rest _
  rw [List.cons_append, List.cons_append, List.cons_append, List.append_assoc]
  exact readOperands_map true column operands rest

theorem isAmong_eq_holds {a : Scalar} {values : List (Option Scalar)} :
    isAmong (some a) values = .holds ↔ some a ∈ values := by
  induction values with
  | nil => simp [isAmong]
  | cons b values ih =>
      rw [isAmong, Truth.or_eq_holds, ih, List.mem_cons]
      cases b with
      | none => simp [compareValues]
      | some b => simp [compareValues, Op.test]

theorem isAmong_eq_fails {a : Scalar} {values : List (Option Scalar)} (h : none ∉ values) :
    isAmong (some a) values = .fails ↔ some a ∉ values := by
  induction values with
  | nil => simp [isAmong]
  | cons b values ih =>
      rw [List.mem_cons, not_or] at h
      rw [isAmong, Truth.or_eq_fails, ih h.2, List.mem_cons, not_or]
      cases b with
      | none => exact absurd rfl h.1
      | some b => simp [compareValues, Op.test]

/-- NULL is neither among the values nor not among them. -/
theorem isAmong_none {values : List (Option Scalar)} (h : values ≠ []) :
    isAmong none values = .unknown := by
  induction values with
  | nil => exact absurd rfl h
  | cons b values ih =>
      cases values with
      | nil => rfl
      | cons next values =>
          rw [isAmong, ih (List.cons_ne_nil next values)]
          rfl

end OrmpIndexer.Foundation.Sql
