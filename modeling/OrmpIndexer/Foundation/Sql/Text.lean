/-
# OrmpIndexer.Foundation.Sql.Text — from the text of a statement to its tokens

A statement is put together as text: characters, with the bound values in their places. `lex` makes
tokens of it: words and operators as long as possible, the other marks alone. `lex_append` says how a
text is read piece by piece, wherever one side of the seam is open; a piece that begins or ends with a
letter does not have that by itself.
-/

namespace OrmpIndexer.Foundation.Sql

/-! ## Values -/

inductive ScalarType where
  | text
  | numeric
  | integer
  | boolean
deriving DecidableEq, Repr

inductive Scalar where
  | text (value : String)
  | numeric (value : Rat)
  | integer (value : Int)
  | boolean (value : Bool)
deriving DecidableEq, Repr

def Scalar.type : Scalar → ScalarType
  | .text _ => .text
  | .numeric _ => .numeric
  | .integer _ => .integer
  | .boolean _ => .boolean

/-- The comparison operators. -/
inductive Op where
  | eq
  | ne
  | gt
  | gte
  | lt
  | lte
deriving DecidableEq, Repr

/-- Values of one type are compared; texts by their code points. -/
def Scalar.lt : Scalar → Scalar → Bool
  | .text a, .text b => decide (a < b)
  | .numeric a, .numeric b => decide (a < b)
  | .integer a, .integer b => decide (a < b)
  | .boolean a, .boolean b => !a && b
  | _, _ => false

def Op.test : Op → Scalar → Scalar → Bool
  | .eq, a, b => decide (a = b)
  | .ne, a, b => decide (a ≠ b)
  | .gt, a, b => b.lt a
  | .gte, a, b => !a.lt b
  | .lt, a, b => a.lt b
  | .lte, a, b => !b.lt a

/-! ## Texts and tokens -/

/-- A text with values bound in it. -/
inductive Symbol where
  | char (c : Char)
  | placeholder (value : Scalar)
deriving DecidableEq, Repr

abbrev Text := List Symbol

def ofString (s : String) : Text := s.toList.map .char

inductive Token where
  | name (text : String)
  | and
  | or
  | not
  | isIn
  | true
  | openParen
  | closeParen
  | comma
  | dot
  | cast
  | op (op : Op)
  | placeholder (value : Scalar)
  | junk (text : String)
deriving DecidableEq, Repr

/-- Keywords are spelled in upper case here; in lower case they are names only with quotes. -/
def reservedWords : List String :=
  ["all", "and", "any", "as", "asc", "desc", "for", "from", "group", "having", "in", "into", "limit",
    "not", "null", "offset", "or", "order", "select", "to", "true", "union", "user", "using", "where",
    "with"]

/-- Keywords, and names with or without quotes. -/
def Token.ofWord : List Char → Token
  | '"' :: rest => .name (String.ofList (rest.takeWhile (· ≠ '"')))
  | word =>
      match String.ofList word with
      | "AND" => .and
      | "OR" => .or
      | "NOT" => .not
      | "IN" => .isIn
      | "TRUE" => .true
      | text => if text ∈ reservedWords then .junk text else .name text

def Token.ofMark (mark : List Char) : Token :=
  match String.ofList mark with
  | "(" => .openParen
  | ")" => .closeParen
  | "," => .comma
  | "." => .dot
  | "::" => .cast
  | "=" => .op .eq
  | "<>" => .op .ne
  | ">" => .op .gt
  | ">=" => .op .gte
  | "<" => .op .lt
  | "<=" => .op .lte
  | text => .junk text

/-- Words and operators are as long as possible; the other marks stand alone. -/
inductive CharKind where
  | space
  | single
  | operator
  | word
deriving DecidableEq, Repr

def charKind (c : Char) : CharKind :=
  if c = ' ' ∨ c = '\n' then .space
  else if c = '(' ∨ c = ')' ∨ c = ',' ∨ c = '.' then .single
  else if c = '<' ∨ c = '>' ∨ c = '=' ∨ c = ':' then .operator
  else .word

/-- The token of the characters read so far. -/
def flush : CharKind → List Char → List Token
  | .word, pending => [.ofWord pending]
  | .operator, pending => [.ofMark pending]
  | _, _ => []

def lexFrom (kind : CharKind) (pending : List Char) : Text → List Token
  | [] => flush kind pending
  | .placeholder value :: text =>
      flush kind pending ++ .placeholder value :: lexFrom .space [] text
  | .char c :: text =>
      match charKind c with
      | .space => flush kind pending ++ lexFrom .space [] text
      | .single => flush kind pending ++ .ofMark [c] :: lexFrom .space [] text
      | k =>
          if k = kind then lexFrom kind (pending ++ [c]) text
          else flush kind pending ++ lexFrom k [c] text

def lex (text : Text) : List Token := lexFrom .space [] text

/-! ## Seams -/

/-- A symbol that does not grow together with its neighbours. -/
def Symbol.isOpen : Symbol → Bool
  | .char c => charKind c = .space || charKind c = .single
  | .placeholder _ => true

/-- The text begins, or ends, with such a symbol, if it has one. -/
def startsOpen (text : Text) : Bool := text.head?.all Symbol.isOpen
def endsOpen (text : Text) : Bool := text.getLast?.all Symbol.isOpen

theorem endsOpen_append {a b : Text} (hb : b ≠ []) : endsOpen (a ++ b) = endsOpen b := by
  rw [endsOpen, endsOpen, List.getLast?_append, List.getLast?_eq_some_getLast hb]
  rfl

theorem endsOpen_of_cons {symbol : Symbol} {text : Text} (h : endsOpen (symbol :: text) = true) :
    endsOpen text = true := by
  cases text with
  | nil => rfl
  | cons next text =>
      rw [← List.singleton_append, endsOpen_append (List.cons_ne_nil next text)] at h
      exact h

/-- Nothing is pending after an open symbol. -/
theorem lexFrom_space (pending : List Char) (text : Text) : lexFrom .space pending text = lex text := by
  cases text with
  | nil => rfl
  | cons symbol text =>
      cases symbol with
      | placeholder value => rfl
      | char c =>
          rw [lex, lexFrom, lexFrom]
          cases hkind : charKind c <;> rfl

theorem lexFrom_of_startsOpen {text : Text} (h : startsOpen text = true) (kind : CharKind)
    (pending : List Char) : lexFrom kind pending text = flush kind pending ++ lex text := by
  cases text with
  | nil => exact (List.append_nil _).symm
  | cons symbol text =>
      cases symbol with
      | placeholder value => rfl
      | char c =>
          have hopen : charKind c = .space ∨ charKind c = .single := by
            simpa [startsOpen, Symbol.isOpen] using h
          rcases hopen with hkind | hkind
          · simp only [lex, lexFrom, hkind, flush, List.nil_append]
          · simp only [lex, lexFrom, hkind, flush, List.nil_append]

/-- The pending characters are a token of their own if what follows is open or if something open comes
before it. -/
theorem lexFrom_append {a b : Text} {kind : CharKind} {pending : List Char}
    (h : startsOpen b = true ∨ (a = [] → kind = .space) ∧ endsOpen a = true) :
    lexFrom kind pending (a ++ b) = lexFrom kind pending a ++ lex b := by
  induction a generalizing kind pending with
  | nil =>
      rcases h with hb | ⟨hkind, _⟩
      · exact lexFrom_of_startsOpen hb kind pending
      · rw [hkind rfl]
        exact lexFrom_space pending b
  | cons symbol a ih =>
      have hrest : startsOpen b = true ∨ endsOpen a = true := h.imp id fun ha => endsOpen_of_cons ha.2
      have hspace : lexFrom .space [] (a ++ b) = lexFrom .space [] a ++ lex b :=
        ih (hrest.imp id fun ha => ⟨fun _ => rfl, ha⟩)
      cases symbol with
      | placeholder value =>
          show _ ++ _ :: lexFrom .space [] (a ++ b) = (_ ++ _ :: lexFrom .space [] a) ++ lex b
          rw [hspace, List.append_assoc, List.cons_append]
      | char c =>
          -- a last character that is not open cannot be in front of such a `b`
          have hlast : ∀ k, charKind c = k → k ≠ .space → k ≠ .single →
              startsOpen b = true ∨ (a = [] → k = .space) ∧ endsOpen a = true := by
            intro k hk hspace hsingle
            refine h.imp id fun ha => ⟨fun hnil => ?_, endsOpen_of_cons ha.2⟩
            have hopen := ha.2
            simp [hnil, endsOpen, Symbol.isOpen, hk, hspace, hsingle] at hopen
          rw [List.cons_append, lexFrom, lexFrom]
          cases hkind : charKind c with
          | space =>
              show _ ++ lexFrom .space [] (a ++ b) = (_ ++ lexFrom .space [] a) ++ lex b
              rw [hspace, List.append_assoc]
          | single =>
              show _ ++ _ :: lexFrom .space [] (a ++ b) = (_ ++ _ :: lexFrom .space [] a) ++ lex b
              rw [hspace, List.append_assoc, List.cons_append]
          | operator =>
              have hnext := hlast _ hkind (by decide) (by decide)
              by_cases hsame : CharKind.operator = kind
              · simp only [if_pos hsame]
                exact ih (hsame ▸ hnext)
              · simp only [if_neg hsame]
                rw [ih hnext, List.append_assoc]
          | word =>
              have hnext := hlast _ hkind (by decide) (by decide)
              by_cases hsame : CharKind.word = kind
              · simp only [if_pos hsame]
                exact ih (hsame ▸ hnext)
              · simp only [if_neg hsame]
                rw [ih hnext, List.append_assoc]

/-- Reading goes piece by piece where one side of the seam is open. -/
theorem lex_append {a b : Text} (h : startsOpen b = true ∨ endsOpen a = true) :
    lex (a ++ b) = lex a ++ lex b :=
  lexFrom_append (h.imp id fun ha => ⟨fun _ => rfl, ha⟩)

/-! ## Words -/

/-- The characters of one word. -/
def IsWord (s : List Char) : Prop := s ≠ [] ∧ ∀ c ∈ s, charKind c = .word

instance (s : List Char) : Decidable (IsWord s) :=
  have : Decidable (∀ c ∈ s, charKind c = .word) := List.decidableBAll _ s
  inferInstanceAs (Decidable (s ≠ [] ∧ ∀ c ∈ s, charKind c = .word))

theorem lexFrom_word {word : List Char} (h : ∀ c ∈ word, charKind c = .word) (pending : List Char)
    (rest : Text) :
    lexFrom .word pending (word.map .char ++ rest) = lexFrom .word (pending ++ word) rest := by
  induction word generalizing pending with
  | nil => rw [List.append_nil]; rfl
  | cons c word ih =>
      obtain ⟨hc, hword⟩ := List.forall_mem_cons.mp h
      rw [List.map_cons, List.cons_append, lexFrom]
      simp only [hc, if_true]
      rw [ih hword, List.append_assoc, List.singleton_append]

/-- A word ends in front of an operator. -/
theorem lex_word_append {word : List Char} (h : IsWord word) {c : Char} {rest : Text}
    (hc : charKind c = .operator) :
    lex (word.map .char ++ .char c :: rest) = .ofWord word :: lex (.char c :: rest) := by
  obtain ⟨hne, hword⟩ := h
  cases word with
  | nil => exact absurd rfl hne
  | cons d word =>
      obtain ⟨hd, hrest⟩ := List.forall_mem_cons.mp hword
      rw [List.map_cons, List.cons_append, lex, lexFrom]
      simp only [hd, flush, List.nil_append, reduceCtorEq, if_false]
      rw [lexFrom_word hrest, lexFrom, lex, lexFrom]
      simp only [hc, flush, reduceCtorEq, if_false, List.nil_append, List.singleton_append]

theorem lex_word {word : List Char} (h : IsWord word) : lex (word.map .char) = [.ofWord word] := by
  obtain ⟨hne, hword⟩ := h
  cases word with
  | nil => exact absurd rfl hne
  | cons d word =>
      obtain ⟨hd, hrest⟩ := List.forall_mem_cons.mp hword
      have hlex := lexFrom_word hrest [d] []
      rw [List.append_nil] at hlex
      rw [List.map_cons, lex, lexFrom]
      simp only [hd, flush, List.nil_append, reduceCtorEq, if_false, hlex]
      rfl

end OrmpIndexer.Foundation.Sql
