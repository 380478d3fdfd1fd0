/-
# OrmpIndexer.Foundation.Exposition — pages of metrics as text

A page is a list of lines. A line is empty, a comment, or a sample: the name of a metric, its labels between
braces, and a value. `readPage` is how a scraper reads it. `Reads` says what a piece of a page is read as,
whatever stands behind it, so a page is read piece by piece.

The value of a label stands in quotes, with quotes and backslashes escaped. A newline may be escaped as well
(`readLabels` knows it); one that is not ends the line, and `Sample.Writable` asks that there is none.
-/
import Mathlib.Data.List.Nodup
import Mathlib.Tactic.Common

namespace OrmpIndexer.Foundation.Exposition

/-- A sample is the value of a series, which is a metric with labels. -/
structure Sample where
  name : String
  labels : List (String × String)
  value : String
deriving DecidableEq, Repr

/-! ## Reading -/

/-- The lines of a text; what stands behind the last newline is a line if it is not empty. -/
def lines : List Char → List (List Char)
  | [] => []
  | '\n' :: text => [] :: lines text
  | c :: text =>
      match lines text with
      | [] => [[c]]
      | line :: rest => (c :: line) :: rest

/-- The characters of names. -/
def isNameChar (c : Char) : Bool := c.isAlphanum || c == '_' || c == ':'

/-- Where the reader is between the braces. -/
inductive Place where
  | name (read : List Char)
  | opening (name : List Char)
  | value (name read : List Char)
  | escape (name read : List Char)
  | behind

/-- The labels up to the closing brace, and what stands behind it. -/
def readLabels : Place → List (String × String) → List Char →
    Option (List (String × String) × List Char)
  | .name [], labels, '}' :: text => some (labels, text)
  | .name [], _, '=' :: _ => none
  | .name read, labels, '=' :: text => readLabels (.opening read) labels text
  | .name read, labels, c :: text =>
      if isNameChar c then readLabels (.name (read ++ [c])) labels text else none
  | .opening name, labels, '"' :: text => readLabels (.value name []) labels text
  | .value name read, labels, '\\' :: text => readLabels (.escape name read) labels text
  | .value name read, labels, '"' :: text =>
      readLabels .behind (labels ++ [(String.ofList name, String.ofList read)]) text
  | .value name read, labels, c :: text => readLabels (.value name (read ++ [c])) labels text
  | .escape name read, labels, '\\' :: text => readLabels (.value name (read ++ ['\\'])) labels text
  | .escape name read, labels, '"' :: text => readLabels (.value name (read ++ ['"'])) labels text
  | .escape name read, labels, 'n' :: text => readLabels (.value name (read ++ ['\n'])) labels text
  | .behind, labels, ',' :: text => readLabels (.name []) labels text
  | .behind, labels, '}' :: text => some (labels, text)
  | _, _, _ => none

/-- The value stands behind a space, to the end of the line. -/
def readValue (name : List Char) : Option (List (String × String) × List Char) → Option Sample
  | some (labels, ' ' :: value) => some ⟨String.ofList name, labels, String.ofList value⟩
  | _ => none

def readSample (line : List Char) : Option Sample :=
  let name := line.takeWhile isNameChar
  match line.dropWhile isNameChar with
  | '{' :: text => readValue name (readLabels (.name []) [] text)
  | text => readValue name (some ([], text))

/-- Comments and empty lines say nothing. -/
def readLine : List Char → Option (List Sample)
  | [] => some []
  | '#' :: _ => some []
  | line => (readSample line).map ([·])

/-- All samples of a page, if every line can be read. -/
def readPage (text : List Char) : Option (List Sample) := ((lines text).mapM readLine).map List.flatten

/-! ## Writing -/

/-- A character of a label's value. -/
def escapeChar : Char → List Char
  | '\\' => ['\\', '\\']
  | '"' => ['\\', '"']
  | c => [c]

def labelText (label : String × String) : List Char :=
  label.1.toList ++ '=' :: '"' :: (label.2.toList.flatMap escapeChar ++ ['"'])

def labelsText : List (String × String) → List Char
  | [] => []
  | [label] => labelText label
  | label :: labels => labelText label ++ ',' :: labelsText labels

def Sample.line (s : Sample) : List Char :=
  s.name.toList ++ '{' :: (labelsText s.labels ++ '}' :: ' ' :: s.value.toList)

def Sample.text (s : Sample) : String := String.ofList (s.line ++ ['\n'])

/-- A name that can be written. -/
structure IsName (name : String) : Prop where
  nonempty : name.toList ≠ []
  chars : name.toList.all isNameChar = true

/-- The text stays on its line. -/
def OneLine (text : String) : Prop := '\n' ∉ text.toList

instance (text : String) : Decidable (OneLine text) := inferInstanceAs (Decidable (¬_))

theorem isName_ofList (name : List Char) (h : name ≠ [] ∧ name.all isNameChar = true) :
    IsName (String.ofList name) :=
  ⟨by rw [String.toList_ofList]; exact h.1, by rw [String.toList_ofList]; exact h.2⟩

theorem oneLine_ofList (text : List Char) (h : '\n' ∉ text) : OneLine (String.ofList text) := by
  rw [OneLine, String.toList_ofList]
  exact h

theorem OneLine.append {text text' : String} (h : OneLine text) (h' : OneLine text') :
    OneLine (text ++ text') := by
  rw [OneLine, String.toList_append, List.mem_append, not_or]
  exact ⟨h, h'⟩

/-- The names are names, and every text stays on its line. -/
structure Sample.Writable (s : Sample) : Prop where
  name : IsName s.name
  labels : ∀ label ∈ s.labels, IsName label.1 ∧ OneLine label.2
  value : OneLine s.value

/-! ## What is written is read -/

theorem lines_append_newline {line : List Char} (h : '\n' ∉ line) (rest : List Char) :
    lines (line ++ '\n' :: rest) = line :: lines rest := by
  induction line with
  | nil => rfl
  | cons c line ih =>
      have hc : c ≠ '\n' := fun hc => h (hc ▸ List.mem_cons_self)
      rw [List.cons_append, lines, ih fun hmem => h (List.mem_cons_of_mem _ hmem)]
      exact hc

theorem ne_of_isNameChar {c d : Char} (hc : isNameChar c = true) (hd : isNameChar d = false) :
    c ≠ d := by
  rintro rfl
  rw [hc] at hd
  cases hd

/-- A name is read up to the sign behind it. -/
theorem readLabels_name {name : List Char} (h : name.all isNameChar = true) {read : List Char}
    (hread : read ++ name ≠ []) (labels : List (String × String)) (text : List Char) :
    readLabels (.name read) labels (name ++ '=' :: text) =
      readLabels (.opening (read ++ name)) labels text := by
  induction name generalizing read with
  | nil =>
      cases read with
      | nil => exact absurd rfl hread
      | cons c read =>
          rw [List.nil_append, List.append_nil, readLabels]
          rintro ⟨⟩
  | cons c name ih =>
      rw [List.all_cons, Bool.and_eq_true] at h
      obtain ⟨hc, hname⟩ := h
      have hbrace : c ≠ '}' := ne_of_isNameChar hc (by decide)
      have hsign : c ≠ '=' := ne_of_isNameChar hc (by decide)
      have hstep : readLabels (.name read) labels (c :: (name ++ '=' :: text)) =
          readLabels (.name (read ++ [c])) labels (name ++ '=' :: text) := by
        rw [readLabels, if_pos hc]
        · exact fun _ => hbrace
        · exact fun _ => hsign
        · exact hsign
      rw [List.cons_append, hstep, ih hname (by simp), List.append_assoc]
      rfl

/-- The value of a label is read up to the quote that is not escaped. -/
theorem readLabels_value (name read value : List Char) (labels : List (String × String))
    (text : List Char) :
    readLabels (.value name read) labels (value.flatMap escapeChar ++ '"' :: text) =
      readLabels .behind (labels ++ [(String.ofList name, String.ofList (read ++ value))]) text := by
  induction value generalizing read with
  | nil => rw [List.flatMap_nil, List.nil_append, List.append_nil, readLabels]
  | cons c value ih =>
      have hstep : readLabels (.value name read) labels
          (escapeChar c ++ (value.flatMap escapeChar ++ '"' :: text)) =
            readLabels (.value name (read ++ [c])) labels (value.flatMap escapeChar ++ '"' :: text) := by
        unfold escapeChar
        split
        · rw [List.cons_append, List.cons_append, List.nil_append, readLabels, readLabels]
        · rw [List.cons_append, List.cons_append, List.nil_append, readLabels, readLabels]
        · rename_i hbackslash hquote
          rw [List.cons_append, List.nil_append, readLabels]
          · exact hbackslash
          · exact hquote
      rw [List.flatMap_cons, List.append_assoc, hstep, ih, List.append_assoc]
      rfl

theorem readLabels_label {label : String × String} (h : IsName label.1)
    (labels : List (String × String)) (text : List Char) :
    readLabels (.name []) labels (labelText label ++ text) =
      readLabels .behind (labels ++ [label]) text := by
  have hvalue := readLabels_value label.1.toList [] label.2.toList labels text
  rw [List.nil_append, String.ofList_toList, String.ofList_toList] at hvalue
  rw [labelText, List.append_assoc, List.cons_append, List.cons_append, List.append_assoc,
    readLabels_name h.chars h.nonempty, readLabels]
  exact hvalue

theorem readLabels_labels {labels : List (String × String)} (h : ∀ label ∈ labels, IsName label.1)
    (read : List (String × String)) (text : List Char) :
    readLabels (.name []) read (labelsText labels ++ '}' :: text) = some (read ++ labels, text) := by
  induction labels generalizing read with
  | nil => rw [labelsText, List.nil_append, List.append_nil, readLabels]
  | cons label labels ih =>
      obtain ⟨hlabel, hlabels⟩ := List.forall_mem_cons.mp h
      cases labels with
      | nil => rw [labelsText, readLabels_label hlabel, readLabels]
      | cons next labels =>
          rw [labelsText, List.append_assoc, List.cons_append, readLabels_label hlabel, readLabels,
            ih hlabels, List.append_assoc]
          · rfl
          · rintro ⟨⟩

theorem newline_notMem_name {name : String} (h : IsName name) : '\n' ∉ name.toList := fun hmem => by
  have hname := List.all_eq_true.mp h.chars _ hmem
  revert hname
  decide

/-- A sample is one line. -/
theorem newline_notMem_line {s : Sample} (h : s.Writable) : '\n' ∉ s.line := by
  have hvalue : ∀ value : List Char, '\n' ∉ value → '\n' ∉ value.flatMap escapeChar := by
    intro value hvalue hmem
    obtain ⟨c, hc, hescape⟩ := List.mem_flatMap.mp hmem
    unfold escapeChar at hescape
    split at hescape
    · simp at hescape
    · simp at hescape
    · rw [List.mem_singleton] at hescape
      exact hvalue (hescape ▸ hc)
  have hlabels : ∀ labels : List (String × String),
      (∀ label ∈ labels, IsName label.1 ∧ OneLine label.2) → '\n' ∉ labelsText labels := by
    intro labels hlabels
    induction labels with
    | nil => simp [labelsText]
    | cons label labels ih =>
        obtain ⟨hlabel, hrest⟩ := List.forall_mem_cons.mp hlabels
        have hone : '\n' ∉ labelText label := by
          simp [labelText, newline_notMem_name hlabel.1, hvalue _ hlabel.2]
        cases labels with
        | nil => exact hone
        | cons next labels =>
            rw [labelsText, List.mem_append, List.mem_cons, not_or, not_or]
            · exact ⟨hone, by decide, ih hrest⟩
            · rintro ⟨⟩
  have hend : '\n' ∉ s.value.toList := h.value
  simp [Sample.line, newline_notMem_name h.name, hlabels _ h.labels, hend]

/-- A line that begins with a name is a sample. -/
theorem readLine_name {name : String} (h : IsName name) {text : List Char} {s : Sample}
    (hsample : readSample (name.toList ++ text) = some s) :
    readLine (name.toList ++ text) = some [s] := by
  cases hname : name.toList with
  | nil => exact absurd hname h.nonempty
  | cons c rest =>
      have hc : c ≠ '#' :=
        ne_of_isNameChar (List.all_eq_true.mp h.chars c (hname ▸ List.mem_cons_self)) (by decide)
      rw [hname, List.cons_append] at hsample
      rw [List.cons_append, readLine, hsample]
      · rfl
      · rintro ⟨⟩
      · exact fun _ heq => hc (List.cons.inj heq).1

theorem span_name {name : String} (h : IsName name) {c : Char} (hc : isNameChar c = false)
    (text : List Char) : (name.toList ++ c :: text).takeWhile isNameChar = name.toList ∧
      (name.toList ++ c :: text).dropWhile isNameChar = c :: text := by
  have hall := List.all_eq_true.mp h.chars
  have hstop : ¬isNameChar c = true := by simp [hc]
  rw [List.takeWhile_append_of_pos hall, List.dropWhile_append_of_pos hall,
    List.takeWhile_cons_of_neg hstop, List.dropWhile_cons_of_neg hstop, List.append_nil]
  exact ⟨rfl, rfl⟩

theorem readLine_line {s : Sample} (h : s.Writable) : readLine s.line = some [s] := by
  refine readLine_name h.name ?_
  obtain ⟨htake, hdrop⟩ := span_name h.name (c := '{') (by decide)
    (labelsText s.labels ++ '}' :: ' ' :: s.value.toList)
  rw [readSample, htake, hdrop]
  show readValue _ (readLabels (.name []) [] _) = _
  rw [readLabels_labels (fun label hlabel => (h.labels label hlabel).1), readValue,
    String.ofList_toList, String.ofList_toList, List.nil_append]

/-! ## Pages -/

/-- The text is read as these samples, whatever stands behind it. -/
def Reads (text : String) (samples : List Sample) : Prop :=
  ∀ rest, readPage (text.toList ++ rest) = (readPage rest).map (samples ++ ·)

theorem readPage_of_reads {text : String} {samples : List Sample} (h : Reads text samples) :
    readPage text.toList = some samples := by
  have hall := h []
  rw [List.append_nil] at hall
  rw [hall]
  show some (samples ++ []) = some samples
  rw [List.append_nil]

theorem readPage_line {line : List Char} {samples : List Sample} (hline : '\n' ∉ line)
    (h : readLine line = some samples) (rest : List Char) :
    readPage (line ++ '\n' :: rest) = (readPage rest).map (samples ++ ·) := by
  rw [readPage, lines_append_newline hline, List.mapM_cons, h, readPage]
  cases (lines rest).mapM readLine <;> rfl

theorem reads_empty : Reads "" [] := fun rest => by
  show readPage rest = (readPage rest).map id
  rw [Option.map_id, id]

theorem Reads.append {text text' : String} {samples samples' : List Sample} (h : Reads text samples)
    (h' : Reads text' samples') : Reads (text ++ text') (samples ++ samples') := fun rest => by
  rw [String.toList_append, List.append_assoc, h, h', Option.map_map]
  refine congrArg (Option.map · (readPage rest)) (funext fun read => ?_)
  exact (List.append_assoc samples samples' read).symm

/-- What says nothing may stand in front. -/
theorem Reads.behind {text text' : String} {samples : List Sample} (h : Reads text samples)
    (h' : Reads text' []) : Reads (text' ++ text) samples :=
  h'.append h

/-- It may also stand behind. -/
theorem Reads.before {text text' : String} {samples : List Sample} (h : Reads text samples)
    (h' : Reads text' []) : Reads (text ++ text') samples := by
  have hboth := h.append h'
  rwa [List.append_nil] at hboth

theorem reads_join {α : Type} (text : α → String) (samples : α → List Sample) {l : List α}
    (h : ∀ a ∈ l, Reads (text a) (samples a)) :
    Reads (String.join (l.map text)) (l.flatMap samples) := by
  induction l with
  | nil => exact reads_empty
  | cons a l ih =>
      obtain ⟨ha, hl⟩ := List.forall_mem_cons.mp h
      rw [List.map_cons, String.join_cons, List.flatMap_cons]
      exact ha.append (ih hl)

theorem reads_comment {comment : String} (h : OneLine comment) :
    Reads ("#" ++ comment ++ "\n") [] := fun rest => by
  have hline : '\n' ∉ '#' :: comment.toList := by
    rw [List.mem_cons, not_or]
    exact ⟨by decide, h⟩
  have htext : ("#" ++ comment ++ "\n").toList ++ rest = ('#' :: comment.toList) ++ '\n' :: rest := by
    simp [String.toList_append]
  rw [htext, readPage_line hline rfl]

theorem reads_sample {s : Sample} (h : s.Writable) : Reads s.text [s] := fun rest => by
  rw [Sample.text, String.toList_ofList, List.append_assoc]
  exact readPage_line (newline_notMem_line h) (readLine_line h) rest

/-- A sample without labels may be written without braces. -/
theorem reads_bare {name value : String} (hname : IsName name) (hvalue : OneLine value) :
    Reads (name ++ " " ++ value ++ "\n") [⟨name, [], value⟩] := fun rest => by
  have htext : (name ++ " " ++ value ++ "\n").toList ++ rest =
      (name.toList ++ ' ' :: value.toList) ++ '\n' :: rest := by
    simp [String.toList_append]
  have hline : '\n' ∉ name.toList ++ ' ' :: value.toList := by
    rw [List.mem_append, List.mem_cons, not_or, not_or]
    exact ⟨newline_notMem_name hname, by decide, hvalue⟩
  rw [htext]
  refine readPage_line hline (readLine_name hname ?_) rest
  obtain ⟨htake, hdrop⟩ := span_name hname (c := ' ') (by decide) value.toList
  rw [readSample, htake, hdrop]
  show readValue name.toList (some ([], ' ' :: value.toList)) = _
  rw [readValue, String.ofList_toList, String.ofList_toList]

/-! ## Series -/

/-- The series of a sample. -/
def Sample.series (s : Sample) : String × List (String × String) := (s.name, s.labels)

/-- What a page says of a series. -/
def valueOf (samples : List Sample) (name : String) (labels : List (String × String)) :
    Option String :=
  (samples.find? fun s => s.series == (name, labels)).map (·.value)

/-- A page that has no series twice says what it says of a series once. -/
theorem valueOf_of_mem {samples : List Sample} (h : (samples.map Sample.series).Nodup) {s : Sample}
    (hs : s ∈ samples) : valueOf samples s.name s.labels = some s.value := by
  cases hfind : samples.find? fun t => t.series == (s.name, s.labels) with
  | none =>
      have := List.find?_eq_none.mp hfind s hs
      exact absurd (beq_self_eq_true _) this
  | some t =>
      have hfound := List.find?_some hfind
      have hseries : t.series = s.series := eq_of_beq hfound
      have heq : t = s := List.inj_on_of_nodup_map h (List.mem_of_find?_eq_some hfind) hs hseries
      rw [valueOf, hfind, heq]
      rfl

theorem valueOf_eq_none {samples : List Sample} {name : String} {labels : List (String × String)}
    (h : ∀ s ∈ samples, s.series ≠ (name, labels)) : valueOf samples name labels = none := by
  rw [valueOf, List.find?_eq_none.mpr fun s hs => by simpa using h s hs]
  rfl

/-- What the first page says counts. -/
theorem valueOf_append (samples samples' : List Sample) (name : String)
    (labels : List (String × String)) : valueOf (samples ++ samples') name labels =
      (valueOf samples name labels).or (valueOf samples' name labels) := by
  rw [valueOf, List.find?_append, Option.map_or]
  rfl

/-- A page says nothing of metrics it is not about. -/
theorem valueOf_eq_none_of_names {samples : List Sample} {names : List String} {name : String}
    (h : ∀ s ∈ samples, s.name ∈ names) (hname : name ∉ names) (labels : List (String × String)) :
    valueOf samples name labels = none := by
  refine valueOf_eq_none fun s hs heq => hname ?_
  have hseries : s.name = name := congrArg Prod.fst heq
  exact hseries ▸ h s hs

theorem valueOf_append_right {samples samples' : List Sample} {names : List String} {name : String}
    (h : ∀ s ∈ samples, s.name ∈ names) (hname : name ∉ names) (labels : List (String × String)) :
    valueOf (samples ++ samples') name labels = valueOf samples' name labels := by
  rw [valueOf_append, valueOf_eq_none_of_names h hname, Option.none_or]

theorem valueOf_append_left {samples samples' : List Sample} {names : List String} {name : String}
    (h : ∀ s ∈ samples', s.name ∈ names) (hname : name ∉ names) (labels : List (String × String)) :
    valueOf (samples ++ samples') name labels = valueOf samples name labels := by
  rw [valueOf_append, valueOf_eq_none_of_names h hname, Option.or_none]

section

variable {α κ : Type} {l : List α} {samples : α → List Sample} {key : α → κ}
variable {read : List (String × String) → κ}

theorem valueOf_flatMap_of_notMem (hread : ∀ a ∈ l, ∀ s ∈ samples a, read s.labels = key a)
    {labels : List (String × String)} (hlabels : read labels ∉ l.map key) (name : String) :
    valueOf (l.flatMap samples) name labels = none := by
  refine valueOf_eq_none fun s hs heq => hlabels ?_
  obtain ⟨a, ha, hs⟩ := List.mem_flatMap.mp hs
  refine List.mem_map.mpr ⟨a, ha, ?_⟩
  rw [← hread a ha s hs]
  exact congrArg read (congrArg Prod.snd heq)

/-- In a page about many things a series is said by the thing its labels name. -/
theorem valueOf_flatMap_of_mem (hread : ∀ a ∈ l, ∀ s ∈ samples a, read s.labels = key a)
    (hl : (l.map key).Nodup) {a : α} (ha : a ∈ l) {labels : List (String × String)}
    (hlabels : read labels = key a) (name : String) :
    valueOf (l.flatMap samples) name labels = valueOf (samples a) name labels := by
  induction l with
  | nil => exact absurd ha List.not_mem_nil
  | cons b l ih =>
      rw [List.map_cons, List.nodup_cons] at hl
      obtain ⟨hb, hrest⟩ := List.forall_mem_cons.mp hread
      rw [List.flatMap_cons, valueOf_append]
      rcases List.mem_cons.mp ha with rfl | ha
      · have hother : read labels ∉ l.map key := hlabels ▸ hl.1
        rw [valueOf_flatMap_of_notMem hrest hother, Option.or_none]
      · have hnone : valueOf (samples b) name labels = none := by
          refine valueOf_eq_none fun s hs heq => hl.1 (List.mem_map.mpr ⟨a, ha, ?_⟩)
          rw [← hlabels, ← hb s hs]
          exact congrArg read (congrArg Prod.snd heq).symm
        rw [hnone, Option.none_or]
        exact ih hrest hl.2 ha

end

theorem names_append {samples samples' : List Sample} {names names' : List String}
    (h : ∀ s ∈ samples, s.name ∈ names) (h' : ∀ s ∈ samples', s.name ∈ names') :
    ∀ s ∈ samples ++ samples', s.name ∈ names ++ names' := fun s hs =>
  List.mem_append.mpr ((List.mem_append.mp hs).imp (h s) (h' s))

theorem names_flatMap {α : Type} {l : List α} {samples : α → List Sample} {names : List String}
    (h : ∀ a ∈ l, ∀ s ∈ samples a, s.name ∈ names) : ∀ s ∈ l.flatMap samples, s.name ∈ names :=
  fun s hs => by
    obtain ⟨a, ha, hs⟩ := List.mem_flatMap.mp hs
    exact h a ha s hs

/-- Two pages with different metrics have no series in common. -/
theorem nodup_series_append {samples samples' : List Sample} {names names' : List String}
    (h : (samples.map Sample.series).Nodup) (h' : (samples'.map Sample.series).Nodup)
    (hnames : ∀ s ∈ samples, s.name ∈ names) (hnames' : ∀ s ∈ samples', s.name ∈ names')
    (hdisjoint : ∀ name ∈ names, name ∉ names') :
    ((samples ++ samples').map Sample.series).Nodup := by
  rw [List.map_append, List.nodup_append]
  refine ⟨h, h', fun series hseries series' hseries' heq => ?_⟩
  obtain ⟨s, hs, rfl⟩ := List.mem_map.mp hseries
  obtain ⟨s', hs', rfl⟩ := List.mem_map.mp hseries'
  have hname : s.name = s'.name := congrArg Prod.fst heq
  exact hdisjoint s.name (hnames s hs) (hname ▸ hnames' s' hs')

/-- Neither have pages about different things, if the labels tell them apart. -/
theorem nodup_series_flatMap {α κ : Type} {l : List α} {samples : α → List Sample} (key : α → κ)
    (read : List (String × String) → κ) (hread : ∀ a ∈ l, ∀ s ∈ samples a, read s.labels = key a)
    (hl : (l.map key).Nodup) (h : ∀ a ∈ l, ((samples a).map Sample.series).Nodup) :
    ((l.flatMap samples).map Sample.series).Nodup := by
  induction l with
  | nil => exact List.nodup_nil
  | cons a l ih =>
      rw [List.map_cons, List.nodup_cons] at hl
      obtain ⟨ha, hrest⟩ := List.forall_mem_cons.mp h
      rw [List.flatMap_cons, List.map_append, List.nodup_append]
      refine ⟨ha, ih (fun b hb => hread b (List.mem_cons_of_mem _ hb)) hl.2 hrest,
        fun series hseries series' hseries' heq => hl.1 ?_⟩
      obtain ⟨s, hs, rfl⟩ := List.mem_map.mp hseries
      obtain ⟨s', hs', rfl⟩ := List.mem_map.mp hseries'
      obtain ⟨b, hb, hs'⟩ := List.mem_flatMap.mp hs'
      have hlabels : s.labels = s'.labels := congrArg Prod.snd heq
      have hkey : key a = key b := by
        rw [← hread a List.mem_cons_self s hs, ← hread b (List.mem_cons_of_mem _ hb) s' hs', hlabels]
      exact List.mem_map.mpr ⟨b, hb, hkey.symm⟩

end OrmpIndexer.Foundation.Exposition
