/-
# OrmpIndexer.Foundation.Text — decimal numerals, padding, letter case and LIKE patterns

The text operations that row identifiers are built from and searched with, as Rust's `format!` and
PostgreSQL's string functions define them:

* numerals padded with zeros to a minimum width (`{:010}`, `LPAD`), which differ on numerals that are
  LONGER than the width: `format!` keeps them, `LPAD` cuts them;
* ASCII letter case;
* white space around a text, and the parts of a text between separators;
* `LIKE`.

The lemmas say when two identifiers put together from such parts can be equal (`decimal_dash_inj`) and
when a pattern that ends in `%` matches (`like_append_percent`).
-/
import Mathlib.Algebra.Group.Int.Defs
import Mathlib.Algebra.GroupWithZero.Nat
import Mathlib.Data.List.Infix
import Mathlib.Tactic.Common

namespace OrmpIndexer.Foundation

/-! ## Decimal numerals -/

/-- The characters of the decimal numeral of `n`. -/
def decimal (n : Nat) : List Char := Nat.toDigits 10 n

theorem toList_toString_nat (n : Nat) : (toString n).toList = decimal n := by
  simp [decimal]

theorem isDigit_of_mem_decimal {n : Nat} {c : Char} (h : c ∈ decimal n) : c.isDigit = true :=
  Nat.isDigit_of_mem_toDigits (by decide) (by decide) h

theorem decimal_inj {m n : Nat} (h : decimal m = decimal n) : m = n := by
  have hm := Nat.ofDigitChars_ten_toDigits (n := m)
  have hn := Nat.ofDigitChars_ten_toDigits (n := n)
  rw [← hm, ← hn]
  exact congrArg _ h

theorem toString_nat_inj {m n : Nat} (h : toString m = toString n) : m = n :=
  decimal_inj (by rw [← toList_toString_nat, ← toList_toString_nat, h])

/-- What precedes the first separator is determined by the text. -/
theorem append_sep_inj {α : Type} {sep : α} {a b : List α} {x y : List α} (ha : sep ∉ a)
    (hb : sep ∉ b) (h : a ++ sep :: x = b ++ sep :: y) : a = b ∧ x = y := by
  induction a generalizing b with
  | nil =>
      cases b with
      | nil => exact ⟨rfl, (List.cons.inj h).2⟩
      | cons d b => exact absurd (List.mem_cons.mpr (.inl (List.cons.inj h).1)) hb
  | cons c a ih =>
      cases b with
      | nil => exact absurd (List.mem_cons.mpr (.inl (List.cons.inj h).1.symm)) ha
      | cons d b =>
          obtain ⟨hcd, h⟩ := List.cons.inj h
          obtain ⟨hab, hxy⟩ := ih (fun hm => ha (List.mem_cons_of_mem c hm))
            (fun hm => hb (List.mem_cons_of_mem d hm)) h
          exact ⟨by rw [hcd, hab], hxy⟩

/-- A beginning that ends behind the first separator. -/
theorem append_sep_prefix_iff {α : Type} {sep : α} {a b : List α} {x y : List α} (ha : sep ∉ a)
    (hb : sep ∉ b) : a ++ sep :: x <+: b ++ sep :: y ↔ a = b ∧ x <+: y := by
  constructor
  · rintro ⟨rest, h⟩
    rw [List.append_assoc, List.cons_append] at h
    obtain ⟨hab, hxy⟩ := append_sep_inj ha hb h
    exact ⟨hab, ⟨rest, hxy⟩⟩
  · rintro ⟨rfl, hxy⟩
    exact (List.prefix_append_right_inj a).mpr (List.cons_prefix_cons.mpr ⟨rfl, hxy⟩)

theorem dash_notMem_decimal (n : Nat) : '-' ∉ decimal n :=
  fun h => absurd (isDigit_of_mem_decimal h) (by decide)

/-- A numeral followed by a dash is determined by the text, and so is the rest. -/
theorem decimal_dash_inj {m n : Nat} {x y : List Char}
    (h : decimal m ++ '-' :: x = decimal n ++ '-' :: y) : m = n ∧ x = y := by
  obtain ⟨hd, hxy⟩ := append_sep_inj (dash_notMem_decimal m) (dash_notMem_decimal n) h
  exact ⟨decimal_inj hd, hxy⟩

/-- A numeral that ends a text after a dash is determined by the text. -/
theorem dash_decimal_inj {m n : Nat} {x y : List Char}
    (h : x ++ '-' :: decimal m = y ++ '-' :: decimal n) : x = y ∧ m = n := by
  have hr := congrArg List.reverse h
  simp only [List.reverse_append, List.reverse_cons, List.append_assoc, List.singleton_append]
    at hr
  obtain ⟨hd, hxy⟩ := append_sep_inj
    (by simpa using dash_notMem_decimal m) (by simpa using dash_notMem_decimal n) hr
  exact ⟨List.reverse_inj.mp hxy, decimal_inj (List.reverse_inj.mp hd)⟩

/-! ## Padding -/

/-- Rust's `{:0w}` of an unsigned integer: at least `w` characters, leading zeros. -/
def formatPadded (w n : Nat) : String := String.ofList ((toString n).toList.leftpad w '0')

/-- Rust's `{:0w}` of a signed integer: the sign counts towards the width. -/
def formatPaddedInt (w : Nat) : Int → String
  | .ofNat n => formatPadded w n
  | .negSucc n => "-" ++ formatPadded (w - 1) (n + 1)

/-- PostgreSQL's `LPAD(s, w, c)`: exactly `w` characters, cutting `s` on the right if it is longer. -/
def lpad (s : String) (w : Nat) (c : Char) : String := String.ofList ((s.toList.take w).leftpad w c)

theorem toList_formatPadded (w n : Nat) :
    (formatPadded w n).toList = (decimal n).leftpad w '0' := by
  rw [formatPadded, String.toList_ofList, toList_toString_nat]

theorem toList_lpad_decimal (w n : Nat) :
    (lpad (toString n) w '0').toList = ((decimal n).take w).leftpad w '0' := by
  rw [lpad, String.toList_ofList, toList_toString_nat]

theorem isDigit_of_mem_leftpad {l : List Char} {w : Nat} {c : Char}
    (hl : ∀ d ∈ l, d.isDigit = true) (h : c ∈ l.leftpad w '0') : c.isDigit = true := by
  rw [List.leftpad, List.mem_append] at h
  rcases h with h | h
  · rw [List.eq_of_mem_replicate h]
    rfl
  · exact hl c h

theorem ofDigitChars_replicate_zero (n : Nat) (l : List Char) :
    Nat.ofDigitChars 10 (List.replicate n '0' ++ l) 0 = Nat.ofDigitChars 10 l 0 := by
  induction n with
  | zero => rfl
  | succ n ih => exact ih

/-- Leading zeros do not change the number. -/
theorem leftpad_decimal_inj {w m n : Nat}
    (h : (decimal m).leftpad w '0' = (decimal n).leftpad w '0') : m = n := by
  have hvalue := congrArg (Nat.ofDigitChars 10 · 0) h
  simp only [List.leftpad, ofDigitChars_replicate_zero] at hvalue
  rw [decimal, decimal, Nat.ofDigitChars_ten_toDigits, Nat.ofDigitChars_ten_toDigits] at hvalue
  exact hvalue

theorem dash_notMem_leftpad (w n : Nat) : '-' ∉ (decimal n).leftpad w '0' := fun h =>
  absurd (isDigit_of_mem_leftpad (fun _ hd => isDigit_of_mem_decimal hd) h) (by decide)

theorem length_decimal_le_iff {w n : Nat} (hw : 0 < w) : (decimal n).length ≤ w ↔ n < 10 ^ w :=
  Nat.length_toDigits_le_iff (by decide) hw

/-- The number that the first `w` digits of the numeral of `n` spell. -/
def firstDigits (w n : Nat) : Nat := n / 10 ^ ((decimal n).length - w)

theorem firstDigits_of_length_le {w n : Nat} (h : (decimal n).length ≤ w) : firstDigits w n = n := by
  rw [firstDigits, Nat.sub_eq_zero_of_le h, Nat.pow_zero, Nat.div_one]

theorem firstDigits_eq_self_iff {w n : Nat} (hw : 0 < w) : firstDigits w n = n ↔ n < 10 ^ w := by
  constructor
  · intro h
    by_contra hge
    have hlong : ¬(decimal n).length ≤ w := fun hle => hge ((length_decimal_le_iff hw).mp hle)
    have hpos : 0 < n := Nat.lt_of_lt_of_le (Nat.pow_pos (by decide)) (Nat.not_lt.mp hge)
    have hcut : 1 < 10 ^ ((decimal n).length - w) := Nat.one_lt_pow (by omega) (by decide)
    exact absurd h (Nat.ne_of_lt (Nat.div_lt_self hpos hcut))
  · exact fun h => firstDigits_of_length_le ((length_decimal_le_iff hw).mpr h)

/-- A numeral that is cut off is the numeral of the number its first digits spell. -/
theorem take_decimal {w : Nat} (hw : 0 < w) (n : Nat) :
    (decimal n).take w = decimal (firstDigits w n) := by
  induction n using Nat.strongRecOn with
  | ind n ih =>
      by_cases hfits : (decimal n).length ≤ w
      · rw [firstDigits_of_length_le hfits, List.take_of_length_le hfits]
      · have hten : 10 ≤ n := by
          by_contra hlt
          have hone : (decimal n).length ≤ 1 := (length_decimal_le_iff (by decide)).mpr (by omega)
          omega
        have hdigits : decimal n = decimal (n / 10) ++ [(n % 10).digitChar] :=
          Nat.toDigits_of_base_le (by decide) hten
        have hlength : (decimal n).length = (decimal (n / 10)).length + 1 := by
          rw [hdigits, List.length_append, List.length_singleton]
        have hcut : firstDigits w n = firstDigits w (n / 10) := by
          rw [firstDigits, firstDigits, hlength, Nat.succ_sub (by omega), Nat.pow_succ',
            Nat.div_div_eq_div_mul]
        rw [hcut, ← ih (n / 10) (by omega), hdigits, List.take_append_of_le_length (by omega)]

/-- What `LPAD` makes of a numeral. -/
theorem toList_lpad_toString {w : Nat} (hw : 0 < w) (n : Nat) :
    (lpad (toString n) w '0').toList = (decimal (firstDigits w n)).leftpad w '0' := by
  rw [toList_lpad_decimal, take_decimal hw]

/-! ## Letter case -/

/-- Rust's `to_ascii_lowercase`. -/
def toAsciiLowercase (s : String) : String := String.ofList (s.toList.map Char.toLower)

/-- Rust's `eq_ignore_ascii_case`. -/
def eqIgnoreAsciiCase (s t : String) : Bool := s.toList.map Char.toLower == t.toList.map Char.toLower

theorem toLower_toLower (c : Char) : c.toLower.toLower = c.toLower := by
  have keep : ∀ d : Char, ¬(d.val ≥ 'A'.val ∧ d.val ≤ 'Z'.val) → d.toLower = d := fun d hd => by
    unfold Char.toLower
    rw [dif_neg hd]
  by_cases h : c.val ≥ 'A'.val ∧ c.val ≤ 'Z'.val
  · apply keep _
    intro h'
    have hv : c.toLower.val = c.val + 32 := by
      unfold Char.toLower
      rw [dif_pos h]
      rfl
    have low : 65 ≤ c.val.toNat := h.1
    have high : c.val.toNat ≤ 90 := h.2
    have high' : c.toLower.val.toNat ≤ 90 := h'.2
    rw [hv, UInt32.toNat_add] at high'
    have : UInt32.toNat 32 = 32 := rfl
    omega
  · rw [keep c h, keep c h]

/-- Comparing with the lower-case spelling of a text is comparing with the text. -/
theorem eqIgnoreAsciiCase_toAsciiLowercase (s t : String) :
    eqIgnoreAsciiCase s (toAsciiLowercase t) = eqIgnoreAsciiCase s t := by
  have lower : (t.toList.map Char.toLower).map Char.toLower = t.toList.map Char.toLower := by
    rw [List.map_map]
    exact List.map_congr_left fun c _ => toLower_toLower c
  rw [eqIgnoreAsciiCase, toAsciiLowercase, String.toList_ofList, lower]
  rfl

/-! ## Order

Texts in the order of their code points. -/

theorem decide_le_total (s t : String) : (decide (s ≤ t) || decide (t ≤ s)) = true := by
  simpa using String.le_total s t

theorem decide_le_trans (s t u : String) :
    decide (s ≤ t) = true → decide (t ≤ u) = true → decide (s ≤ u) = true := by
  simpa using String.le_trans

theorem decide_le_antisymm (s t : String) :
    decide (s ≤ t) = true → decide (t ≤ s) = true → s = t := by
  simpa using String.le_antisymm

/-! ## White space and separators -/

/-- The characters `str::trim` removes. -/
def isWhitespace (c : Char) : Bool :=
  let n := c.toNat
  decide (9 ≤ n ∧ n ≤ 13) || n == 0x20 || n == 0x85 || n == 0xA0 || n == 0x1680 ||
    decide (0x2000 ≤ n ∧ n ≤ 0x200A) || n == 0x2028 || n == 0x2029 || n == 0x202F ||
    n == 0x205F || n == 0x3000

def trim (s : List Char) : List Char :=
  ((s.dropWhile isWhitespace).reverse.dropWhile isWhitespace).reverse

/-- Rust's `str::split` at a character. -/
def splitAtChar (sep : Char) (s : String) : List String := (s.toList.splitOn sep).map String.ofList

/-! ## LIKE -/

/-- What one element of a `LIKE` pattern asks for. -/
inductive LikeToken where
  | anyText
  | anyChar
  | char (c : Char)

/-- The elements of a `LIKE` pattern: `%`, `_`, and a backslash (`escaped`) that takes the next
character literally. -/
def likeTokens (escaped : Bool) : List Char → List LikeToken
  | [] => []
  | c :: p =>
      if escaped then .char c :: likeTokens false p
      else if c = '\\' then likeTokens true p
      else if c = '%' then .anyText :: likeTokens false p
      else if c = '_' then .anyChar :: likeTokens false p
      else .char c :: likeTokens false p

/-- The whole text matches the elements one after the other. -/
def matchTokens : List LikeToken → List Char → Bool
  | [], s => s.isEmpty
  | .anyText :: p, s => s.tails.any (matchTokens p)
  | .anyChar :: p, s =>
      match s with
      | [] => false
      | _ :: s => matchTokens p s
  | .char c :: p, s =>
      match s with
      | [] => false
      | d :: s => decide (d = c) && matchTokens p s

/-- PostgreSQL's `s LIKE pattern`. -/
def like (s pattern : String) : Bool := matchTokens (likeTokens false pattern.toList) s.toList

/-- A character that stands for itself in a `LIKE` pattern. -/
def IsLiteral (c : Char) : Prop := c ≠ '%' ∧ c ≠ '_' ∧ c ≠ '\\'

theorem likeTokens_literal {p : List Char} (hp : ∀ c ∈ p, IsLiteral c) (q : List Char) :
    likeTokens false (p ++ q) = p.map .char ++ likeTokens false q := by
  induction p with
  | nil => rfl
  | cons c p ih =>
      obtain ⟨h1, h2, h3⟩ := hp c List.mem_cons_self
      rw [List.cons_append, likeTokens, ih fun d hd => hp d (List.mem_cons_of_mem c hd)]
      simp [h1, h2, h3]

theorem matchTokens_chars_anyText (p s : List Char) :
    matchTokens (p.map .char ++ [.anyText]) s = true ↔ p <+: s := by
  induction p generalizing s with
  | nil =>
      have hmem : [] ∈ s.tails := (List.mem_tails _ _).mpr List.nil_suffix
      exact iff_of_true (List.any_eq_true.mpr ⟨[], hmem, rfl⟩) List.nil_prefix
  | cons c p ih =>
      cases s with
      | nil => exact iff_of_false (by simp [matchTokens]) (by simp)
      | cons d s =>
          rw [List.cons_prefix_cons, ← ih s, @eq_comm _ c d]
          simp [matchTokens]

/-- A literal text followed by `%` matches exactly the texts that begin with it. -/
theorem like_append_percent {p : String} (hp : ∀ c ∈ p.toList, IsLiteral c) (s : String) :
    like s (p ++ "%") = true ↔ p.toList <+: s.toList := by
  rw [like, String.toList_append, likeTokens_literal hp]
  exact matchTokens_chars_anyText p.toList s.toList

end OrmpIndexer.Foundation
