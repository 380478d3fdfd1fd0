/-
# OrmpIndexer.Foundation.Hex — bytes, their lower-case hex digits, and big-endian numbers

`hexChars` spells bytes with two lower-case digits each, `hexBytes` reads them back, and `bigEndian`
writes a number into a word of a given size. Both come with the read-back lemma that makes them
encodings.
-/
import Mathlib.Algebra.GroupWithZero.Nat
import Mathlib.Data.List.Basic
import Mathlib.Tactic.Common

namespace OrmpIndexer.Foundation

/-! ## Digits -/

/-- The value of a hex digit. -/
def hexValue (c : Char) : Option Nat :=
  if '0' ≤ c ∧ c ≤ '9' then some (c.toNat - '0'.toNat)
  else if 'a' ≤ c ∧ c ≤ 'f' then some (c.toNat - 'a'.toNat + 10)
  else if 'A' ≤ c ∧ c ≤ 'F' then some (c.toNat - 'A'.toNat + 10)
  else none

/-- What holds of the sixteen lower-case digits holds of every digit written. -/
theorem forall_digitChar {P : Char → Prop} (h : ∀ n : Fin 16, P (Nat.digitChar n)) {n : Nat}
    (hn : n < 16) : P (Nat.digitChar n) :=
  h ⟨n, hn⟩

theorem hexValue_digitChar {n : Nat} (hn : n < 16) : hexValue (Nat.digitChar n) = some n := by
  have h : ∀ n : Fin 16, hexValue (Nat.digitChar n) = some n.val := by decide
  exact h ⟨n, hn⟩

/-! ## Bytes -/

/-- Two lower-case digits for each byte. -/
def hexChars (bytes : List UInt8) : List Char :=
  bytes.flatMap fun b => [Nat.digitChar (b.toNat / 16), Nat.digitChar (b.toNat % 16)]

/-- Read two digits for each byte. -/
def hexBytes : List Char → Option (List UInt8)
  | [] => some []
  | [_] => none
  | high :: low :: rest => do
      let h ← hexValue high
      let l ← hexValue low
      let bytes ← hexBytes rest
      return UInt8.ofNat (16 * h + l) :: bytes

theorem hexChars_cons (b : UInt8) (bytes : List UInt8) : hexChars (b :: bytes) =
    Nat.digitChar (b.toNat / 16) :: Nat.digitChar (b.toNat % 16) :: hexChars bytes := rfl

theorem hexChars_append (a b : List UInt8) : hexChars (a ++ b) = hexChars a ++ hexChars b :=
  List.flatMap_append

theorem length_hexChars (bytes : List UInt8) : (hexChars bytes).length = 2 * bytes.length := by
  induction bytes with
  | nil => rfl
  | cons b bytes ih =>
      rw [hexChars_cons, List.length_cons, List.length_cons, List.length_cons, ih]
      omega

/-- A property of the sixteen digits is a property of every character of a spelling. -/
theorem forall_mem_hexChars {P : Char → Prop} (h : ∀ n : Fin 16, P (Nat.digitChar n))
    (bytes : List UInt8) : ∀ c ∈ hexChars bytes, P c := by
  intro c hc
  obtain ⟨b, _, hb⟩ := List.mem_flatMap.mp hc
  have hlt := b.toNat_lt
  rcases List.mem_pair.mp hb with rfl | rfl
  · exact forall_digitChar h (by omega)
  · exact forall_digitChar h (by omega)

theorem hexBytes_hexChars (bytes : List UInt8) : hexBytes (hexChars bytes) = some bytes := by
  induction bytes with
  | nil => rfl
  | cons b bytes ih =>
      have hlt := b.toNat_lt
      have hbyte : UInt8.ofNat (16 * (b.toNat / 16) + b.toNat % 16) = b := by
        rw [Nat.div_add_mod, UInt8.ofNat_toNat]
      rw [hexChars_cons, hexBytes, hexValue_digitChar (by omega), hexValue_digitChar (by omega), ih]
      show some (UInt8.ofNat _ :: bytes) = _
      rw [hbyte]

/-! ## Letter case -/

/-- A hex digit in lower case, any other character as it is. -/
def lowerDigit (c : Char) : Char := if c.isHexDigit then c.toLower else c

/-- The same text up to the case of its hex digits. -/
def SameDigits (s t : List Char) : Prop := s.map lowerDigit = t.map lowerDigit

theorem lt_of_isHexDigit {c : Char} (h : c.isHexDigit = true) : c.toNat < 103 := by
  simp [Char.isHexDigit, Char.isDigit, UInt32.le_iff_toNat_le] at h
  omega

/-- What holds of the hex digits among the first characters holds of every hex digit. -/
theorem forall_isHexDigit {P : Char → Prop}
    (h : ∀ n : Fin 103, (Char.ofNat n).isHexDigit = true → P (Char.ofNat n)) {c : Char}
    (hc : c.isHexDigit = true) : P c := by
  have hchar := h ⟨c.toNat, lt_of_isHexDigit hc⟩
  rw [Char.ofNat_toNat] at hchar
  exact hchar hc

/-- What does not tell the two cases of the hex digits apart does not see `lowerDigit`. -/
theorem apply_lowerDigit {β : Type} {f : Char → β}
    (h : ∀ n : Fin 103, (Char.ofNat n).isHexDigit = true →
      f (Char.ofNat n).toLower = f (Char.ofNat n)) (c : Char) : f (lowerDigit c) = f c := by
  unfold lowerDigit
  split
  · rename_i hc
    exact forall_isHexDigit (P := fun c => f c.toLower = f c) h hc
  · rfl

@[simp]
theorem toLower_lowerDigit (c : Char) : (lowerDigit c).toLower = c.toLower :=
  apply_lowerDigit (by decide) c

@[simp]
theorem isHexDigit_lowerDigit (c : Char) : (lowerDigit c).isHexDigit = c.isHexDigit :=
  apply_lowerDigit (by decide) c

@[simp]
theorem utf8Size_lowerDigit (c : Char) : (lowerDigit c).utf8Size = c.utf8Size :=
  apply_lowerDigit (by decide) c

@[simp]
theorem hexValue_lowerDigit (c : Char) : hexValue (lowerDigit c) = hexValue c :=
  apply_lowerDigit (by decide) c

theorem SameDigits.map_toLower {s t : List Char} (h : SameDigits s t) :
    s.map Char.toLower = t.map Char.toLower := by
  have hlower : ∀ l : List Char, (l.map lowerDigit).map Char.toLower = l.map Char.toLower := by
    intro l
    rw [List.map_map]
    exact List.map_congr_left fun c _ => toLower_lowerDigit c
  rw [← hlower s, ← hlower t, h]

theorem SameDigits.all_isHexDigit {s t : List Char} (h : SameDigits s t) :
    s.all Char.isHexDigit = t.all Char.isHexDigit := by
  have hall : ∀ l : List Char, (l.map lowerDigit).all Char.isHexDigit = l.all Char.isHexDigit := by
    intro l
    rw [List.all_map]
    exact congrArg l.all (funext isHexDigit_lowerDigit)
  rw [← hall s, ← hall t, h]

/-- No other digit than itself is spelled `0`, and `x` is no digit. -/
theorem lowerDigit_eq_iff {c d : Char} (hd : d ∈ ['0', 'x', 'X']) : lowerDigit c = d ↔ c = d := by
  obtain rfl | rfl | rfl : d = '0' ∨ d = 'x' ∨ d = 'X' := by simpa using hd
  · exact decide_eq_decide.mp (apply_lowerDigit (f := fun c => decide (c = '0')) (by decide) c)
  · exact decide_eq_decide.mp (apply_lowerDigit (f := fun c => decide (c = 'x')) (by decide) c)
  · exact decide_eq_decide.mp (apply_lowerDigit (f := fun c => decide (c = 'X')) (by decide) c)

/-- Upper-case digits are read as well. -/
theorem hexBytes_map_lowerDigit (s : List Char) : hexBytes (s.map lowerDigit) = hexBytes s := by
  induction s using hexBytes.induct with
  | case1 => rfl
  | case2 c => rfl
  | case3 high low rest ih =>
      rw [List.map_cons, List.map_cons, hexBytes, hexBytes, hexValue_lowerDigit,
        hexValue_lowerDigit, ih]

/-! ## Big-endian words -/

/-- The last `size` bytes of a number, the most significant first. -/
def bigEndian : Nat → Nat → List UInt8
  | 0, _ => []
  | size + 1, n => bigEndian size (n / 256) ++ [UInt8.ofNat n]

/-- The number some bytes spell, the most significant first. -/
def ofBigEndian (bytes : List UInt8) : Nat := bytes.foldl (fun n b => 256 * n + b.toNat) 0

@[simp]
theorem length_bigEndian (size n : Nat) : (bigEndian size n).length = size := by
  induction size generalizing n with
  | zero => rfl
  | succ size ih => rw [bigEndian, List.length_append, ih, List.length_singleton]

theorem ofBigEndian_bigEndian {size n : Nat} (h : n < 256 ^ size) :
    ofBigEndian (bigEndian size n) = n := by
  induction size generalizing n with
  | zero =>
      have hzero : n = 0 := by
        rw [Nat.pow_zero] at h
        omega
      rw [hzero]
      rfl
  | succ size ih =>
      have hdiv : n / 256 < 256 ^ size := by
        rw [Nat.pow_succ] at h
        omega
      have hstep : ofBigEndian (bigEndian (size + 1) n) =
          256 * ofBigEndian (bigEndian size (n / 256)) + (UInt8.ofNat n).toNat := by
        rw [bigEndian, ofBigEndian, List.foldl_append]
        rfl
      rw [hstep, ih hdiv, UInt8.toNat_ofNat']
      omega

theorem ofBigEndian_bigEndian_of_bits {size bits n : Nat} (hbits : bits = 8 * size)
    (h : n < 2 ^ bits) : ofBigEndian (bigEndian size n) = n := by
  apply ofBigEndian_bigEndian
  rw [hbits, Nat.pow_mul] at h
  exact h

end OrmpIndexer.Foundation
