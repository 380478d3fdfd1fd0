/-
# OrmpIndexer.Foundation.Paging — pages of a sorted result

A result is sorted by an order that may leave ties, and every request breaks them anew: each answer is
some arrangement of the rows (`Arranges`), and a page is a window of it. Where an element stands is fixed
up to its ties: after everything before it, and before everything after it
(`Arranges.before_le`, `Arranges.lt_through`).

So the pages of requests that break ties differently fit together exactly if no ties stand on both sides
of a page boundary (`pages_partition_iff`).
-/
import Mathlib.Data.List.Nodup

namespace OrmpIndexer.Foundation

/-! ## Orders with ties -/

section

variable {α : Type}

/-- The first order decides, the second one where it ties. -/
def lexicographic (first second : α → α → Bool) (a b : α) : Bool :=
  first a b && (!first b a || second a b)

theorem lexicographic_eq_true {first second : α → α → Bool} {a b : α} :
    lexicographic first second a b = true ↔
      first a b = true ∧ (first b a = true → second a b = true) := by
  unfold lexicographic
  cases first a b <;> cases first b a <;> simp

theorem lexicographic_trans {first second : α → α → Bool}
    (hfirst : ∀ a b c, first a b = true → first b c = true → first a c = true)
    (hsecond : ∀ a b c, second a b = true → second b c = true → second a c = true) (a b c : α)
    (hab : lexicographic first second a b = true) (hbc : lexicographic first second b c = true) :
    lexicographic first second a c = true := by
  rw [lexicographic_eq_true] at hab hbc ⊢
  refine ⟨hfirst a b c hab.1 hbc.1, fun hca => ?_⟩
  exact hsecond a b c (hab.2 (hfirst b c a hbc.1 hca)) (hbc.2 (hfirst c a b hca hab.1))

theorem lexicographic_total {first second : α → α → Bool}
    (hfirst : ∀ a b, (first a b || first b a) = true)
    (hsecond : ∀ a b, (second a b || second b a) = true) (a b : α) :
    (lexicographic first second a b || lexicographic first second b a) = true := by
  have h := hfirst a b
  have h' := hsecond a b
  unfold lexicographic
  revert h h'
  cases first a b <;> cases first b a <;> cases second a b <;> cases second b a <;> simp

/-- The first order that does not tie decides. -/
def lexicographicAll : List (α → α → Bool) → α → α → Bool
  | [] => fun _ _ => true
  | le :: les => lexicographic le (lexicographicAll les)

theorem lexicographicAll_trans {les : List (α → α → Bool)}
    (h : ∀ le ∈ les, ∀ a b c, le a b = true → le b c = true → le a c = true) :
    ∀ a b c, lexicographicAll les a b = true → lexicographicAll les b c = true →
      lexicographicAll les a c = true := by
  induction les with
  | nil =>
      intro a b c _ _
      rfl
  | cons le les ih =>
      exact lexicographic_trans (h le List.mem_cons_self)
        (ih fun l hl => h l (List.mem_cons_of_mem le hl))

theorem lexicographicAll_total {les : List (α → α → Bool)}
    (h : ∀ le ∈ les, ∀ a b, (le a b || le b a) = true) :
    ∀ a b, (lexicographicAll les a b || lexicographicAll les b a) = true := by
  induction les with
  | nil =>
      intro a b
      rfl
  | cons le les ih =>
      exact lexicographic_total (h le List.mem_cons_self)
        (ih fun l hl => h l (List.mem_cons_of_mem le hl))

theorem lexicographicAll_congr {β : Type} {f g : β → α → α → Bool} {l : List β} {a b : α}
    (h : ∀ x ∈ l, f x a b = g x a b ∧ f x b a = g x b a) :
    lexicographicAll (l.map f) a b = lexicographicAll (l.map g) a b := by
  induction l with
  | nil => rfl
  | cons x l ih =>
      obtain ⟨hab, hba⟩ := h x List.mem_cons_self
      rw [List.map_cons, List.map_cons, lexicographicAll, lexicographicAll, lexicographic,
        lexicographic, hab, hba, ih fun y hy => h y (List.mem_cons_of_mem x hy)]

/-- A tie is a tie in all of the orders. -/
theorem ties_of_lexicographicAll {les : List (α → α → Bool)} {a b : α}
    (hab : lexicographicAll les a b = true) (hba : lexicographicAll les b a = true) :
    ∀ le ∈ les, le a b = true ∧ le b a = true := by
  induction les with
  | nil =>
      intro le hle
      cases hle
  | cons first les ih =>
      rw [lexicographicAll, lexicographic_eq_true] at hab hba
      intro le hle
      rcases List.mem_cons.mp hle with rfl | hle
      · exact ⟨hab.1, hba.1⟩
      · exact ih (hab.2 hba.1) (hba.2 hab.1) le hle

end

section

variable {α : Type} (le : α → α → Bool)

/-- The rows, sorted, with ties in any order. -/
structure Arranges (rows sorted : List α) : Prop where
  perm : sorted.Perm rows
  sorted : sorted.Pairwise fun a b => le a b = true

/-- How many rows come before `a` in every arrangement. -/
def before (rows : List α) (a : α) : Nat := rows.countP fun b => !le a b

/-- How many rows come before `a` or tie with it. -/
def through (rows : List α) (a : α) : Nat := rows.countP fun b => le b a

/-- No ties stand on both sides of the place `m`. -/
def NoTieAt (rows : List α) (m : Nat) : Prop :=
  ∀ a ∈ rows, ¬(before le rows a < m ∧ m < through le rows a)

def page (limit k : Nat) (sorted : List α) : List α := (sorted.drop (k * limit)).take limit

/-- The first `n` pages, each from an arrangement of its own. -/
def pages (limit n : Nat) (answers : Nat → List α) : List α :=
  (List.range n).flatMap fun k => page limit k (answers k)

variable {le} (trans : ∀ a b c, le a b = true → le b c = true → le a c = true)
  (total : ∀ a b, (le a b || le b a) = true) {rows s t : List α}

/-! ## Places -/

theorem Arranges.length_eq (h : Arranges le rows s) : s.length = rows.length := h.perm.length_eq

theorem before_eq (h : Arranges le rows s) (a : α) : before le rows a = before le s a :=
  (h.perm.countP_eq _).symm

theorem through_eq (h : Arranges le rows s) (a : α) : through le rows a = through le s a :=
  (h.perm.countP_eq _).symm

include total in
theorem le_refl_of_total (a : α) : le a a = true := by simpa using total a a

include total in
/-- What comes before the element at `i` stands before `i`. -/
theorem Arranges.before_le (h : Arranges le rows s) {i : Nat} (hi : i < s.length) :
    before le rows s[i] ≤ i := by
  rw [before_eq h, before]
  have hsplit : s = s.take i ++ s[i] :: s.drop (i + 1) := by
    rw [← List.drop_eq_getElem_cons hi, List.take_append_drop]
  have hafter : (s[i] :: s.drop (i + 1)).countP (fun b => !le s[i] b) = 0 := by
    rw [List.countP_eq_zero]
    have hpair := h.sorted
    rw [hsplit, List.pairwise_append, List.pairwise_cons] at hpair
    intro b hb
    rcases List.mem_cons.mp hb with rfl | hb
    · simp [le_refl_of_total total]
    · simp [hpair.2.1.1 b hb]
  calc s.countP (fun b => !le s[i] b)
      = (s.take i).countP (fun b => !le s[i] b) +
          (s[i] :: s.drop (i + 1)).countP (fun b => !le s[i] b) := by
        rw [← List.countP_append, ← hsplit]
    _ ≤ i := by
        rw [hafter, Nat.add_zero]
        exact Nat.le_trans List.countP_le_length (List.length_take_le i s)

include total in
/-- Everything up to the element at `i` comes before it or ties with it. -/
theorem Arranges.lt_through (h : Arranges le rows s) {i : Nat} (hi : i < s.length) :
    i < through le rows s[i] := by
  rw [through_eq h, through]
  have hupto : (s.take (i + 1)).countP (fun b => le b s[i]) = i + 1 := by
    rw [List.countP_eq_length.mpr, List.length_take_of_le (by omega)]
    intro b hb
    obtain ⟨j, hj, rfl⟩ := List.mem_take_iff_getElem.mp hb
    rcases Nat.lt_or_ge j i with hlt | hge
    · exact List.pairwise_iff_getElem.mp h.sorted j i (by omega) hi hlt
    · have heq : j = i := by omega
      subst heq
      exact le_refl_of_total total _
  have hsub : (s.take (i + 1)).countP (fun b => le b s[i]) ≤ s.countP (fun b => le b s[i]) :=
    (List.take_sublist (i + 1) s).countP_le
  omega

/-! ## Cutting where there is no tie -/

include total in
/-- What stands before such a place is the same in every arrangement. -/
theorem Arranges.take_eq_filter (h : Arranges le rows s) {m : Nat} (hm : NoTieAt le rows m) :
    s.take m = s.filter fun b => through le rows b ≤ m := by
  have htake : ∀ b ∈ s.take m, through le rows b ≤ m := by
    intro b hb
    obtain ⟨i, hi, rfl⟩ := List.mem_take_iff_getElem.mp hb
    have hlt : i < s.length := by omega
    have hbefore := h.before_le total hlt
    by_contra hthrough
    exact hm s[i] (h.perm.subset (List.getElem_mem hlt)) ⟨by omega, by omega⟩
  have hdrop : ∀ b ∈ s.drop m, ¬through le rows b ≤ m := by
    intro b hb
    obtain ⟨i, hi, rfl⟩ := List.mem_drop_iff_getElem.mp hb
    have hthrough := h.lt_through total (i := m + i) (by omega)
    omega
  calc s.take m
      = (s.take m).filter (fun b => through le rows b ≤ m) ++
          (s.drop m).filter (fun b => through le rows b ≤ m) := by
        rw [List.filter_eq_self.mpr fun b hb => decide_eq_true (htake b hb),
          List.filter_eq_nil_iff.mpr fun b hb => by simpa using hdrop b hb, List.append_nil]
    _ = s.filter fun b => through le rows b ≤ m := by
        rw [← List.filter_append, List.take_append_drop]

include total in
theorem Arranges.take_perm (hs : Arranges le rows s) (ht : Arranges le rows t) {m : Nat}
    (hm : NoTieAt le rows m) : (s.take m).Perm (t.take m) := by
  rw [hs.take_eq_filter total hm, ht.take_eq_filter total hm]
  exact (hs.perm.trans ht.perm.symm).filter _

include total in
/-- One arrangement can be continued by another. -/
theorem Arranges.glue (hs : Arranges le rows s) (ht : Arranges le rows t) {m : Nat}
    (hm : NoTieAt le rows m) : Arranges le rows (s.take m ++ t.drop m) := by
  have hperm := hs.take_perm total ht hm
  constructor
  · have hwhole := hperm.append_right (t.drop m)
    rw [List.take_append_drop] at hwhole
    exact hwhole.trans ht.perm
  · have hsplit := ht.sorted
    rw [← List.take_append_drop m t, List.pairwise_append] at hsplit
    rw [List.pairwise_append]
    refine ⟨hs.sorted.sublist (List.take_sublist m s), hsplit.2.1, fun a ha b hb => ?_⟩
    exact hsplit.2.2 a (hperm.subset ha) b hb

include trans total in
theorem exists_arranges (rows : List α) : ∃ s, Arranges le rows s :=
  ⟨rows.mergeSort le, List.mergeSort_perm rows le, List.pairwise_mergeSort trans total rows⟩

include trans total in
/-- Pages that fit together are the beginning of one arrangement. -/
theorem pages_eq_take {limit n : Nat} {answers : Nat → List α}
    (hanswers : ∀ k, Arranges le rows (answers k)) (hties : ∀ k, NoTieAt le rows (k * limit)) :
    ∃ s, Arranges le rows s ∧ pages limit n answers = s.take (n * limit) := by
  induction n with
  | zero =>
      obtain ⟨s, hs⟩ := exists_arranges trans total rows
      exact ⟨s, hs, by simp [pages]⟩
  | succ n ih =>
      obtain ⟨s, hs, hpages⟩ := ih
      refine ⟨_, hs.glue total (hanswers n) (hties n), ?_⟩
      have hnext : pages limit (n + 1) answers =
          pages limit n answers ++ page limit n (answers n) := by
        simp [pages, List.range_succ]
      rw [hnext, hpages, page, Nat.succ_mul, List.take_append]
      have hlength : (answers n).length = s.length :=
        (hanswers n).length_eq.trans hs.length_eq.symm
      by_cases hlong : n * limit ≤ s.length
      · rw [List.length_take_of_le hlong, List.take_take, Nat.add_sub_cancel_left,
          Nat.min_eq_right (Nat.le_add_right _ _)]
      · rw [List.drop_of_length_le (by omega), List.take_nil, List.take_nil, List.take_take,
          Nat.min_eq_right (Nat.le_add_right _ _)]

/-! ## Ties at a boundary -/

include trans in
/-- What does not tie with `a` comes wholly before it or wholly after it. -/
theorem through_le_before {a b : α} (h : le a b = false) : through le rows b ≤ before le rows a := by
  apply List.countP_mono_left
  intro c _ hc
  have hnot : le a c = true → le a b = true := fun hac => trans a c b hac hc
  cases hac : le a c with
  | false => rfl
  | true => simp [h] at hnot hac; simp [hac] at hnot

include trans total in
/-- Between the places where the ties of `a` begin and end there are only ties of `a`. -/
theorem ties_between (h : Arranges le rows s) {a : α} {i : Nat} (hi : i < s.length)
    (hfrom : before le rows a ≤ i) (hto : i < through le rows a) :
    le a s[i] = true ∧ le s[i] a = true := by
  have hbefore := h.before_le total hi
  have hthrough := h.lt_through total hi
  constructor
  · by_contra hne
    have hle := @through_le_before _ le trans rows _ _ (Bool.eq_false_iff.mpr hne)
    omega
  · by_contra hne
    have hle := @through_le_before _ le trans rows _ _ (Bool.eq_false_iff.mpr hne)
    omega

include trans total in
/-- Ties at a boundary can be broken so that a row stands before it once and after it the next time. -/
theorem exists_moved {m : Nat} (hm : ¬NoTieAt le rows (m + 1)) :
    ∃ s t x, Arranges le rows s ∧ Arranges le rows t ∧ s[m]? = some x ∧ t[m + 1]? = some x := by
  obtain ⟨s, hs⟩ := exists_arranges trans total rows
  simp only [NoTieAt, not_forall, not_not] at hm
  obtain ⟨a, _, hbefore, hthrough⟩ := hm
  have hlength : through le rows a ≤ s.length := by
    rw [hs.length_eq]
    exact List.countP_le_length
  have hlt : m + 1 < s.length := by omega
  obtain ⟨hx, hx'⟩ := ties_between trans total hs (a := a) (i := m) (by omega) (by omega) (by omega)
  obtain ⟨hy, hy'⟩ := ties_between trans total hs hlt (by omega) hthrough
  have hsplit : s = s.take m ++ s[m] :: s[m + 1] :: s.drop (m + 2) := by
    rw [← List.drop_eq_getElem_cons hlt, ← List.drop_eq_getElem_cons (by omega),
      List.take_append_drop]
  refine ⟨s, s.take m ++ s[m + 1] :: s[m] :: s.drop (m + 2), s[m], hs, ⟨?_, ?_⟩, ?_, ?_⟩
  · have hswap : (s.take m ++ s[m + 1] :: s[m] :: s.drop (m + 2)).Perm s := by
      conv => rhs; rw [hsplit]
      exact (List.Perm.swap _ _ _).append_left _
    exact hswap.trans hs.perm
  · have hpair := hs.sorted
    rw [hsplit, List.pairwise_append, List.pairwise_cons, List.pairwise_cons] at hpair
    obtain ⟨hfront, ⟨hmRest, hm1Rest, hrest⟩, hcross⟩ := hpair
    rw [List.pairwise_append, List.pairwise_cons, List.pairwise_cons]
    refine ⟨hfront, ⟨?_, fun b hb => hmRest b (List.mem_cons_of_mem _ hb), hrest⟩, ?_⟩
    · intro b hb
      rcases List.mem_cons.mp hb with rfl | hb
      · exact trans _ _ _ hy' hx
      · exact hm1Rest b hb
    · intro b hb c hc
      apply hcross b hb
      simp only [List.mem_cons] at hc ⊢
      tauto
  · exact List.getElem?_eq_getElem (by omega)
  · rw [List.getElem?_append_right (by rw [List.length_take]; omega), List.length_take_of_le (by omega),
      Nat.add_sub_cancel_left]
    rfl

include trans total in
/-- Where only equal rows tie, every place is without ties. -/
theorem noTieAt_of_no_ties (hnodup : rows.Nodup)
    (hties : ∀ a ∈ rows, ∀ b ∈ rows, le a b = true → le b a = true → a = b) (m : Nat) :
    NoTieAt le rows m := by
  rintro a ha ⟨hbefore, hthrough⟩
  obtain ⟨s, hs⟩ := exists_arranges trans total rows
  have hlength : through le rows a ≤ s.length := by
    rw [hs.length_eq]
    exact List.countP_le_length
  have hplace : ∀ i (hi : i < s.length), before le rows a ≤ i → i < through le rows a →
      a = s[i] := by
    intro i hi hfrom hto
    obtain ⟨h, h'⟩ := ties_between trans total hs hi hfrom hto
    exact hties a ha s[i] (hs.perm.subset (List.getElem_mem hi)) h h'
  have hlast := hplace (m - 1) (by omega) (by omega) (by omega)
  have hfirst := hplace m (by omega) (by omega) hthrough
  have hplaces := (hs.perm.nodup_iff.mpr hnodup).getElem_inj_iff.mp (hlast.symm.trans hfirst)
  omega

theorem Arranges.congr {le' : α → α → Bool} (h : ∀ a ∈ rows, ∀ b ∈ rows, le a b = le' a b) :
    Arranges le rows s ↔ Arranges le' rows s := by
  constructor
  · intro hs
    refine ⟨hs.perm, hs.sorted.imp_of_mem fun {a b} ha hb hab => ?_⟩
    rw [← h a (hs.perm.subset ha) b (hs.perm.subset hb)]
    exact hab
  · intro hs
    refine ⟨hs.perm, hs.sorted.imp_of_mem fun {a b} ha hb hab => ?_⟩
    rw [h a (hs.perm.subset ha) b (hs.perm.subset hb)]
    exact hab

/-! ## When pages partition the rows -/

theorem mem_page {limit k i : Nat} (hi : i < limit) {x : α} (hx : s[k * limit + i]? = some x) :
    x ∈ page limit k s := by
  have hget : (page limit k s)[i]? = some x := by
    rw [page, List.getElem?_take_of_lt hi, List.getElem?_drop]
    exact hx
  exact List.mem_of_getElem? hget

include trans total in
/-- The pages of requests that break ties as they like are the rows, each once and in order, exactly if
no ties stand on both sides of a page boundary. -/
theorem pages_partition_iff (hnodup : rows.Nodup) {limit n : Nat} (hlimit : 0 < limit)
    (hn : rows.length ≤ n * limit) :
    (∀ answers : Nat → List α, (∀ k, Arranges le rows (answers k)) →
      Arranges le rows (pages limit n answers)) ↔
      ∀ k, NoTieAt le rows (k * limit) := by
  constructor
  · intro hpartition k
    by_contra htie
    obtain ⟨k, rfl⟩ : ∃ j, k = j + 1 := ⟨k - 1, by
      rcases Nat.eq_zero_or_pos k with rfl | hpos
      · exact absurd (fun a _ h => by omega) htie
      · omega⟩
    -- the last place of page `k`, and the first of the next one
    obtain ⟨m, hm⟩ : ∃ m, (k + 1) * limit = m + 1 :=
      Nat.exists_eq_succ_of_ne_zero (Nat.ne_of_gt (Nat.mul_pos (Nat.succ_pos k) hlimit))
    rw [hm] at htie
    obtain ⟨s, t, x, hs, ht, hsx, htx⟩ := exists_moved trans total htie
    have hkn : k + 1 < n := by
      have hlt : m + 1 < t.length := (List.getElem?_eq_some_iff.mp htx).1
      rw [ht.length_eq, ← hm] at hlt
      exact Nat.lt_of_mul_lt_mul_right (Nat.lt_of_lt_of_le hlt hn)
    have harranges := hpartition (fun j => if j = k + 1 then t else s) fun j => by
      split
      · exact ht
      · exact hs
    have hdisjoint := (List.nodup_flatMap.mp (harranges.perm.nodup_iff.mpr hnodup)).2
    have hbefore : x ∈ page limit k s := by
      apply mem_page (i := limit - 1) (by omega)
      rw [← hsx]
      congr 1
      rw [Nat.succ_mul] at hm
      omega
    have hafter : x ∈ page limit (k + 1) t := by
      apply mem_page hlimit
      rw [Nat.add_zero, hm]
      exact htx
    have hpair := List.pairwise_iff_getElem.mp hdisjoint k (k + 1) (by simp; omega) (by simpa)
      (Nat.lt_succ_self k)
    simp only [List.getElem_range, Function.onFun, if_neg (Nat.ne_of_lt (Nat.lt_succ_self k)),
      if_true] at hpair
    exact hpair hbefore hafter
  · intro hties answers hanswers
    obtain ⟨s, hs, hpages⟩ := pages_eq_take trans total (n := n) hanswers hties
    rw [hpages, List.take_of_length_le (by rw [hs.length_eq]; exact hn)]
    exact hs

end

end OrmpIndexer.Foundation
