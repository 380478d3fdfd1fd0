/-
# OrmpIndexer.Foundation.Table — relational tables with a primary key

A `Table ρ` is a finite set of rows of type `ρ` in which no two rows share a primary key. It is an
extensional ordered map (`Std.ExtTreeMap`) from keys to rows whose entries all sit under their own
key, so a table with a duplicate or misplaced row cannot be built. The statements of SQL that the
development needs are total functions on tables: `upsert` (INSERT with ON CONFLICT DO UPDATE of the
whole row), `insertIfAbsent` (ON CONFLICT DO NOTHING), `deleteWhere`, `updateWhere` and `select`.

Every operation is characterised by what `get` reads afterwards, and `Table.ext` turns a pointwise
equality of `get` into an equality of tables. Proofs about tables never look below that interface.
-/
import Mathlib.Data.List.Sort
import Mathlib.Tactic.Common

namespace OrmpIndexer.Foundation

open Std (ExtTreeMap TransCmp LawfulEqCmp)

/-- Rows of type `ρ` carry a primary key of type `κ`; `cmp` is the order of the key's index. -/
class Keyed (ρ : Type) (κ : outParam Type) where
  key : ρ → κ
  cmp : κ → κ → Ordering
  trans : TransCmp cmp
  lawful : LawfulEqCmp cmp

attribute [instance] Keyed.trans Keyed.lawful

/-- A set of rows, at most one for each primary key. -/
structure Table (ρ : Type) {κ : Type} [Keyed ρ κ] where
  entries : ExtTreeMap κ ρ (Keyed.cmp ρ)
  keyed : ∀ (k : κ) (r : ρ), entries[k]? = some r → Keyed.key r = k

namespace Table

variable {ρ κ : Type} [Keyed ρ κ]

/-- The row stored under a key. -/
def get (t : Table ρ) (k : κ) : Option ρ := t.entries[k]?

theorem key_of_get {t : Table ρ} {k : κ} {r : ρ} (h : t.get k = some r) : Keyed.key r = k :=
  t.keyed k r h

/-- A function that changes no row with that key changes nothing. -/
theorem map_get_eq_self {t : Table ρ} {k : κ} {f : ρ → ρ} (h : ∀ r, Keyed.key r = k → f r = r) :
    (t.get k).map f = t.get k := by
  cases hr : t.get k with
  | none => rfl
  | some r => exact congrArg some (h r (key_of_get hr))

@[ext]
theorem ext {t u : Table ρ} (h : ∀ k, t.get k = u.get k) : t = u := by
  obtain ⟨a, ha⟩ := t
  obtain ⟨b, hb⟩ := u
  obtain rfl : a = b := ExtTreeMap.ext_getElem? h
  rfl

/-- The table without rows. -/
def empty : Table ρ where
  entries := ∅
  keyed k r h := by simp at h

@[simp]
theorem get_empty (k : κ) : (empty : Table ρ).get k = none := by simp [empty, get]

/-- INSERT of a row that replaces the row stored under the same key. -/
def upsert (t : Table ρ) (r : ρ) : Table ρ where
  entries := t.entries.insert (Keyed.key r) r
  keyed k s h := by
    rw [ExtTreeMap.getElem?_insert] at h
    split at h
    · rename_i hk
      cases h
      exact LawfulEqCmp.eq_of_compare hk
    · exact t.keyed k s h

theorem get_upsert [DecidableEq κ] (t : Table ρ) (r : ρ) (k : κ) :
    (t.upsert r).get k = if Keyed.key r = k then some r else t.get k := by
  simp only [upsert, get, ExtTreeMap.getElem?_insert]
  by_cases h : Keyed.key r = k
  · simp [h]
  · rw [if_neg h, if_neg]
    exact fun hk => h (LawfulEqCmp.eq_of_compare hk)

@[simp]
theorem get_upsert_self (t : Table ρ) (r : ρ) : (t.upsert r).get (Keyed.key r) = some r := by
  simp [upsert, get]

/-- A row that is there is not changed by writing it. -/
theorem upsert_of_get {t : Table ρ} {r : ρ} (h : t.get (Keyed.key r) = some r) : t.upsert r = t := by
  classical
  apply ext
  intro k
  rw [get_upsert]
  split
  · rename_i hkey
    rw [← hkey, h]
  · rfl

/-- INSERT of a row that leaves the row stored under the same key alone. -/
def insertIfAbsent (t : Table ρ) (r : ρ) : Table ρ :=
  if (t.get (Keyed.key r)).isSome then t else t.upsert r

theorem get_insertIfAbsent [DecidableEq κ] (t : Table ρ) (r : ρ) (k : κ) :
    (t.insertIfAbsent r).get k =
      if Keyed.key r = k then some ((t.get k).getD r) else t.get k := by
  unfold insertIfAbsent
  cases hr : t.get (Keyed.key r) with
  | none =>
      rw [if_neg (by simp), get_upsert]
      split
      · rename_i hk
        rw [← hk, hr]
        rfl
      · rfl
  | some s =>
      rw [if_pos (by simp)]
      split
      · rename_i hk
        rw [← hk, hr]
        rfl
      · rfl

/-- DELETE of the rows that satisfy a condition. -/
def deleteWhere (t : Table ρ) (p : ρ → Bool) : Table ρ where
  entries := t.entries.filter fun _ r => !p r
  keyed k r h := by
    rw [ExtTreeMap.getElem?_filter'] at h
    exact t.keyed k r (Option.eq_some_of_filter_eq_some h)

theorem get_deleteWhere (t : Table ρ) (p : ρ → Bool) (k : κ) :
    (t.deleteWhere p).get k = (t.get k).filter fun r => !p r := by
  simp [deleteWhere, get]

theorem get_deleteWhere_eq_some {t : Table ρ} {p : ρ → Bool} {k : κ} {r : ρ} :
    (t.deleteWhere p).get k = some r ↔ t.get k = some r ∧ p r = false := by
  rw [get_deleteWhere, Option.filter_eq_some_iff]
  simp

/-- UPDATE of the rows that satisfy a condition by a function that keeps the key. -/
def updateWhere (t : Table ρ) (p : ρ → Bool) (f : ρ → ρ) (hf : ∀ r, Keyed.key (f r) = Keyed.key r) :
    Table ρ where
  entries := t.entries.map fun _ r => if p r then f r else r
  keyed k r h := by
    rw [ExtTreeMap.getElem?_map] at h
    obtain ⟨s, hs, rfl⟩ := Option.map_eq_some_iff.mp h
    have hk := t.keyed k s hs
    split
    · rw [hf, hk]
    · exact hk

theorem get_updateWhere (t : Table ρ) (p : ρ → Bool) (f : ρ → ρ)
    (hf : ∀ r, Keyed.key (f r) = Keyed.key r) (k : κ) :
    (t.updateWhere p f hf).get k = (t.get k).map fun r => if p r then f r else r := by
  simp [updateWhere, get, ExtTreeMap.getElem?_map]

/-- SELECT of the rows that satisfy a condition, in the order of the primary key's index. -/
def select (t : Table ρ) (p : ρ → Bool) : List ρ :=
  (t.entries.toList.map Prod.snd).filter p

theorem mem_select {t : Table ρ} {p : ρ → Bool} {r : ρ} :
    r ∈ t.select p ↔ t.get (Keyed.key r) = some r ∧ p r = true := by
  rw [select, List.mem_filter, List.mem_map]
  refine and_congr_left fun _ => ⟨?_, fun h => ⟨(Keyed.key r, r), ?_, rfl⟩⟩
  · rintro ⟨⟨k, s⟩, hs, rfl⟩
    have hk := ExtTreeMap.mem_toList_iff_getElem?_eq_some.mp hs
    have := t.keyed k s hk
    subst this
    exact hk
  · exact ExtTreeMap.mem_toList_iff_getElem?_eq_some.mpr h

theorem nodup_select (t : Table ρ) (p : ρ → Bool) : (t.select p).Nodup := by
  apply List.Pairwise.filter
  rw [List.pairwise_map]
  refine ExtTreeMap.distinct_keys_toList.imp_of_mem fun {a b} ha hb hne heq => hne ?_
  have hka := t.keyed _ _ (ExtTreeMap.mem_toList_iff_getElem?_eq_some.mp ha)
  have hkb := t.keyed _ _ (ExtTreeMap.mem_toList_iff_getElem?_eq_some.mp hb)
  rw [← hka, ← hkb, heq]
  exact Std.ReflCmp.compare_self

/-- The selected rows come in the order of their keys. -/
theorem pairwise_select (t : Table ρ) (p : ρ → Bool) :
    (t.select p).Pairwise fun r s => Keyed.cmp ρ (Keyed.key r) (Keyed.key s) = .lt := by
  apply List.Pairwise.filter
  rw [List.pairwise_map]
  refine ExtTreeMap.ordered_keys_toList.imp_of_mem fun {a b} ha hb hlt => ?_
  rw [t.keyed _ _ (ExtTreeMap.mem_toList_iff_getElem?_eq_some.mp ha),
    t.keyed _ _ (ExtTreeMap.mem_toList_iff_getElem?_eq_some.mp hb)]
  exact hlt

/-- No key is selected twice. -/
theorem nodup_keys_select (t : Table ρ) (p : ρ → Bool) : ((t.select p).map Keyed.key).Nodup := by
  refine (nodup_select t p).map_on fun r hr s hs hkey => ?_
  have hget := (mem_select.mp hr).1
  rw [hkey, (mem_select.mp hs).1] at hget
  exact (Option.some.inj hget).symm

/-- An UPDATE of the row of a key, if there is one, is an INSERT that replaces it. -/
theorem updateWhere_eq_upsert {t : Table ρ} {p : ρ → Bool} {f : ρ → ρ}
    {hf : ∀ r, Keyed.key (f r) = Keyed.key r} {old : ρ} (row : ρ)
    (hold : t.get (Keyed.key row) = some old) (hrow : f old = row)
    (hp : ∀ r, p r = true ↔ Keyed.key r = Keyed.key row) : t.updateWhere p f hf = t.upsert row := by
  classical
  apply ext
  intro k
  rw [get_updateWhere, get_upsert]
  split
  · rename_i hk
    rw [← hk, hold, Option.map_some, if_pos ((hp old).mpr (key_of_get hold)), hrow]
  · rename_i hk
    cases hr : t.get k with
    | none => rfl
    | some r =>
        have hne : ¬p r = true := fun hsel => hk (((hp r).mp hsel).symm.trans (key_of_get hr))
        rw [Option.map_some, if_neg hne]

/-- The rows with keys from `lo` to `hi`. An ordered map refuses a range that ends before it starts. -/
def range (t : Table ρ) (lo hi : κ) : Option (List ρ) :=
  if (Keyed.cmp ρ lo hi).isLE then
    some (t.select fun r =>
      (Keyed.cmp ρ lo (Keyed.key r)).isLE && (Keyed.cmp ρ (Keyed.key r) hi).isLE)
  else none

end Table

/-! ## Composite keys -/

section

variable {α β : Type} [Ord α] [Ord β]

theorem isLE_lexOrd_iff [Std.ReflOrd α] (a : α) (x y : β) :
    (lexOrd.compare (a, x) (a, y)).isLE ↔ (compare x y).isLE := by
  show ((compare a a).then (compare x y)).isLE ↔ _
  rw [Std.ReflOrd.compare_self, Ordering.eq_then]

/-- Between two composite keys with the same first part lie the keys with that first part only. -/
theorem between_lexOrd_iff [Std.OrientedOrd α] [Std.LawfulEqOrd α] {a b : α} {x y z : β} :
    (lexOrd.compare (a, x) (b, z)).isLE ∧ (lexOrd.compare (b, z) (a, y)).isLE ↔
      b = a ∧ (compare x z).isLE ∧ (compare z y).isLE := by
  constructor
  · rintro ⟨hlo, hhi⟩
    have hab : (compare a b).isLE := Ordering.isLE_left_of_isLE_then hlo
    have hba : (compare b a).isLE := Ordering.isLE_left_of_isLE_then hhi
    obtain rfl : b = a := Std.LawfulEqOrd.eq_of_compare (Std.OrientedCmp.isLE_antisymm hba hab)
    exact ⟨rfl, (isLE_lexOrd_iff b x z).mp hlo, (isLE_lexOrd_iff b z y).mp hhi⟩
  · rintro ⟨rfl, hlo, hhi⟩
    exact ⟨(isLE_lexOrd_iff b x z).mpr hlo, (isLE_lexOrd_iff b z y).mpr hhi⟩

end

end OrmpIndexer.Foundation
