import Mathlib.Data.Int.Notation
import Mathlib.Data.Nat.Notation

/-!
Memory as the C library's byte functions see it: stores at fixed positions, and
the contract of `memcmp`.

An initialisation that stores constants is a list of positions with their bytes;
what it leaves at a position is the last byte stored there, or what was there
before, so that doing it twice is doing it once. Of `memcmp` nothing is known but
the sign of its result, which `Memcmp` carries as a field. `Memcmp.difference` and
`Memcmp.unit` are two functions that keep the contract and disagree on the value.
-/

namespace GestAqua.Bytes

variable {n : ℕ}

def store (l : List (Fin n × UInt8)) (t : Vector UInt8 n) : Vector UInt8 n :=
  l.foldl (fun t x => t.set x.1 x.2 x.1.isLt) t

theorem store_cons (x : Fin n × UInt8) (l : List (Fin n × UInt8)) (t : Vector UInt8 n) :
    store (x :: l) t = store l (t.set x.1 x.2 x.1.isLt) := rfl

/-- What the stores leave at a position does not depend on the table, but where
they store nothing. -/
theorem exists_getElem_store (l : List (Fin n × UInt8)) {i : ℕ} (hi : i < n) :
    ∃ o : Option UInt8, ∀ t, (store l t)[i] = o.getD t[i] := by
  induction l with
  | nil => exact ⟨none, fun t => rfl⟩
  | cons x l ih =>
      obtain ⟨o, ho⟩ := ih
      cases o with
      | some b => exact ⟨some b, fun t => ho _⟩
      | none =>
          by_cases hx : (x.1 : ℕ) = i
          · refine ⟨some x.2, fun t => ?_⟩
            rw [store_cons, ho, Option.getD_none, Vector.getElem_set, if_pos hx]
            rfl
          · refine ⟨none, fun t => ?_⟩
            rw [store_cons, ho, Option.getD_none, Vector.getElem_set, if_neg hx]
            rfl

theorem store_store (l : List (Fin n × UInt8)) (t : Vector UInt8 n) :
    store l (store l t) = store l t := by
  ext i hi
  obtain ⟨o, ho⟩ := exists_getElem_store l hi
  rw [ho, ho]
  cases o <;> rfl

/-- `memcmp` as the C library promises it: the sign of its `int` is the
lexicographic order of the bytes, as unsigned values. -/
structure Memcmp where
  memcmp : {n : ℕ} → Vector UInt8 n → Vector UInt8 n → BitVec 32
  sign : ∀ {n : ℕ} (a b : Vector UInt8 n),
    compare (memcmp a b).toInt 0 = compare a.toList b.toList

namespace Memcmp

theorem eq_zero_iff (c : Memcmp) (a b : Vector UInt8 n) : c.memcmp a b = 0 ↔ a = b := by
  have hzero : c.memcmp a b = 0 ↔ compare (c.memcmp a b).toInt 0 = .eq := by
    rw [Std.compare_eq_iff_eq, ← BitVec.toInt_inj]
    rfl
  rw [hzero, c.sign, Std.compare_eq_iff_eq, Vector.toList_inj]

end Memcmp

/-- The difference of the first bytes that differ. -/
def firstDifference : List UInt8 → List UInt8 → ℤ
  | x :: a, y :: b => if x = y then firstDifference a b else x.toNat - y.toNat
  | _, _ => 0

theorem firstDifference_cons_of_ne {x y : UInt8} (h : x ≠ y) (a b : List UInt8) :
    firstDifference (x :: a) (y :: b) = x.toNat - y.toNat := if_neg h

@[simp] theorem firstDifference_self (a : List UInt8) : firstDifference a a = 0 := by
  induction a with
  | nil => rfl
  | cons x a ih => rw [firstDifference, if_pos rfl, ih]

theorem firstDifference_bounds (a b : List UInt8) :
    -256 < firstDifference a b ∧ firstDifference a b < 256 := by
  induction a generalizing b with
  | nil => exact ⟨by simp [firstDifference], by simp [firstDifference]⟩
  | cons x a ih =>
      cases b with
      | nil => exact ⟨by simp [firstDifference], by simp [firstDifference]⟩
      | cons y b =>
          have hx := x.toNat_lt
          have hy := y.toNat_lt
          rw [firstDifference]
          split
          · exact ih b
          · omega

theorem compare_firstDifference {a b : List UInt8} (h : a.length = b.length) :
    compare (firstDifference a b) 0 = compare a b := by
  induction a generalizing b with
  | nil =>
      obtain rfl := List.eq_nil_of_length_eq_zero h.symm
      rfl
  | cons x a ih =>
      cases b with
      | nil => cases h
      | cons y b =>
          rw [List.compare_cons_cons]
          by_cases hxy : x = y
          · subst hxy
            rw [firstDifference, if_pos rfl, ih (Nat.succ.inj h), Std.compare_self]
            rfl
          · rw [firstDifference_cons_of_ne hxy]
            rcases UInt8.lt_or_lt_of_ne hxy with hlt | hlt
            · have hnat := UInt8.lt_iff_toNat_lt.mp hlt
              rw [Std.compare_eq_lt.mpr hlt, Std.compare_eq_lt.mpr (by omega)]
              rfl
            · have hnat := UInt8.lt_iff_toNat_lt.mp hlt
              rw [Std.compare_eq_gt.mpr hlt, Std.compare_eq_gt.mpr (by omega)]
              rfl

theorem toInt_ofInt_firstDifference (a b : List UInt8) :
    (BitVec.ofInt 32 (firstDifference a b)).toInt = firstDifference a b := by
  obtain ⟨hlo, hhi⟩ := firstDifference_bounds a b
  exact BitVec.toInt_ofInt_eq_self (by decide) (by omega) (by omega)

namespace Memcmp

/-- The `memcmp` that returns the difference of the first bytes that differ. -/
def difference : Memcmp where
  memcmp a b := BitVec.ofInt 32 (firstDifference a.toList b.toList)
  sign a b := by
    rw [toInt_ofInt_firstDifference, compare_firstDifference (by simp)]

theorem toInt_difference (a b : Vector UInt8 n) :
    (difference.memcmp a b).toInt = firstDifference a.toList b.toList :=
  toInt_ofInt_firstDifference _ _

/-- The `memcmp` that returns `-1`, `0` or `1`. -/
def unit : Memcmp where
  memcmp a b := BitVec.ofInt 32 (firstDifference a.toList b.toList).sign
  sign a b := by
    rw [← compare_firstDifference (by simp)]
    rcases Int.lt_trichotomy (firstDifference a.toList b.toList) 0 with h | h | h
    · rw [Int.sign_eq_neg_one_of_neg h, Std.compare_eq_lt.mpr h]
      rfl
    · rw [h]
      rfl
    · rw [Int.sign_eq_one_of_pos h, Std.compare_eq_gt.mpr h]
      rfl

/-- Its value is odd for bytes that differ. -/
theorem odd_unit {a b : Vector UInt8 n} (h : a ≠ b) : (unit.memcmp a b).toInt % 2 = 1 := by
  show (BitVec.ofInt 32 (firstDifference a.toList b.toList).sign).toInt % 2 = 1
  rcases Int.lt_trichotomy (firstDifference a.toList b.toList) 0 with hd | hd | hd
  · rw [Int.sign_eq_neg_one_of_neg hd]
    rfl
  · have hzero : unit.memcmp a b = 0 := by
      show BitVec.ofInt 32 (firstDifference a.toList b.toList).sign = 0
      rw [hd]
      rfl
    exact absurd ((unit.eq_zero_iff a b).mp hzero) h
  · rw [Int.sign_eq_one_of_pos hd]
    rfl

end Memcmp

end GestAqua.Bytes
