import Mathlib.Data.Nat.Bitwise

/-!
Words of bits that are written by masks.

A set command sets the bits of its mask and a clear command clears them; neither reads the
word first, so writers of different bits need no lock. `testBit_apply` says what a command
does to every bit of every word.
-/

namespace GestAqua.SetClear

abbrev Words := ℕ → ℕ

inductive Command
  | set (bank mask : ℕ)
  | clear (bank mask : ℕ)
  deriving DecidableEq, Repr

namespace Command

def apply (w : Words) : Command → Words
  | set b m => Function.update w b (w b ||| m)
  | clear b m => Function.update w b ((w b).ldiff m)

/-- The value that a command gives to a bit, if it touches it. -/
def effect (b k : ℕ) : Command → Option Bool
  | set b' m => if b' = b ∧ m.testBit k = true then some true else none
  | clear b' m => if b' = b ∧ m.testBit k = true then some false else none

theorem testBit_apply (w : Words) (c : Command) (b k : ℕ) :
    (c.apply w b).testBit k = (c.effect b k).getD ((w b).testBit k) := by
  cases c with
  | set b' m | clear b' m =>
      by_cases hb : b' = b
      · subst hb
        by_cases hm : m.testBit k = true <;> simp [apply, effect, hm]
      · simp [apply, effect, hb, Ne.symm hb]

def bit (b k : ℕ) (v : Bool) : Command := if v then set b (1 <<< k) else clear b (1 <<< k)

theorem testBit_apply_bit (w : Words) (b k : ℕ) (v : Bool) (b' k' : ℕ) :
    ((bit b k v).apply w b').testBit k' =
      if b' = b ∧ k' = k then v else (w b').testBit k' := by
  have hmask : (1 <<< k).testBit k' = decide (k = k') := by
    rw [Nat.one_shiftLeft, Nat.testBit_two_pow]
  rw [testBit_apply]
  by_cases h : b' = b ∧ k' = k
  · obtain ⟨rfl, rfl⟩ := h
    cases v <;> simp [bit, effect, hmask]
  · have hno : ¬ (b = b' ∧ k = k') := fun hbk => h ⟨hbk.1.symm, hbk.2.symm⟩
    cases v <;> simp [bit, effect, hmask, hno, h]

end Command

end GestAqua.SetClear
