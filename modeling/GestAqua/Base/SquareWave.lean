import Mathlib.Data.List.Chain
import Mathlib.Data.Nat.Notation
import Mathlib.Tactic.Ring

/-!
Two-level signals, as the list of their edges.

An edge is an instant with the level the signal takes from then on. `Phase`
relates two successive edges of a signal whose high phases last `high` and whose
low phases last `low`; a chain of phases spends the expected share of its time
high over any number of whole cycles (`chain_cycles`). `toggles` is the signal
of a process that inverts its level at a fixed period.
-/

namespace GestAqua.SquareWave

/-- An instant, and the level from that instant on. -/
abbrev Edge := ℕ × Bool

/-- Two successive edges: the level is inverted, and it was held for the time
its value asks for. -/
def Phase (high low : ℕ) (a b : Edge) : Prop :=
  b.2 = !a.2 ∧ b.1 = a.1 + if a.2 then high else low

def duration : List Edge → ℕ
  | a :: b :: l => (b.1 - a.1) + duration (b :: l)
  | _ => 0

def highTime : List Edge → ℕ
  | a :: b :: l => (if a.2 then b.1 - a.1 else 0) + highTime (b :: l)
  | _ => 0

theorem chain_cycles {high low n : ℕ} {l : List Edge} (hl : l.IsChain (Phase high low))
    (hlen : l.length = 2 * n + 1) (hhead : l.head?.map Prod.snd = some true) :
    duration l = n * (high + low) ∧ highTime l = n * high := by
  induction n generalizing l with
  | zero =>
      obtain ⟨a, rfl⟩ := List.length_eq_one_iff.mp (by simpa using hlen)
      simp [duration, highTime]
  | succ n ih =>
      obtain ⟨a, b, c, l, rfl⟩ : ∃ a b c l', l = a :: b :: c :: l' := by
        match l, hlen with
        | a :: b :: c :: l', _ => exact ⟨a, b, c, l', rfl⟩
      simp only [List.isChain_cons_cons] at hl
      obtain ⟨⟨hb, hab⟩, ⟨hc, hbc⟩, hrest⟩ := hl
      have ha : a.2 = true := by simpa using hhead
      have hlevel : c.2 = true := by simp [hc, hb, ha]
      have hlen' : (c :: l).length = 2 * n + 1 := by
        simp only [List.length_cons] at hlen ⊢
        omega
      obtain ⟨hd, ht⟩ := ih hrest hlen' (by simpa using hlevel)
      simp only [ha, hb, Bool.not_true, if_true, Bool.false_eq_true, if_false] at hab hbc
      have hlow : b.2 = false := by simp [hb, ha]
      constructor
      · simp only [duration, hd, hab, hbc, Nat.add_sub_cancel_left]
        ring
      · simp only [highTime, ht, ha, hlow, hab, if_true, Bool.false_eq_true, if_false,
          Nat.add_sub_cancel_left]
        ring

/-- The time until one more edge belongs to the level of the last one. -/
theorem duration_concat {l : List Edge} {a b : Edge} (h : l.getLast? = some a) :
    duration (l ++ [b]) = duration l + (b.1 - a.1) := by
  induction l with
  | nil => cases h
  | cons c l ih =>
      cases l with
      | nil =>
          obtain rfl : c = a := by simpa using h
          simp [duration]
      | cons d l =>
          have := ih (by simpa using h)
          simp only [List.cons_append, duration] at this ⊢
          omega

theorem highTime_concat {l : List Edge} {a b : Edge} (h : l.getLast? = some a) :
    highTime (l ++ [b]) = highTime l + if a.2 then b.1 - a.1 else 0 := by
  induction l with
  | nil => cases h
  | cons c l ih =>
      cases l with
      | nil =>
          obtain rfl : c = a := by simpa using h
          simp [highTime]
      | cons d l =>
          have := ih (by simpa using h)
          simp only [List.cons_append, highTime] at this ⊢
          omega

def excess (l : List Edge) : ℤ := 2 * highTime l - duration l

theorem excess_concat {l : List Edge} {a b : Edge} (h : l.getLast? = some a) (hab : a.1 ≤ b.1) :
    excess (l ++ [b]) = excess l + if a.2 then (b.1 - a.1 : ℤ) else -(b.1 - a.1 : ℤ) := by
  rw [excess, duration_concat h, highTime_concat h, excess]
  split <;> push_cast [Nat.cast_sub hab] <;> ring

/-! ### Inverting at a fixed period -/

/-- The first `n` edges of a process that inverts its level every `period`,
from the instant `t` and the level `v`. -/
def toggles (period : ℕ) : ℕ → Bool → ℕ → List Edge
  | _, _, 0 => []
  | t, v, n + 1 => (t + period, !v) :: toggles period (t + period) (!v) n

theorem toggles_chain (period t : ℕ) (v : Bool) (n : ℕ) :
    (toggles period t v n).IsChain (Phase period period) := by
  induction n generalizing t v with
  | zero => exact .nil
  | succ n ih =>
      cases n with
      | zero => exact .singleton _
      | succ n =>
          refine .cons_cons ⟨?_, ?_⟩ (ih (t + period) (!v)) <;> simp

/-- Inverting at a fixed period gives equal high and low phases, so it is the
signal asked for only when the two durations are equal. -/
theorem toggles_chain_iff {period low : ℕ} (t : ℕ) :
    (∀ n, (toggles period t false n).IsChain (Phase period low)) ↔ period = low := by
  constructor
  · intro h
    have h3 := h 3
    simp only [toggles, List.isChain_cons_cons] at h3
    have hlow := h3.2.1.2
    simp at hlow
    omega
  · rintro rfl n
    exact toggles_chain period t false n

end GestAqua.SquareWave
