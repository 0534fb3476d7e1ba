import Mathlib.Algebra.Order.Ring.Abs
import Mathlib.Data.List.Chain
import Mathlib.Tactic.Ring

/-!
Polylines, as the list of their segments.

A segment is a line over an interval that contains its left end. In a chain each segment
begins where the one before it ends, at the same height, so between any two abscissas a
chain rises and falls no more than its steepest segment would (`Chain.rise_le`).
-/

namespace GestAqua.Polyline

structure Segment (K : Type*) where
  left : K
  right : K
  slope : K
  intercept : K
  deriving DecidableEq

variable {K : Type*} [CommRing K]

def Segment.height (g : Segment K) (x : K) : K := g.slope * x + g.intercept

def Joined (g g' : Segment K) : Prop :=
  g'.left = g.right ∧ g'.height g.right = g.height g.right

instance [DecidableEq K] (g g' : Segment K) : Decidable (Joined g g') :=
  inferInstanceAs (Decidable (_ ∧ _))

variable [LinearOrder K]

def Segment.Over (g : Segment K) (x : K) : Prop := g.left ≤ x ∧ x < g.right

/-- Segments that are joined, none of them reversed, with slopes within `L`. -/
structure Chain (L : K) (l : List (Segment K)) : Prop where
  joined : l.IsChain Joined
  ordered : ∀ g ∈ l, g.left ≤ g.right
  slope : ∀ g ∈ l, |g.slope| ≤ L

variable {L x x' : K} {g g' : Segment K} {l : List (Segment K)}

theorem Chain.tail (h : Chain L (g :: l)) : Chain L l where
  joined := h.joined.tail
  ordered g' hg' := h.ordered g' (List.mem_cons_of_mem g hg')
  slope g' hg' := h.slope g' (List.mem_cons_of_mem g hg')

theorem Chain.right_le_left (h : Chain L (g :: l)) (hg' : g' ∈ l) : g.right ≤ g'.left := by
  induction l generalizing g with
  | nil => cases hg'
  | cons b l ih =>
      obtain ⟨hjoin, -⟩ := (List.isChain_cons_cons.mp h.joined).1
      rcases List.mem_cons.mp hg' with rfl | hg'
      · exact hjoin.ge
      · have := h.tail.ordered b List.mem_cons_self
        exact hjoin.ge.trans (this.trans (ih h.tail hg'))

variable [IsStrictOrderedRing K]

theorem Segment.rise_le (h : |g.slope| ≤ L) (hle : x ≤ x') :
    |g.height x' - g.height x| ≤ L * (x' - x) := by
  have hdiff : g.height x' - g.height x = g.slope * (x' - x) := by
    simp only [height]
    ring
  rw [hdiff, abs_mul, abs_of_nonneg (sub_nonneg.mpr hle)]
  exact mul_le_mul_of_nonneg_right h (sub_nonneg.mpr hle)

theorem Chain.rise_left_le (h : Chain L (g :: l)) (hg' : g' ∈ g :: l) (hx : g'.Over x) :
    |g'.height x - g.height g.left| ≤ L * (x - g.left) := by
  induction l generalizing g with
  | nil =>
      obtain rfl := List.mem_singleton.mp hg'
      exact Segment.rise_le (h.slope g' List.mem_cons_self) hx.1
  | cons b l ih =>
      rcases List.mem_cons.mp hg' with rfl | hg'
      · exact Segment.rise_le (h.slope g' List.mem_cons_self) hx.1
      · obtain ⟨hjoin, hheight⟩ := (List.isChain_cons_cons.mp h.joined).1
        have hrest := ih h.tail hg'
        rw [hjoin, hheight] at hrest
        have hfirst := Segment.rise_le (h.slope g List.mem_cons_self)
          (h.ordered g List.mem_cons_self)
        calc |g'.height x - g.height g.left|
            ≤ |g'.height x - g.height g.right| + |g.height g.right - g.height g.left| :=
              abs_sub_le _ _ _
          _ ≤ L * (x - g.right) + L * (g.right - g.left) := add_le_add hrest hfirst
          _ = L * (x - g.left) := by ring

/-- Between two abscissas a chain is no steeper than its steepest segment. -/
theorem Chain.rise_le (h : Chain L l) (hg : g ∈ l) (hg' : g' ∈ l) (hx : g.Over x)
    (hx' : g'.Over x') (hle : x ≤ x') : |g'.height x' - g.height x| ≤ L * (x' - x) := by
  induction l with
  | nil => cases hg
  | cons a l ih =>
      rcases List.mem_cons.mp hg with rfl | hgl
      · rcases List.mem_cons.mp hg' with rfl | hgl'
        · exact Segment.rise_le (h.slope g' List.mem_cons_self) hle
        · obtain ⟨b, l, rfl⟩ := List.exists_cons_of_ne_nil (List.ne_nil_of_mem hgl')
          obtain ⟨hjoin, hheight⟩ := (List.isChain_cons_cons.mp h.joined).1
          have hrest := h.tail.rise_left_le hgl' hx'
          rw [hjoin, hheight] at hrest
          have hfirst := Segment.rise_le (h.slope g List.mem_cons_self) hx.2.le
          calc |g'.height x' - g.height x|
              ≤ |g'.height x' - g.height g.right| + |g.height g.right - g.height x| :=
                abs_sub_le _ _ _
            _ ≤ L * (x' - g.right) + L * (g.right - x) := add_le_add hrest hfirst
            _ = L * (x' - x) := by ring
      · rcases List.mem_cons.mp hg' with rfl | hgl'
        · -- the abscissas would be in the other order
          have := h.right_le_left hgl
          exact absurd hx'.2 (not_lt.mpr ((this.trans hx.1).trans hle))
        · exact ih h.tail hgl hgl'

end GestAqua.Polyline
