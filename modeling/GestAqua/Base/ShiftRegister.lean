import Mathlib.Data.List.Basic
import Mathlib.Logic.Function.Iterate

/-!
Shift registers with a feedback polynomial, the most significant bit first.

A step shifts the register to the left and adds the polynomial when a one leaves it. Steps
are linear over exclusive or (`shifts_xor`), so they may be taken for two parts of a register
apart, and bits that enter one by one may as well be added to the top of the register at
once (`feed_eq_shifts`). With a polynomial that has a constant term a step loses nothing
(`shift_eq_zero`), and with one that has an odd number of bits it keeps the parity
(`parity_shift`).
-/

namespace GestAqua.ShiftRegister

variable {w : ℕ} {p r a b : BitVec w}

def shift (p r : BitVec w) : BitVec w := if r.msb then r <<< 1 ^^^ p else r <<< 1

theorem shiftLeft_xor (a b : BitVec w) (n : ℕ) : (a ^^^ b) <<< n = a <<< n ^^^ b <<< n :=
  BitVec.shiftLeft_xor_distrib a b n

variable (p a b) in
theorem shift_xor : shift p (a ^^^ b) = shift p a ^^^ shift p b := by
  have hcancel : ∀ x y : BitVec w, x ^^^ p ^^^ (y ^^^ p) = x ^^^ y := fun x y => by
    rw [BitVec.xor_assoc, ← BitVec.xor_assoc p, BitVec.xor_comm p y, BitVec.xor_assoc y,
      BitVec.xor_self, BitVec.xor_zero]
  have hright : ∀ x y : BitVec w, x ^^^ (y ^^^ p) = x ^^^ y ^^^ p := fun x y =>
    (BitVec.xor_assoc x y p).symm
  have hleft : ∀ x y : BitVec w, x ^^^ p ^^^ y = x ^^^ y ^^^ p := fun x y => by
    rw [BitVec.xor_assoc, BitVec.xor_comm p, ← BitVec.xor_assoc]
  unfold shift
  rw [BitVec.msb_xor, shiftLeft_xor]
  cases a.msb <;> cases b.msb <;> simp [hcancel, hright, hleft]

@[simp] theorem shift_zero (p : BitVec w) : shift p 0#w = 0#w := by
  simp [shift]

theorem shifts_xor (p a b : BitVec w) (n : ℕ) :
    (shift p)^[n] (a ^^^ b) = (shift p)^[n] a ^^^ (shift p)^[n] b := by
  induction n generalizing a b with
  | zero => rfl
  | succ n ih => rw [Function.iterate_succ_apply, shift_xor, ih]; rfl

theorem shifts_of_low {n : ℕ} (h : ∀ i, w - n ≤ i → r.getLsbD i = false) :
    (shift p)^[n] r = r <<< n := by
  induction n with
  | zero => simp
  | succ n ih =>
      rw [Function.iterate_succ_apply', ih fun i hi => h i (by omega), shift, if_neg]
      · rw [← BitVec.shiftLeft_add]
      · rw [BitVec.msb_eq_getLsbD_last, BitVec.getLsbD_shiftLeft]
        by_cases hw : w - 1 < n
        · simp [hw]
        · simp [h (w - 1 - n) (by omega)]

/-- The low bits of a register only move, so that the steps are those of the top bits. -/
theorem shifts_split (p r : BitVec w) {n : ℕ} (hn : n ≤ w) :
    (shift p)^[n] r = (shift p)^[n] ((r >>> (w - n)) <<< (w - n)) ^^^ r <<< n := by
  have hsplit : r = (r >>> (w - n)) <<< (w - n) ^^^ (r <<< n) >>> n := by
    refine BitVec.eq_of_getLsbD_eq fun i hi => ?_
    simp only [BitVec.getLsbD_xor, BitVec.getLsbD_shiftLeft, BitVec.getLsbD_ushiftRight]
    by_cases hlow : i < w - n
    · simp [hlow, show n + i < w by omega]
    · simp [hlow, hi, show ¬ n + i < w by omega, show w - n + (i - (w - n)) = i by omega]
  conv_lhs => rw [hsplit]
  rw [shifts_xor, shifts_of_low (r := (r <<< n) >>> n)]
  · congr 1
    refine BitVec.eq_of_getLsbD_eq fun i hi => ?_
    simp only [BitVec.getLsbD_shiftLeft, BitVec.getLsbD_ushiftRight]
    by_cases hni : i < n
    · simp [hni]
    · simp [hni, hi, show n + (i - n) = i by omega]
  · intro i hi
    rw [BitVec.getLsbD_ushiftRight, BitVec.getLsbD_shiftLeft]
    simp [show ¬ n + i < w by omega]

/-! ### Bits that enter -/

def top (w : ℕ) (b : Bool) : BitVec w := if b then BitVec.twoPow w (w - 1) else 0#w

/-- Bits that enter one by one at the top. -/
def feed (p r : BitVec w) (bs : List Bool) : BitVec w :=
  bs.foldl (fun r b => shift p (r ^^^ top w b)) r

def align (w : ℕ) : List Bool → BitVec w
  | [] => 0#w
  | b :: bs => top w b ^^^ align w bs >>> 1

theorem getLsbD_top (b : Bool) (i : ℕ) :
    (top w b).getLsbD i = (b && decide (i + 1 = w)) := by
  cases b with
  | false => simp [top]
  | true =>
      rw [top, if_pos rfl, BitVec.getLsbD_twoPow, Bool.eq_iff_iff]
      simp only [Bool.and_eq_true, decide_eq_true_eq, true_and]
      omega

theorem getLsbD_align (bs : List Bool) {i : ℕ} (hi : i < w) :
    (align w bs).getLsbD i = (bs[w - 1 - i]?).getD false := by
  induction bs generalizing i with
  | nil => simp [align]
  | cons b bs ih =>
      rw [align, BitVec.getLsbD_xor, getLsbD_top, BitVec.getLsbD_ushiftRight]
      by_cases h : i + 1 = w
      · simp [h, show w - 1 - i = 0 by omega, show 1 + i = w by omega]
      · rw [ih (by omega), show w - 1 - i = w - 1 - (1 + i) + 1 by omega]
        simp [h]

theorem shift_align_shiftRight (p : BitVec w) {bs : List Bool} (h : bs.length < w) :
    shift p (align w bs >>> 1) = align w bs := by
  have hlow := shifts_of_low (p := p) (r := align w bs >>> 1) (n := 1) fun i hi => by
    rw [BitVec.getLsbD_ushiftRight]
    exact BitVec.getLsbD_of_ge _ _ (by omega)
  rw [Function.iterate_one] at hlow
  rw [hlow]
  refine BitVec.eq_of_getLsbD_eq fun i hi => ?_
  rw [BitVec.getLsbD_shiftLeft, BitVec.getLsbD_ushiftRight]
  cases i with
  | zero =>
      rw [getLsbD_align bs hi, List.getElem?_eq_none (by omega)]
      simp
  | succ i => simp [hi, Nat.add_comm 1 i]

/-- Bits that enter one by one may be added to the top of the register at once. -/
theorem feed_eq_shifts (p : BitVec w) {bs : List Bool} (h : bs.length ≤ w) (r : BitVec w) :
    feed p r bs = (shift p)^[bs.length] (r ^^^ align w bs) := by
  induction bs generalizing r with
  | nil => simp [feed, align]
  | cons b bs ih =>
      have hlen : bs.length + 1 ≤ w := by simpa using h
      show feed p (shift p (r ^^^ top w b)) bs = _
      rw [ih (by omega), List.length_cons, Function.iterate_succ_apply, align, ← BitVec.xor_assoc,
        shift_xor p (r ^^^ top w b), shift_align_shiftRight p (by omega)]

theorem top_xor (b c : Bool) : top w (b ^^ c) = top w b ^^^ top w c := by
  cases b <;> cases c <;> simp [top]

theorem feed_xor (p : BitVec w) {bs cs : List Bool} (h : bs.length = cs.length) (r s : BitVec w) :
    feed p (r ^^^ s) (List.zipWith xor bs cs) = feed p r bs ^^^ feed p s cs := by
  induction bs generalizing cs r s with
  | nil =>
      obtain rfl := List.length_eq_zero_iff.mp h.symm
      rfl
  | cons b bs ih =>
      cases cs with
      | nil => cases h
      | cons c cs =>
          show feed p (shift p (r ^^^ s ^^^ top w (b ^^ c))) _ = _
          have hsum : r ^^^ s ^^^ top w (b ^^ c) = (r ^^^ top w b) ^^^ (s ^^^ top w c) := by
            rw [top_xor]
            ac_rfl
          rw [hsum, shift_xor, ih (by simpa using h)]
          rfl

/-! ### Errors that come in a burst -/

theorem shift_eq_zero (hp : p.getLsbD 0 = true) (h : shift p r = 0#w) : r = 0#w := by
  have hw : 0 < w := BitVec.lt_of_getLsbD hp
  unfold shift at h
  split at h
  · -- the constant term is in the sum
    have h0 := congrArg (·.getLsbD 0) h
    simp [hp] at h0
  · rename_i hmsb
    refine BitVec.eq_of_getLsbD_eq fun i hi => ?_
    rw [BitVec.getLsbD_zero]
    by_cases hlast : i + 1 = w
    · rw [BitVec.msb_eq_getLsbD_last] at hmsb
      simpa [show i = w - 1 by omega] using hmsb
    · have hbit := congrArg (·.getLsbD (i + 1)) h
      rw [BitVec.getLsbD_eq_getElem hi]
      simpa [show i + 1 < w by omega] using hbit

theorem shifts_eq_zero (hp : p.getLsbD 0 = true) {n : ℕ} (h : (shift p)^[n] r = 0#w) : r = 0#w := by
  induction n generalizing r with
  | zero => exact h
  | succ n ih => exact shift_eq_zero hp (ih h)

theorem feed_replicate_false (p r : BitVec w) (n : ℕ) :
    feed p r (List.replicate n false) = (shift p)^[n] r := by
  induction n generalizing r with
  | zero => rfl
  | succ n ih =>
      have hstep : feed p r (List.replicate (n + 1) false) =
          feed p (shift p (r ^^^ top w false)) (List.replicate n false) := rfl
      rw [hstep, ih, Function.iterate_succ_apply]
      simp [top]

theorem feed_append (p r : BitVec w) (bs cs : List Bool) :
    feed p r (bs ++ cs) = feed p (feed p r bs) cs := List.foldl_append

theorem eq_replicate_false {bs : List Bool} (h : ∀ k : ℕ, bs[k]? ≠ some true) :
    bs = List.replicate bs.length false := by
  refine List.eq_replicate_iff.mpr ⟨rfl, fun b hb => ?_⟩
  obtain ⟨k, hk, rfl⟩ := List.getElem_of_mem hb
  have := h k
  rw [List.getElem?_eq_getElem hk] at this
  simpa using this

/-- Ones that stand within the width of the register leave something in it. -/
theorem feed_burst_ne_zero (hp : p.getLsbD 0 = true) {bs : List Bool} {i : ℕ} (hone : true ∈ bs)
    (hburst : ∀ k : ℕ, bs[k]? = some true → i ≤ k ∧ k < i + w) : feed p 0#w bs ≠ 0#w := by
  intro h
  have hzero : ∀ n, (shift p)^[n] 0#w = 0#w := fun n =>
    Function.iterate_fixed (shift_zero p) n
  -- before the burst the register stays empty, after it the steps lose nothing
  have hbefore : bs.take i = List.replicate (bs.take i).length false :=
    eq_replicate_false fun k hk => by
      rw [List.getElem?_take] at hk
      split at hk
      · have := hburst k hk
        omega
      · cases hk
  have hafter : (bs.drop i).drop w = List.replicate ((bs.drop i).drop w).length false :=
    eq_replicate_false fun k hk => by
      rw [List.getElem?_drop, List.getElem?_drop] at hk
      have := hburst _ hk
      omega
  rw [← List.take_append_drop i bs, ← List.take_append_drop w (bs.drop i), feed_append,
    feed_append, hbefore, hafter, feed_replicate_false, feed_replicate_false, hzero] at h
  have hlen : ((bs.drop i).take w).length ≤ w := List.length_take_le _ _
  have hfeed := shifts_eq_zero hp h
  rw [feed_eq_shifts p hlen, BitVec.zero_xor] at hfeed
  have halign := shifts_eq_zero hp hfeed
  obtain ⟨k, hk, hbit⟩ := List.getElem_of_mem hone
  obtain ⟨hik, hkw⟩ := hburst k (by rw [List.getElem?_eq_getElem hk, hbit])
  have hget := getLsbD_align ((bs.drop i).take w) (show w - 1 - (k - i) < w by omega)
  rw [halign, show w - 1 - (w - 1 - (k - i)) = k - i by omega, List.getElem?_take,
    if_pos (by omega), List.getElem?_drop, show i + (k - i) = k by omega,
    List.getElem?_eq_getElem hk, hbit] at hget
  simp at hget

/-! ### Parity -/

def odd (bs : List Bool) : Bool := bs.foldr xor false

theorem odd_eq (bs : List Bool) : odd bs = decide (bs.count true % 2 = 1) := by
  induction bs with
  | nil => rfl
  | cons b bs ih =>
      show (b ^^ odd bs) = _
      rw [ih]
      cases b with
      | false => simp
      | true =>
          rw [Bool.eq_iff_iff]
          simp
          omega

theorem odd_append (bs cs : List Bool) : odd (bs ++ cs) = (odd bs ^^ odd cs) := by
  induction bs with
  | nil => simp [odd]
  | cons b bs ih =>
      show (b ^^ odd (bs ++ cs)) = ((b ^^ odd bs) ^^ odd cs)
      rw [ih, Bool.xor_assoc]

theorem odd_map_xor {ι : Type*} (f g : ι → Bool) (l : List ι) :
    odd (l.map fun i => f i ^^ g i) = (odd (l.map f) ^^ odd (l.map g)) := by
  induction l with
  | nil => rfl
  | cons i l ih =>
      show ((f i ^^ g i) ^^ odd (l.map fun i => f i ^^ g i)) =
        ((f i ^^ odd (l.map f)) ^^ (g i ^^ odd (l.map g)))
      rw [ih, Bool.xor_assoc, Bool.xor_assoc, Bool.xor_left_comm (g i)]

theorem odd_map_false {ι : Type*} {f : ι → Bool} {l : List ι} (h : ∀ i ∈ l, f i = false) :
    odd (l.map f) = false := by
  induction l with
  | nil => rfl
  | cons i l ih =>
      show (f i ^^ odd (l.map f)) = false
      rw [h i List.mem_cons_self, ih fun j hj => h j (List.mem_cons_of_mem i hj)]
      rfl

def parity (r : BitVec w) : Bool := odd ((List.range w).map r.getLsbD)

@[simp] theorem parity_zero (w : ℕ) : parity 0#w = false :=
  odd_map_false fun _ _ => BitVec.getLsbD_zero

theorem parity_xor (a b : BitVec w) : parity (a ^^^ b) = (parity a ^^ parity b) := by
  have hbits : (a ^^^ b).getLsbD = fun i => a.getLsbD i ^^ b.getLsbD i :=
    funext fun i => BitVec.getLsbD_xor
  rw [parity, hbits, odd_map_xor]
  rfl

theorem parity_shiftLeft (r : BitVec w) : parity (r <<< 1) = (parity r ^^ r.msb) := by
  cases w with
  | zero => simp [parity, odd, BitVec.msb_eq_getLsbD_last]
  | succ n =>
      have hlow : (List.range n).map (fun i => (r <<< 1).getLsbD (i + 1)) =
          (List.range n).map r.getLsbD := by
        refine List.map_congr_left fun i hi => ?_
        have := List.mem_range.mp hi
        rw [BitVec.getLsbD_eq_getElem (show i < n + 1 by omega)]
        simp [this]
      have hleft : parity (r <<< 1) = odd ((List.range n).map r.getLsbD) := by
        rw [parity, List.range_succ_eq_map, List.map_cons, List.map_map, ← hlow]
        simp [odd, BitVec.getLsbD_shiftLeft, Function.comp_def]
      have hr : parity r = (odd ((List.range n).map r.getLsbD) ^^ r.msb) := by
        rw [parity, List.range_succ, List.map_append, odd_append, BitVec.msb_eq_getLsbD_last]
        simp [odd]
      rw [hleft, hr, Bool.xor_assoc, Bool.xor_self, Bool.xor_false]

/-- With an odd number of bits in the polynomial a step keeps the parity. -/
theorem parity_shift (hp : parity p = true) (r : BitVec w) : parity (shift p r) = parity r := by
  unfold shift
  split
  · rename_i hmsb
    rw [parity_xor, parity_shiftLeft, hmsb, hp, Bool.xor_assoc, Bool.xor_self, Bool.xor_false]
  · rename_i hmsb
    rw [parity_shiftLeft, eq_false_of_ne_true hmsb, Bool.xor_false]

theorem parity_top (hw : 0 < w) (b : Bool) : parity (top w b) = b := by
  obtain ⟨n, rfl⟩ : ∃ n, w = n + 1 := ⟨w - 1, by omega⟩
  have hlow : odd ((List.range n).map (top (n + 1) b).getLsbD) = false :=
    odd_map_false fun i hi => by
      have := List.mem_range.mp hi
      rw [getLsbD_top, decide_eq_false (by omega), Bool.and_false]
  rw [parity, List.range_succ, List.map_append, odd_append, hlow, List.map_singleton,
    getLsbD_top]
  simp [odd]

theorem parity_feed (hp : parity p = true) (r : BitVec w) (bs : List Bool) :
    parity (feed p r bs) = (parity r ^^ odd bs) := by
  have hw : 0 < w := by
    by_contra hw
    obtain rfl : w = 0 := by omega
    cases hp
  induction bs generalizing r with
  | nil => simp [feed, odd]
  | cons b bs ih =>
      show parity (feed p (shift p (r ^^^ top w b)) bs) = (parity r ^^ (b ^^ odd bs))
      rw [ih, parity_shift hp, parity_xor, parity_top hw, Bool.xor_assoc]

end GestAqua.ShiftRegister
