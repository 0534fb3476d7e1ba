import GestAqua.Base.ShiftRegister
import GestAqua.Source.Crc

/-!
What the checksums compute, and what they detect.

The loop over the bits is a shift register, into which the bits of the message enter at the
top, those of a reflected byte in the other order (`crcSlow_eq`). The table holds the eight
steps of every byte, and they are all that is needed of a byte. What two messages of the
same length differ by enters an empty register, so that an error is detected when it leaves
something there.
-/

namespace GestAqua

open ShiftRegister

theorem foldl_reflectBit (data : BitVec 32) {nBits k : ℕ} (hk : k ≤ nBits) (h : nBits ≤ 32) :
    ((List.range k).foldl (reflectBit nBits) (data, 0#32)).1 = data >>> k ∧
      ∀ i, ((List.range k).foldl (reflectBit nBits) (data, 0#32)).2.getLsbD i =
        (decide (nBits ≤ i + k ∧ i < nBits) && data.getLsbD (nBits - 1 - i)) := by
  induction k with
  | zero =>
      refine ⟨by simp, fun i => ?_⟩
      rw [decide_eq_false (by omega)]
      simp
  | succ k ih =>
      obtain ⟨hdata, hrefl⟩ := ih (by omega)
      rw [List.range_succ, List.foldl_append, List.foldl_cons, List.foldl_nil, reflectBit, hdata]
      refine ⟨by rw [← BitVec.shiftRight_add], fun i => ?_⟩
      have hbit : (1#32 <<< (nBits - 1 - k)).getLsbD i = decide (i + k + 1 = nBits) := by
        rw [← BitVec.twoPow_eq, BitVec.getLsbD_twoPow, Bool.eq_iff_iff]
        simp only [Bool.and_eq_true, decide_eq_true_eq]
        omega
      have hlow : (data >>> k).getLsbD 0 = data.getLsbD k := by simp
      rw [hlow]
      by_cases hi : i + k + 1 = nBits
      · -- the bit that this round sets
        have hk' : nBits - 1 - i = k := by omega
        rw [hk', decide_eq_true (by omega), Bool.true_and]
        split
        · rename_i hone
          simp [BitVec.getLsbD_or, hbit, hi, hone]
        · rename_i hzero
          rw [hrefl, decide_eq_false (by omega)]
          simpa using hzero
      · have hsame : (decide (nBits ≤ i + (k + 1) ∧ i < nBits)) =
            decide (nBits ≤ i + k ∧ i < nBits) := by
          rw [Bool.eq_iff_iff, decide_eq_true_iff, decide_eq_true_iff]
          omega
        rw [hsame, ← hrefl]
        split
        · rw [BitVec.getLsbD_or, hbit, decide_eq_false hi, Bool.or_false]
        · rfl

/-- `reflect` reverses the `nBits` low bits. -/
theorem getLsbD_reflect (data : BitVec 32) {nBits : ℕ} (h : nBits ≤ 32) (i : ℕ) :
    (reflect data nBits).getLsbD i = (decide (i < nBits) && data.getLsbD (nBits - 1 - i)) := by
  rw [reflect, (foldl_reflectBit data (Nat.le_refl _) h).2]
  congr 1
  rw [Bool.eq_iff_iff, decide_eq_true_iff, decide_eq_true_iff]
  omega

namespace NormeCrc

variable {w : ℕ} (n : NormeCrc w)

theorem reflechitReste_injective (h : w ≤ 32) : Function.Injective n.reflechitReste := by
  intro a b hab
  unfold reflechitReste at hab
  split at hab
  · refine BitVec.eq_of_getLsbD_eq fun i hi => ?_
    have hbit := congrArg (·.getLsbD (w - 1 - i)) hab
    simp only [BitVec.getLsbD_setWidth, getLsbD_reflect _ h] at hbit
    simpa [show w - 1 - i < w by omega, show w - 1 - (w - 1 - i) = i by omega,
      show i < 32 by omega] using hbit
  · exact hab

/-! ### The loops -/

/-- The body of the loop over the bits is a step of the register. -/
theorem divise_eq (hw : 0 < w) : n.divise = shift n.polynomial := by
  funext r
  have htop : r &&& 1#w <<< (w - 1) ≠ 0#w ↔ r.msb = true := by
    rw [← BitVec.twoPow_eq, BitVec.and_twoPow, BitVec.msb_eq_getLsbD_last]
    split
    · rename_i hone
      refine iff_of_true (fun hzero => ?_) hone
      have hbit := congrArg (·.getLsbD (w - 1)) hzero
      simp only [BitVec.getLsbD_twoPow, BitVec.getLsbD_zero] at hbit
      simp [show w - 1 < w by omega] at hbit
    · rename_i hzero
      simpa using hzero
  unfold divise shift
  simp only [htop]

def bits (x : UInt8) : List Bool := (List.range 8).map fun i => (n.reflechit x).getLsbD (7 - i)

def bitsMessage (message : List UInt8) : List Bool := message.flatMap n.bits

@[simp] theorem bitsMessage_cons (x : UInt8) (message : List UInt8) :
    n.bitsMessage (x :: message) = n.bits x ++ n.bitsMessage message := rfl

@[simp] theorem length_bits (x : UInt8) : (n.bits x).length = 8 := by simp [bits]

@[simp] theorem length_bitsMessage (message : List UInt8) :
    (n.bitsMessage message).length = 8 * message.length := by
  induction message with
  | nil => rfl
  | cons x message ih =>
      rw [bitsMessage_cons, List.length_append, length_bits, List.length_cons, ih]
      omega

theorem reflechit_injective : Function.Injective n.reflechit := by
  intro x y hxy
  refine UInt8.toBitVec_inj.mp ?_
  unfold reflechit at hxy
  split at hxy
  · refine BitVec.eq_of_getLsbD_eq fun i hi => ?_
    have hbit := congrArg (·.getLsbD (7 - i)) hxy
    simp only [BitVec.getLsbD_setWidth, getLsbD_reflect _ (show 8 ≤ 32 by omega)] at hbit
    simpa [show 7 - i < 8 by omega, show 7 - (7 - i) = i by omega, show i < 32 by omega]
      using hbit
  · exact hxy

theorem bits_injective : Function.Injective n.bits := by
  intro x y hxy
  refine n.reflechit_injective (BitVec.eq_of_getLsbD_eq fun i hi => ?_)
  have hbit := congrArg (·[7 - i]?) hxy
  simpa [bits, show 7 - i < 8 by omega, show 7 - (7 - i) = i by omega] using hbit

theorem bitsMessage_inj {message message' : List UInt8} (hlen : message.length = message'.length) :
    n.bitsMessage message = n.bitsMessage message' ↔ message = message' := by
  refine ⟨fun h => ?_, fun h => by rw [h]⟩
  induction message generalizing message' with
  | nil => exact (List.length_eq_zero_iff.mp hlen.symm).symm
  | cons x message ih =>
      cases message' with
      | nil => cases hlen
      | cons y message' =>
          obtain ⟨hx, hrest⟩ := List.append_inj h (by simp)
          rw [n.bits_injective hx, ih (by simpa using hlen) hrest]

theorem align_bits (hw : 8 ≤ w) (x : UInt8) :
    align w (n.bits x) = (n.reflechit x).setWidth w <<< (w - 8) := by
  refine BitVec.eq_of_getLsbD_eq fun i hi => ?_
  rw [getLsbD_align _ hi, BitVec.getLsbD_shiftLeft, BitVec.getLsbD_setWidth]
  by_cases hlow : i < w - 8
  · rw [List.getElem?_eq_none (by rw [length_bits]; omega)]
    simp [hlow]
  · rw [List.getElem?_eq_getElem (by rw [length_bits]; omega)]
    simp [bits, hi, hlow, show i - (w - 8) < w by omega,
      show 7 - (w - 1 - i) = i - (w - 8) by omega]

/-- `crcSlow` lets the bits of the message enter one by one. -/
theorem crcSlow_eq (hw : 8 ≤ w) (message : List UInt8) :
    n.crcSlow message =
      n.reflechitReste (feed n.polynomial n.initialRemainder (n.bitsMessage message)) ^^^
        n.finalXorValue := by
  have hfold : ∀ r : BitVec w, message.foldl (fun remainder x =>
      n.divise^[8] (remainder ^^^ (n.reflechit x).setWidth w <<< (w - 8))) r =
        feed n.polynomial r (n.bitsMessage message) := by
    induction message with
    | nil => exact fun _ => rfl
    | cons x message ih =>
        intro r
        have hlen : (n.bits x).length ≤ w := by
          rw [length_bits]
          exact hw
        have hoctet := feed_eq_shifts n.polynomial hlen r
        rw [length_bits, n.align_bits hw, ← n.divise_eq (by omega)] at hoctet
        rw [List.foldl_cons, ih, ← hoctet, bitsMessage_cons, feed_append]
  rw [crcSlow, hfold]

/-- The checksum by the table that `crcInit` fills is the checksum by the loop over the bits,
for every message. -/
theorem crcFast_crcInit (hw : 8 ≤ w) (message : List UInt8) :
    n.crcFast n.crcInit message = n.crcSlow message := by
  have hoctet : ∀ (r : BitVec w) (x : UInt8),
      (n.crcInit.getD (n.reflechit x ^^^ (r >>> (w - 8)).setWidth 8).toNat 0#w) ^^^ r <<< 8 =
        n.divise^[8] (r ^^^ (n.reflechit x).setWidth w <<< (w - 8)) := by
    intro r x
    generalize n.reflechit x = d
    have htable : ∀ y : BitVec 8, n.crcInit.getD y.toNat 0#w =
        (shift n.polynomial)^[8] (y.setWidth w <<< (w - 8)) := by
      intro y
      have hy := y.isLt
      rw [crcInit, List.getD_eq_getElem?_getD, List.getElem?_map,
        List.getElem?_range hy, n.divise_eq (by omega)]
      simp
    have hhaut : (r ^^^ d.setWidth w <<< (w - 8)) >>> (w - 8) <<< (w - 8) =
        (d ^^^ (r >>> (w - 8)).setWidth 8).setWidth w <<< (w - 8) := by
      refine BitVec.eq_of_getLsbD_eq fun i hi => ?_
      simp only [BitVec.getLsbD_shiftLeft, BitVec.getLsbD_ushiftRight, BitVec.getLsbD_xor,
        BitVec.getLsbD_setWidth]
      by_cases hlow : i < w - 8
      · simp [hlow]
      · simp [hlow, hi, show w - 8 + (i - (w - 8)) = i by omega,
          show i - (w - 8) < w by omega, show i - (w - 8) < 8 by omega, Bool.xor_comm]
    have hbas : (r ^^^ d.setWidth w <<< (w - 8)) <<< 8 = r <<< 8 := by
      refine BitVec.eq_of_getLsbD_eq fun i hi => ?_
      simp only [BitVec.getLsbD_shiftLeft, BitVec.getLsbD_xor, BitVec.getLsbD_setWidth]
      by_cases hi8 : i < 8
      · simp [hi8]
      · simp [hi8, show i - 8 < w - 8 by omega]
    have hpartage := shifts_split n.polynomial (r ^^^ d.setWidth w <<< (w - 8)) hw
    rw [hhaut, hbas] at hpartage
    rw [htable, n.divise_eq (by omega), hpartage]
  simp only [crcFast, hoctet, crcSlow]

/-- The check value of the standard that `crc.h` selects, by the table. -/
theorem crcFast_crcInit_crc16 :
    crc16.crcFast crc16.crcInit [0x31, 0x32, 0x33, 0x34, 0x35, 0x36, 0x37, 0x38, 0x39] =
      0xBB3D := by
  rw [crc16.crcFast_crcInit (by decide)]
  decide +kernel

/-! ### What is detected -/

def ecart (message message' : List UInt8) : List Bool :=
  List.zipWith xor (n.bitsMessage message) (n.bitsMessage message')

/-- The checksums of two messages of the same length are the same when the bits in which they
differ leave nothing in an empty register. -/
theorem crcSlow_inj (hw : 8 ≤ w) (hw' : w ≤ 32) {message message' : List UInt8}
    (hlen : message.length = message'.length) :
    n.crcSlow message = n.crcSlow message' ↔
      feed n.polynomial 0#w (n.ecart message message') = 0#w := by
  have hbits : (n.bitsMessage message).length = (n.bitsMessage message').length := by
    simp [hlen]
  have hsum := feed_xor n.polynomial hbits n.initialRemainder n.initialRemainder
  rw [BitVec.xor_self] at hsum
  rw [ecart, hsum, BitVec.xor_eq_zero_iff, crcSlow_eq n hw, crcSlow_eq n hw, BitVec.xor_left_inj,
    (n.reflechitReste_injective hw').eq_iff]

theorem getElem?_ecart {message message' : List UInt8} (hlen : message.length = message'.length)
    (k : ℕ) : (n.ecart message message')[k]? = some true ↔
      (n.bitsMessage message)[k]? ≠ (n.bitsMessage message')[k]? := by
  rw [ecart, List.getElem?_zipWith]
  by_cases hk : k < 8 * message.length
  · rw [List.getElem?_eq_getElem (show k < (n.bitsMessage message).length by simpa using hk),
      List.getElem?_eq_getElem (show k < (n.bitsMessage message').length by
        simpa [← hlen] using hk)]
    simp
  · rw [List.getElem?_eq_none (by rw [length_bitsMessage]; omega),
      List.getElem?_eq_none (by rw [length_bitsMessage]; omega)]
    simp

theorem true_mem_ecart {message message' : List UInt8} (hlen : message.length = message'.length)
    (h : message ≠ message') : true ∈ n.ecart message message' := by
  by_contra hmem
  refine h ((n.bitsMessage_inj hlen).mp (List.ext_getElem? fun k => ?_))
  by_contra hk
  exact hmem (List.mem_of_getElem? ((n.getElem?_ecart hlen k).mpr hk))

/-- Whatever is altered within as many successive bits as the checksum has is detected, with a
polynomial that has a constant term. -/
theorem rafale_detectee (hw : 8 ≤ w) (hw' : w ≤ 32) (hp : n.polynomial.getLsbD 0 = true)
    {message message' : List UInt8} (hlen : message.length = message'.length)
    (h : message ≠ message') (debut : ℕ)
    (hrafale : ∀ k : ℕ, (n.bitsMessage message)[k]? ≠ (n.bitsMessage message')[k]? →
      debut ≤ k ∧ k < debut + w) : n.crcSlow message ≠ n.crcSlow message' := by
  rw [Ne, n.crcSlow_inj hw hw' hlen]
  exact feed_burst_ne_zero hp (n.true_mem_ecart hlen h) fun k hk =>
    hrafale k ((n.getElem?_ecart hlen k).mp hk)

/-- The two last bytes of a message in the standard of `crc.h`. -/
theorem rafale_detectee_crc16 :
    crc16.crcSlow [0x31, 0x32, 0x33] ≠ crc16.crcSlow [0x31, 0xCD, 0x30] := by
  have hfirst : ∀ k < 8, (crc16.bitsMessage [0x31, 0x32, 0x33])[k]? =
      (crc16.bitsMessage [0x31, 0xCD, 0x30])[k]? := by decide +kernel
  refine crc16.rafale_detectee (by decide) (by decide) (by decide) (by decide) (by decide) 8
    fun k hk => ⟨?_, ?_⟩
  · by_contra h
    exact hk (hfirst k (by omega))
  · by_contra h
    rw [List.getElem?_eq_none (by simp; omega), List.getElem?_eq_none (by simp; omega)] at hk
    exact hk rfl

/-- An odd number of altered bits is detected, with a polynomial that has an odd number of
bits: with its leading one, that is a multiple of `x + 1`. -/
theorem erreurs_impaires_detectees (hw : 8 ≤ w) (hw' : w ≤ 32) (hp : parity n.polynomial = true)
    {message message' : List UInt8} (hlen : message.length = message'.length)
    (hodd : (n.ecart message message').count true % 2 = 1) :
    n.crcSlow message ≠ n.crcSlow message' := by
  rw [Ne, n.crcSlow_inj hw hw' hlen]
  intro hzero
  have hparity := parity_feed hp 0#w (n.ecart message message')
  rw [hzero, odd_eq, hodd] at hparity
  simp at hparity

/-- Three bits of three bytes in the standard of `crc.h`. -/
theorem erreurs_impaires_detectees_crc16 :
    crc16.crcSlow [0x31, 0x32, 0x33] ≠ crc16.crcSlow [0x30, 0xB2, 0x37] :=
  crc16.erreurs_impaires_detectees (by decide) (by decide) (by decide) (by decide)
    (by decide +kernel)

end NormeCrc

end GestAqua
