import GestAqua.Base.Execution
import GestAqua.Source.PwmGpio
import Mathlib.Algebra.Order.Floor.Semifield
import Mathlib.Tactic.Linarith
import Mathlib.Tactic.NormNum
import Mathlib.Tactic.Positivity

/-!
The durations of a modulation over any sequence of `iInit`, `SetRapportCyclique`
and `iStart`.

The range guard of `SetRapportCyclique` is on the percentage. The period is at
least 100 microseconds, so that a ratio that the guard replaces gives a high time,
and the low time is never zero; but the share of a ratio that the guard accepts is
truncated, and it is zero when the product of the period and the ratio is below
100. `CTimer::Start` then returns without effect.
-/

namespace GestAqua

inductive AppelPwm
  | iInit (ucNumGpio : UInt8) (uiFreq : ℕ) (dRapport : ℚ)
  | setRapportCyclique (dRapport : ℚ)
  | iStart
  deriving DecidableEq, Repr

namespace CPwmGpio

def appelle (p : CPwmGpio) : AppelPwm → Option CPwmGpio
  | .iInit ucNumGpio uiFreq dRapport => some (p.iInit ucNumGpio uiFreq dRapport).1
  | .setRapportCyclique dRapport => some (p.setRapportCyclique dRapport)
  | .iStart => some p.iStart

/-- The period is the sum of two durations that are not zero and lies in its range;
`iStart` starts the timer, and the timeout of a pass of its thread is not zero, for
fields of any width from that of the target on. -/
structure Utilisable (p : CPwmGpio) : Prop where
  somme : p.ui64UsecEtatHaut + p.ui64UsecEtatBas = p.ui64UsecPeriod
  haut : 0 < p.ui64UsecEtatHaut
  bas : 0 < p.ui64UsecEtatBas
  periode : 100 ≤ p.ui64UsecPeriod ∧ p.ui64UsecPeriod ≤ 1000000
  duree : p.mTimerPwm.ui64TpsUsec ≠ 0
  demarre : p.iStart.mTimerPwm.bStarted = true
  attente : ∀ w, 32 ≤ w → CTimer.tv w p.mTimerPwm.ui64TpsUsec ≠ ⟨0, 0⟩

/-- A ratio that the guard accepts gives at least one microsecond of the period. -/
def PartSensible (ui64UsecPeriod : ℕ) (dRapport : ℚ) : Prop :=
  0 < dRapport → dRapport < 100 → 100 ≤ ui64UsecPeriod * dRapport

def periodeRetenue (uiFreq : ℕ) : ℕ := microSec / frequenceRetenue uiFreq

def RapportSensible (p : CPwmGpio) : AppelPwm → Prop
  | .iInit _ uiFreq dRapport => PartSensible (periodeRetenue uiFreq) dRapport
  | .setRapportCyclique dRapport => PartSensible p.ui64UsecPeriod dRapport
  | .iStart => True

instance (P : ℕ) (r : ℚ) : Decidable (PartSensible P r) :=
  inferInstanceAs (Decidable (0 < r → r < 100 → 100 ≤ P * r))

instance (p : CPwmGpio) : ∀ e, Decidable (p.RapportSensible e)
  | .iInit _ uiFreq r => inferInstanceAs (Decidable (PartSensible (periodeRetenue uiFreq) r))
  | .setRapportCyclique r => inferInstanceAs (Decidable (PartSensible p.ui64UsecPeriod r))
  | .iStart => isTrue trivial

/-! ### The two durations -/

theorem frequenceRetenue_pos (uiFreq : ℕ) : 0 < frequenceRetenue uiFreq := by
  rw [frequenceRetenue]
  split
  · rename_i h
    exact h.1
  · decide

theorem frequenceRetenue_le (uiFreq : ℕ) : frequenceRetenue uiFreq ≤ 10000 := by
  rw [frequenceRetenue]
  split
  · rename_i h
    exact h.2
  · decide

theorem periodeRetenue_mem (uiFreq : ℕ) :
    100 ≤ periodeRetenue uiFreq ∧ periodeRetenue uiFreq ≤ 1000000 := by
  rw [periodeRetenue, microSec_eq]
  constructor
  · rw [Nat.le_div_iff_mul_le (frequenceRetenue_pos uiFreq)]
    have := frequenceRetenue_le uiFreq
    omega
  · exact Nat.div_le_self _ _

theorem rapportRetenu_pos (r : ℚ) : 0 < rapportRetenu r := by
  rw [rapportRetenu]
  split
  · rename_i h
    exact h.1
  · norm_num

theorem rapportRetenu_lt (r : ℚ) : rapportRetenu r < 100 := by
  rw [rapportRetenu]
  split
  · rename_i h
    exact h.2
  · norm_num

theorem part_lt {P : ℕ} (hP : 0 < P) (r : ℚ) : ⌊P * rapportRetenu r / 100⌋₊ < P := by
  have hPq : (0 : ℚ) < P := by exact_mod_cast hP
  have hr0 := rapportRetenu_pos r
  have hr := mul_lt_mul_of_pos_left (rapportRetenu_lt r) hPq
  rw [Nat.floor_lt (by positivity)]
  linarith

/-- The share is not zero exactly for the ratios that give a microsecond of the
period. -/
theorem part_pos_iff {P : ℕ} (hP : 100 ≤ P) (r : ℚ) :
    0 < ⌊P * rapportRetenu r / 100⌋₊ ↔ PartSensible P r := by
  have hPq : (100 : ℚ) ≤ P := by exact_mod_cast hP
  rw [Nat.floor_pos, PartSensible, rapportRetenu, le_div_iff₀ (by norm_num), one_mul]
  split
  · rename_i h
    exact ⟨fun hle _ _ => hle, fun hle => hle h.1 h.2⟩
  · rename_i h
    exact iff_of_true (by linarith) fun h0 h100 => absurd ⟨h0, h100⟩ h

theorem tv_ne_zero {w usec : ℕ} (hw : 32 ≤ w) (h0 : 0 < usec) (h : usec < 1000000) :
    CTimer.tv w usec ≠ ⟨0, 0⟩ := by
  intro htv
  have hpow : (2 : ℤ) ^ 32 ≤ 2 ^ w := pow_le_pow_right₀ (by decide) hw
  have husec := congrArg Timeval.tvUsec htv
  simp only [CTimer.tv, microSec_eq, Nat.mod_eq_of_lt h] at husec
  rw [entier_eq (by omega) (by omega)] at husec
  omega

/-! ### The calls -/

/-- What `iInit` establishes and every later call keeps: the high time may be zero. -/
structure Coherent (p : CPwmGpio) : Prop where
  haut : p.ui64UsecEtatHaut < p.ui64UsecPeriod
  bas : p.ui64UsecEtatBas = p.ui64UsecPeriod - p.ui64UsecEtatHaut
  periode : 100 ≤ p.ui64UsecPeriod ∧ p.ui64UsecPeriod ≤ 1000000
  duree : p.mTimerPwm.ui64TpsUsec = p.ui64UsecEtatHaut

theorem Coherent.setRapportCyclique (p : CPwmGpio)
    (hP : 100 ≤ p.ui64UsecPeriod ∧ p.ui64UsecPeriod ≤ 1000000) (r : ℚ) :
    (p.setRapportCyclique r).Coherent where
  haut := part_lt (by omega) r
  bas := rfl
  periode := hP
  duree := rfl

theorem setRapportCyclique_haut_pos_iff {p : CPwmGpio} (hP : 100 ≤ p.ui64UsecPeriod) (r : ℚ) :
    0 < (p.setRapportCyclique r).ui64UsecEtatHaut ↔ PartSensible p.ui64UsecPeriod r :=
  part_pos_iff hP r

theorem Coherent.iInit (p : CPwmGpio) (g : UInt8) (f : ℕ) (r : ℚ) : (p.iInit g f r).1.Coherent :=
  { Coherent.setRapportCyclique { p with
      ucGpio := g
      uiFrequence := frequenceRetenue f
      ui64UsecPeriod := microSec / frequenceRetenue f } (periodeRetenue_mem f) r with }

theorem iInit_haut_pos_iff (p : CPwmGpio) (g : UInt8) (f : ℕ) (r : ℚ) :
    0 < (p.iInit g f r).1.ui64UsecEtatHaut ↔ PartSensible (periodeRetenue f) r :=
  part_pos_iff (periodeRetenue_mem f).1 r

theorem iStart_cases (p : CPwmGpio) :
    p.iStart = p ∨ p.iStart = { p with
      mTimerPwm := ⟨true, p.ui64UsecEtatHaut, some (), timePeriodic⟩ } := by
  rw [iStart, CTimer.start]
  split
  · rename_i t ht
    split at ht
    · cases ht
    · cases ht
      exact .inr rfl
  · exact .inl rfl

theorem iStart_haut (p : CPwmGpio) : p.iStart.ui64UsecEtatHaut = p.ui64UsecEtatHaut := by
  rcases iStart_cases p with h | h <;> rw [h]

theorem Coherent.iStart {p : CPwmGpio} (h : p.Coherent) : p.iStart.Coherent := by
  rcases iStart_cases p with hp | hp <;> rw [hp]
  · exact h
  · exact ⟨h.haut, h.bas, h.periode, rfl⟩

theorem appelle_total (p : CPwmGpio) (e : AppelPwm) : ∃ q, p.appelle e = some q := by
  cases e <;> exact ⟨_, rfl⟩

theorem Coherent.appelle {p q : CPwmGpio} {e : AppelPwm} (h : p.Coherent)
    (hq : p.appelle e = some q) : q.Coherent := by
  cases e with
  | iInit g f r =>
      obtain rfl := Option.some.inj hq
      exact .iInit p g f r
  | setRapportCyclique r =>
      obtain rfl := Option.some.inj hq
      exact .setRapportCyclique p h.periode r
  | iStart =>
      obtain rfl := Option.some.inj hq
      exact h.iStart

/-- The high time after a call is not zero exactly when the ratio that it sets is
sensible. -/
theorem Coherent.haut_pos_iff {p q : CPwmGpio} {e : AppelPwm} (h : p.Coherent)
    (hp : 0 < p.ui64UsecEtatHaut) (hq : p.appelle e = some q) :
    0 < q.ui64UsecEtatHaut ↔ p.RapportSensible e := by
  cases e with
  | iInit g f r =>
      obtain rfl := Option.some.inj hq
      exact iInit_haut_pos_iff p g f r
  | setRapportCyclique r =>
      obtain rfl := Option.some.inj hq
      exact setRapportCyclique_haut_pos_iff h.periode.1 r
  | iStart =>
      obtain rfl := Option.some.inj hq
      rw [iStart_haut]
      exact iff_of_true hp trivial

/-- The high time decides. -/
theorem Coherent.utilisable {p : CPwmGpio} (h : p.Coherent) (hp : 0 < p.ui64UsecEtatHaut) :
    p.Utilisable where
  somme := by
    have := h.haut
    have := h.bas
    omega
  haut := hp
  bas := by
    have := h.haut
    have := h.bas
    omega
  periode := h.periode
  duree := by
    rw [h.duree]
    exact hp.ne'
  demarre := by
    cases hb : p.mTimerPwm.bStarted with
    | true => rw [CPwmGpio.iStart, CTimer.start, if_pos (.inl hb), hb]
    | false => rw [CPwmGpio.iStart, CTimer.start_of_pos hb hp.ne']
  attente := by
    intro w hw
    rw [h.duree]
    exact tv_ne_zero hw hp (by have := h.haut; have := h.periode; omega)

/-- Over every sequence of calls from the constructor on, the durations are usable
after each of them exactly when every ratio gives at least one microsecond of the
period in force when it is set. -/
theorem durees_utilisables_iff (ucNumGpio : UInt8) (uiFreq : ℕ) (dRapport : ℚ)
    (es : List AppelPwm) :
    Execution.Always appelle Utilisable (construit ucNumGpio uiFreq dRapport) es ↔
      PartSensible (periodeRetenue uiFreq) dRapport ∧
        Execution.Meets appelle RapportSensible (construit ucNumGpio uiFreq dRapport) es := by
  have hcoh : (construit ucNumGpio uiFreq dRapport).Coherent := .iInit vide _ _ _
  have hhaut := iInit_haut_pos_iff vide ucNumGpio uiFreq dRapport
  obtain ⟨q, hq⟩ := Execution.exec_of_total appelle_total (construit ucNumGpio uiFreq dRapport) es
  by_cases h0 : PartSensible (periodeRetenue uiFreq) dRapport
  · rw [and_iff_right h0]
    refine Execution.always_iff_meets (I := fun p => p.Coherent ∧ 0 < p.ui64UsecEtatHaut)
      (fun p h => h.1.utilisable h.2) ?_ ?_ ⟨hcoh, hhaut.mpr h0⟩ hq
    · rintro p e q ⟨h, hp⟩ hg hq
      exact ⟨h.appelle hq, (h.haut_pos_iff hp hq).mpr hg⟩
    · rintro p e q ⟨h, hp⟩ hg hq hutil
      exact hg ((h.haut_pos_iff hp hq).mp hutil.haut)
  · refine iff_of_false (fun h => h0 (hhaut.mp ?_)) fun h => h0 h.1
    exact h.first.haut

/-- The modulation that `CSoleil` constructs, set to a twentieth of one percent: the
high time of half a microsecond is truncated to zero, and `iStart` does not start
the timer. -/
theorem rapport_sans_duree :
    ¬ Execution.Always appelle Utilisable (construit 16 1000 1) [.setRapportCyclique (1 / 20)] ∧
      ((Execution.exec appelle (construit 16 1000 1) [.setRapportCyclique (1 / 20), .iStart]).map
        fun p => (p.ui64UsecEtatHaut, p.mTimerPwm.bStarted)) = some (0, false) := by
  refine ⟨fun h => ?_, by decide +kernel⟩
  have hlast : ((construit 16 1000 1).setRapportCyclique (1 / 20)).Utilisable := h.2
  exact absurd hlast.haut (by decide +kernel)

end CPwmGpio

end GestAqua
