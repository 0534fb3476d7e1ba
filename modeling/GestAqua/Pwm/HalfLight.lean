import GestAqua.Base.Execution
import GestAqua.Pwm.Durations
import GestAqua.Pwm.Waveform

/-!
The light of a modulation whose ratio changes while it runs.

`CTimer::Thread` waits the duration of the high state in both states of the pin, so that a
phase is followed by one of the same length at the other level, unless the ratio has been
set between the beginnings of the two. Over any run the time that the pin is high and the
time that it is low therefore differ by one period for each change of the ratio at most,
and one more: the curve does not show.
-/

namespace GestAqua.Pwm

open SquareWave

/-- A modulation since its `iStart`: the wait in progress, the time, and the writes made so
far with their instants. -/
structure Regime where
  pwm : CPwmGpio
  attente : ℕ
  instant : ℕ
  journal : List (ℕ × Ecriture)

/-- `rappel` is the end of a wait by timeout, with the callback. -/
inductive EvtRegime
  | rappel
  | setRapportCyclique (dRapport : ℚ)
  deriving DecidableEq, Repr

namespace Regime

def lance (p : CPwmGpio) : Regime where
  pwm := p.iStart
  attente := p.iStart.mTimerPwm.ui64TpsUsec
  instant := 0
  journal := []

/-- The duration of a wait is read when it begins. -/
def step (m : Regime) : EvtRegime → Option Regime
  | .rappel =>
    if m.pwm.mTimerPwm.bStarted then
      let retour := m.pwm.callbackTimerPwmGpio m.pwm.mTimerPwm.hObjetAttache
      some {
        pwm := retour.1
        attente := retour.1.mTimerPwm.ui64TpsUsec
        instant := m.instant + m.attente
        journal := m.journal ++ retour.2.map fun w => (m.instant + m.attente, w) }
    else none
  | .setRapportCyclique dRapport => some { m with pwm := m.pwm.setRapportCyclique dRapport }

/-- The edges of the pin, from the level `0` that `iInit` has written. -/
def onde (m : Regime) : List Edge := (0, false) :: m.journal.map fun e => (e.1, niveau m.pwm e.2)

def reglage : EvtRegime → ℕ
  | .rappel => 0
  | .setRapportCyclique _ => 1

def signe (haut : Bool) (t : ℤ) : ℤ := if haut then t else -t

theorem signe_not (haut : Bool) (t : ℤ) : signe (!haut) t = -signe haut t := by
  cases haut <;> simp [signe]

theorem abs_signe (haut : Bool) (t : ℕ) : |signe haut t| = t := by
  cases haut <;> simp [signe]

/-- What a run with `K` changes keeps, for a period `P`. Phases come in pairs of the same
length, but for one at most for each change; the excess of the high time is that of the
single ones, and of the phase of a pair that has begun. -/
structure Equilibre (P K : ℕ) (haut : Bool) (m : Regime) : Prop where
  periode : m.pwm.ui64UsecPeriod = P
  coherent : m.pwm.Coherent
  attache : m.pwm.mTimerPwm.bStarted = true → m.pwm.mTimerPwm.hObjetAttache = some ()
  etat : m.pwm = apres m.pwm haut
  dernier : m.onde.getLast? = some (m.instant, haut)
  attente : m.attente ≤ P
  bilan : ∃ (k : ℕ) (d : ℤ), |d| ≤ k * P ∧ k ≤ K ∧
    (m.attente = m.pwm.mTimerPwm.ui64TpsUsec ∨ k + 1 ≤ K) ∧
    (excess m.onde = d ∨ excess m.onde = d - signe haut m.attente)

variable {P K : ℕ} {haut : Bool} {m m' : Regime}

theorem Equilibre.duree_le (h : Equilibre P K haut m) : m.pwm.mTimerPwm.ui64TpsUsec ≤ P := by
  rw [h.coherent.duree, ← h.periode]
  exact h.coherent.haut.le

theorem Equilibre.regle (h : Equilibre P K haut m) (dRapport : ℚ) :
    Equilibre P (K + 1) haut { m with pwm := m.pwm.setRapportCyclique dRapport } := by
  obtain ⟨k, d, hd, hk, -, hex⟩ := h.bilan
  exact
    { periode := h.periode
      coherent := .setRapportCyclique m.pwm h.coherent.periode dRapport
      attache := h.attache
      etat := by
        conv_lhs => rw [h.etat]
        rfl
      dernier := h.dernier
      attente := h.attente
      bilan := ⟨k, d, hd, by omega, .inr (by omega), hex⟩ }

def bascule (m : Regime) (haut : Bool) : Regime where
  pwm := apres m.pwm (!haut)
  attente := m.pwm.mTimerPwm.ui64TpsUsec
  instant := m.instant + m.attente
  journal := m.journal ++ [(m.instant + m.attente, (apres m.pwm (!haut)).ecrit)]

theorem Equilibre.step_rappel (h : Equilibre P K haut m) (hs : m.step .rappel = some m') :
    m' = m.bascule haut := by
  simp only [Regime.step] at hs
  split at hs
  · rename_i hst
    have hgestion : m.pwm.gestionPwm = (apres m.pwm (!haut), (apres m.pwm (!haut)).ecrit) := by
      conv_lhs => rw [h.etat]
      exact gestionPwm_apres m.pwm haut
    simp only [h.attache hst, CPwmGpio.callbackTimerPwmGpio, hgestion] at hs
    exact (Option.some.inj hs).symm
  · cases hs

theorem onde_bascule (m : Regime) (haut : Bool) :
    (m.bascule haut).onde = m.onde ++ [(m.instant + m.attente, !haut)] := by
  have hniveau : niveau (m.bascule haut).pwm = niveau m.pwm := rfl
  have hecrit := niveau_ecrit_apres m.pwm (!haut)
  rw [onde, hniveau]
  simp [onde, hecrit, bascule]

theorem Equilibre.excess_bascule (h : Equilibre P K haut m) :
    excess (m.bascule haut).onde = excess m.onde + signe haut m.attente := by
  rw [onde_bascule, excess_concat h.dernier (Nat.le_add_right _ _)]
  simp [signe]

/-- The end of a phase, which is the first of a pair, stays single, or is the second. -/
theorem Equilibre.bascule (h : Equilibre P K haut m) : Equilibre P K (!haut) (m.bascule haut) where
  periode := h.periode
  coherent := { h.coherent with }
  attache := h.attache
  etat := rfl
  dernier := by
    rw [onde_bascule, List.getLast?_concat]
    rfl
  attente := h.duree_le
  bilan := by
    obtain ⟨k, d, hd, hk, hK, hex⟩ := h.bilan
    rw [h.excess_bascule]
    rcases hex with hex | hex
    · rcases hK with hK | hK
      · refine ⟨k, d, hd, hk, .inl rfl, .inr ?_⟩
        show _ = d - signe (!haut) m.pwm.mTimerPwm.ui64TpsUsec
        rw [hex, signe_not, sub_neg_eq_add, hK]
      · refine ⟨k + 1, d + signe haut m.attente, ?_, hK, .inl rfl, .inl (by rw [hex])⟩
        have hatt : (m.attente : ℤ) ≤ P := by exact_mod_cast h.attente
        calc |d + signe haut m.attente|
            ≤ |d| + |signe haut m.attente| := abs_add_le _ _
          _ ≤ k * P + P := by
              rw [abs_signe]
              exact add_le_add hd hatt
          _ = (k + 1 : ℕ) * P := by
              push_cast
              ring
    · exact ⟨k, d, hd, hk, .inl rfl, .inl (by rw [hex]; ring)⟩

theorem Equilibre.step (h : Equilibre P K haut m) {e : EvtRegime} (hs : m.step e = some m') :
    ∃ haut, Equilibre P (K + reglage e) haut m' := by
  cases e with
  | rappel => exact ⟨!haut, h.step_rappel hs ▸ h.bascule⟩
  | setRapportCyclique dRapport =>
      obtain rfl := Option.some.inj hs
      exact ⟨haut, h.regle dRapport⟩

theorem Equilibre.lance (ucNumGpio : UInt8) (uiFreq : ℕ) (dRapport : ℚ) :
    Equilibre (CPwmGpio.periodeRetenue uiFreq) 0 false
      (lance (.construit ucNumGpio uiFreq dRapport)) := by
  have hcoh : (CPwmGpio.construit ucNumGpio uiFreq dRapport).iStart.Coherent :=
    (CPwmGpio.Coherent.iInit .vide ucNumGpio uiFreq dRapport).iStart
  have hper : (CPwmGpio.construit ucNumGpio uiFreq dRapport).iStart.ui64UsecPeriod =
      CPwmGpio.periodeRetenue uiFreq := by
    rcases CPwmGpio.iStart_cases (.construit ucNumGpio uiFreq dRapport) with h | h <;>
    · rw [h]
      rfl
  refine ⟨hper, hcoh, fun hst => ?_, ?_, rfl, ?_, 0, 0, by simp, le_rfl, .inl rfl, .inl rfl⟩
  · rcases CPwmGpio.iStart_cases (.construit ucNumGpio uiFreq dRapport) with h | h
    · simp only [Regime.lance, h] at hst
      cases hst
    · simp only [Regime.lance, h]
  · rcases CPwmGpio.iStart_cases (.construit ucNumGpio uiFreq dRapport) with h | h <;>
    · simp only [Regime.lance, h]
      rfl
  · show (CPwmGpio.construit ucNumGpio uiFreq dRapport).iStart.mTimerPwm.ui64TpsUsec ≤ _
    rw [hcoh.duree, ← hper]
    exact hcoh.haut.le

/-- Over every run of a modulation, whatever the ratios that are set while it runs, the
time that its pin is high and the time that it is low differ by one period for each change
of the ratio and one more at most. -/
theorem mi_lumiere (ucNumGpio : UInt8) (uiFreq : ℕ) (dRapport : ℚ) (es : List EvtRegime)
    (m : Regime)
    (hes : Execution.exec step (lance (.construit ucNumGpio uiFreq dRapport)) es = some m) :
    |excess m.onde| ≤ ((es.map reglage).sum + 1) * CPwmGpio.periodeRetenue uiFreq := by
  obtain ⟨haut, h⟩ := Execution.exec_accumulates
    (I := fun K m => ∃ haut, Equilibre (CPwmGpio.periodeRetenue uiFreq) K haut m) reglage
    (fun _ _ _ _ ⟨_, hI⟩ hs => hI.step hs) ⟨false, .lance ucNumGpio uiFreq dRapport⟩ hes
  rw [Nat.zero_add] at h
  obtain ⟨k, d, hd, hk, -, hex⟩ := h.bilan
  have hatt : (m.attente : ℤ) ≤ CPwmGpio.periodeRetenue uiFreq := by exact_mod_cast h.attente
  have hkK : (k : ℤ) * CPwmGpio.periodeRetenue uiFreq ≤
      (es.map reglage).sum * CPwmGpio.periodeRetenue uiFreq := by
    exact_mod_cast Nat.mul_le_mul_right _ hk
  have hexcess : |excess m.onde| ≤ |d| + m.attente := by
    rcases hex with hex | hex
    · rw [hex]
      omega
    · rw [hex]
      exact (abs_sub d _).trans_eq (by rw [abs_signe])
  rw [add_mul, one_mul]
  omega

/-- A phase of 600 microseconds and three of 300, the second ratio set before the first
of them has ended. -/
theorem mi_lumiere_deux_rapports :
    |excess ((Execution.exec step (lance (.construit 16 1000 60)) [.setRapportCyclique 30, .rappel,
      .rappel, .rappel, .rappel]).get (by decide +kernel)).onde| ≤
        ((1 : ℕ) + 1) * CPwmGpio.periodeRetenue 1000 :=
  mi_lumiere 16 1000 60 [.setRapportCyclique 30, .rappel, .rappel, .rappel, .rappel] _
    (Option.some_get _).symm

end Regime

end GestAqua.Pwm
