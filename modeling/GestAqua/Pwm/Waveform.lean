import GestAqua.Base.SquareWave
import GestAqua.Source.PwmGpio
import Mathlib.Tactic.Linarith
import Mathlib.Tactic.NormNum
import Mathlib.Tactic.FieldSimp

/-!
The waveform on the pin over whole runs of the modulation's periodic timer.

Each pass of `CTimer::Thread` waits `ui64TpsUsec` and calls
`CallbackTimerPwmGpio`. `SetRapportCyclique` loads the duration of the high
state into the timer and nothing loads the other one, so the run is a toggle at
that one period (`onde_eq_toggles`), and the two phases have the durations that
`SetRapportCyclique` computed exactly when these are equal.
-/

namespace GestAqua.Pwm

open SquareWave

/-- A run of the periodic timer: the modulation, the time since `iStart` and the
writes made so far, each with its instant. -/
structure Marche where
  pwm : CPwmGpio
  instant : ℕ
  journal : List (ℕ × Ecriture)

/-- One pass of the loop of `CTimer::Thread` with a periodic timer: the wait
ends by timeout and the callback runs. -/
def Marche.passe (m : Marche) : Marche :=
  let instant := m.instant + m.pwm.mTimerPwm.ui64TpsUsec
  let retour := m.pwm.callbackTimerPwmGpio m.pwm.mTimerPwm.hObjetAttache
  { pwm := retour.1
    instant := instant
    journal := m.journal ++ retour.2.map fun w => (instant, w) }

/-- `n` passes from the return of `iStart`. -/
def marche (p : CPwmGpio) (n : ℕ) : Marche :=
  Marche.passe^[n] { pwm := p.iStart, instant := 0, journal := [] }

def niveau (p : CPwmGpio) (w : Ecriture) : Bool :=
  w == gpioWrite (gBank p.ucGpio) (gPin p.ucGpio) 1

/-- The edges of the pin in the first `n` passes. -/
def onde (p : CPwmGpio) (n : ℕ) : List Edge :=
  (marche p n).journal.map fun e => (e.1, niveau p e.2)

/-- The pin obeys the two durations: every complete high phase and every
complete low phase lasts what was computed for it, and over whole cycles the pin
is high for the expected time. -/
structure Conforme (haut bas : ℕ) (l : List Edge) : Prop where
  phases : l.IsChain (Phase haut bas)
  cycles : ∀ n c, c <:+: l → c.length = 2 * n + 1 → c.head?.map Prod.snd = some true →
    duration c = n * (haut + bas) ∧ highTime c = n * haut

theorem conforme_iff_chain {haut bas : ℕ} {l : List Edge} :
    Conforme haut bas l ↔ l.IsChain (Phase haut bas) := by
  constructor
  · exact Conforme.phases
  · intro h
    refine ⟨h, fun n c hc hlen hhead => ?_⟩
    have hchain : c.IsChain (Phase haut bas) := List.IsChain.infix h hc
    exact chain_cycles hchain hlen hhead

/-! ### The run is a toggle -/

def apres (p : CPwmGpio) (haut : Bool) : CPwmGpio := { p with ucEtat := if haut then 1 else 0 }

@[simp] theorem niveau_ecrit_apres (p : CPwmGpio) (haut : Bool) :
    niveau p (apres p haut).ecrit = haut := by
  cases haut <;> simp [niveau, apres, CPwmGpio.ecrit, gpioWrite]

@[simp] theorem gestionPwm_apres (p : CPwmGpio) (haut : Bool) :
    (apres p haut).gestionPwm = (apres p (!haut), (apres p (!haut)).ecrit) := by
  cases haut <;> simp [apres, CPwmGpio.gestionPwm]

theorem passe_apres {p : CPwmGpio} (hp : p.mTimerPwm.hObjetAttache = some ()) (haut : Bool)
    (t : ℕ) (j : List (ℕ × Ecriture)) :
    Marche.passe ⟨apres p haut, t, j⟩ =
      ⟨apres p (!haut), t + p.mTimerPwm.ui64TpsUsec,
        j ++ [(t + p.mTimerPwm.ui64TpsUsec, (apres p (!haut)).ecrit)]⟩ := by
  have htimer : (apres p haut).mTimerPwm = p.mTimerPwm := rfl
  simp [Marche.passe, htimer, hp, CPwmGpio.callbackTimerPwmGpio]

theorem journal_iterate {p : CPwmGpio} (hp : p.mTimerPwm.hObjetAttache = some ()) (n : ℕ)
    (haut : Bool) (t : ℕ) (j : List (ℕ × Ecriture)) :
    (Marche.passe^[n] ⟨apres p haut, t, j⟩).journal.map (fun e => (e.1, niveau p e.2)) =
      j.map (fun e => (e.1, niveau p e.2)) ++ toggles p.mTimerPwm.ui64TpsUsec t haut n := by
  induction n generalizing haut t j with
  | zero => simp [toggles]
  | succ n ih =>
      rw [Function.iterate_succ_apply, passe_apres hp, ih]
      simp [toggles]

/-- A modulation set to a ratio, its high duration loaded into the timer and its
pin low, as a construction followed by `SetRapportCyclique` leaves it. -/
def regle (ucNumGpio : UInt8) (uiFreq : ℕ) (dInitial dRapport : ℚ) : CPwmGpio :=
  (CPwmGpio.construit ucNumGpio uiFreq dInitial).setRapportCyclique dRapport

theorem iStart_regle {ucNumGpio : UInt8} {uiFreq : ℕ} {dInitial dRapport : ℚ}
    (h : (regle ucNumGpio uiFreq dInitial dRapport).ui64UsecEtatHaut ≠ 0) :
    (regle ucNumGpio uiFreq dInitial dRapport).iStart =
      { regle ucNumGpio uiFreq dInitial dRapport with
        mTimerPwm := ⟨true, (regle ucNumGpio uiFreq dInitial dRapport).ui64UsecEtatHaut,
          some (), timePeriodic⟩ } := by
  rw [CPwmGpio.iStart, CTimer.start_of_pos (by rfl) h]

/-- The pin is inverted at the period `ui64_usecEtatHaut`, whatever
`ui64_usecEtatBas` is. -/
theorem onde_eq_toggles {ucNumGpio : UInt8} {uiFreq : ℕ} {dInitial dRapport : ℚ}
    (h : (regle ucNumGpio uiFreq dInitial dRapport).ui64UsecEtatHaut ≠ 0) (n : ℕ) :
    onde (regle ucNumGpio uiFreq dInitial dRapport) n =
      toggles (regle ucNumGpio uiFreq dInitial dRapport).ui64UsecEtatHaut 0 false n := by
  have hstart := iStart_regle h
  have hbas : apres (regle ucNumGpio uiFreq dInitial dRapport).iStart false =
      (regle ucNumGpio uiFreq dInitial dRapport).iStart := by
    rw [hstart]
    rfl
  have hniveau : niveau (regle ucNumGpio uiFreq dInitial dRapport).iStart =
      niveau (regle ucNumGpio uiFreq dInitial dRapport) := by
    rw [hstart]
    rfl
  have hj := journal_iterate (p := (regle ucNumGpio uiFreq dInitial dRapport).iStart)
    (by rw [hstart]) n false 0 []
  rw [hbas, hniveau] at hj
  rw [onde, marche, hj, hstart]
  rfl

/-! ### When the two durations are equal -/

theorem regle_haut (ucNumGpio : UInt8) (uiFreq : ℕ) (dInitial : ℚ) {dRapport : ℚ}
    (h0 : 0 < dRapport) (h100 : dRapport < 100) :
    (regle ucNumGpio uiFreq dInitial dRapport).ui64UsecEtatHaut =
      ⌊(microSec / CPwmGpio.frequenceRetenue uiFreq : ℕ) * dRapport / 100⌋₊ := by
  simp [regle, CPwmGpio.setRapportCyclique, CPwmGpio.rapportRetenu, h0, h100,
    CPwmGpio.construit, CPwmGpio.iInit]

theorem regle_bas (ucNumGpio : UInt8) (uiFreq : ℕ) (dInitial dRapport : ℚ) :
    (regle ucNumGpio uiFreq dInitial dRapport).ui64UsecEtatBas =
      microSec / CPwmGpio.frequenceRetenue uiFreq -
        (regle ucNumGpio uiFreq dInitial dRapport).ui64UsecEtatHaut := rfl

/-- The truncated share of an even period is half of it exactly when the
percentage is 50, up to less than one microsecond. -/
theorem floor_part_eq_half_iff {P : ℕ} {r : ℚ} (hP : 0 < P) (h0 : 0 < r) :
    2 * ⌊(P : ℚ) * r / 100⌋₊ = P ↔ Even P ∧ 50 ≤ r ∧ P * (r - 50) < 100 := by
  have hPq : (0 : ℚ) < P := by exact_mod_cast hP
  have hpos : (0 : ℚ) ≤ P * r / 100 := by positivity
  constructor
  · intro h
    have heven : Even P := ⟨⌊(P : ℚ) * r / 100⌋₊, by omega⟩
    have hfloor : ((⌊(P : ℚ) * r / 100⌋₊ : ℕ) : ℚ) = P / 2 := by
      have : (2 * (⌊(P : ℚ) * r / 100⌋₊ : ℕ) : ℚ) = P := by exact_mod_cast h
      linarith
    have hle := Nat.floor_le hpos
    have hlt := Nat.lt_floor_add_one ((P : ℚ) * r / 100)
    rw [hfloor] at hle hlt
    refine ⟨heven, ?_, by linarith⟩
    by_contra hr
    have : (P : ℚ) * r < P * 50 := mul_lt_mul_of_pos_left (not_le.mp hr) hPq
    linarith
  · rintro ⟨⟨k, hk⟩, h50, hlt⟩
    have hkq : (P : ℚ) = k + k := by exact_mod_cast hk
    have hge : (P : ℚ) * 50 ≤ P * r := mul_le_mul_of_nonneg_left h50 hPq.le
    have hfloor : ⌊(P : ℚ) * r / 100⌋₊ = k := by
      rw [Nat.floor_eq_iff hpos]
      constructor <;> linarith
    omega

/-- The condition on the frequency and the ratio under which half of the period
is high: the period in microseconds is even and the ratio is 50 percent, up to
less than one microsecond of high time. -/
def RapportSymetrique (uiFreq : ℕ) (dRapport : ℚ) : Prop :=
  let periode := microSec / CPwmGpio.frequenceRetenue uiFreq
  Even periode ∧ 50 ≤ dRapport ∧ periode * (dRapport - 50) < 100

/-- The pin obeys the requested ratio over every run exactly for the symmetric
ratios. -/
theorem onde_conforme_iff (ucNumGpio : UInt8) (uiFreq : ℕ) (dInitial dRapport : ℚ)
    (h0 : 0 < dRapport) (h100 : dRapport < 100)
    (hHaut : (regle ucNumGpio uiFreq dInitial dRapport).ui64UsecEtatHaut ≠ 0)
    (hBas : (regle ucNumGpio uiFreq dInitial dRapport).ui64UsecEtatBas ≠ 0) :
    (∀ n, Conforme (regle ucNumGpio uiFreq dInitial dRapport).ui64UsecEtatHaut
        (regle ucNumGpio uiFreq dInitial dRapport).ui64UsecEtatBas
        (onde (regle ucNumGpio uiFreq dInitial dRapport) n)) ↔
      RapportSymetrique uiFreq dRapport := by
  have hbas := regle_bas ucNumGpio uiFreq dInitial dRapport
  have hP : 0 < microSec / CPwmGpio.frequenceRetenue uiFreq := by omega
  simp only [conforme_iff_chain, onde_eq_toggles hHaut]
  rw [toggles_chain_iff, RapportSymetrique, ← floor_part_eq_half_iff hP h0,
    ← regle_haut ucNumGpio uiFreq dInitial h0 h100]
  omega

/-- A 60 percent ratio at 1 kHz: 600 and 400 microseconds are asked for, and the
low phase lasts 600. -/
theorem onde_soixante_pour_cent :
    (regle 16 1000 1 60).ui64UsecEtatHaut = 600 ∧ (regle 16 1000 1 60).ui64UsecEtatBas = 400 ∧
      ¬ ∀ n, Conforme (regle 16 1000 1 60).ui64UsecEtatHaut (regle 16 1000 1 60).ui64UsecEtatBas
        (onde (regle 16 1000 1 60) n) := by
  have hHaut : (regle 16 1000 1 60).ui64UsecEtatHaut = 600 := by decide +kernel
  have hBas : (regle 16 1000 1 60).ui64UsecEtatBas = 400 := by decide +kernel
  refine ⟨hHaut, hBas, fun h => ?_⟩
  have h3 := (h 3).phases
  rw [onde_eq_toggles (by omega), hHaut, hBas] at h3
  simp [toggles, Phase] at h3

/-- The symmetric ratio at 1 kHz gives 500 and 500 microseconds. -/
theorem onde_cinquante_pour_cent :
    RapportSymetrique 1000 50 ∧ ∀ n, Conforme (regle 16 1000 1 50).ui64UsecEtatHaut
      (regle 16 1000 1 50).ui64UsecEtatBas (onde (regle 16 1000 1 50) n) := by
  have hsym : RapportSymetrique 1000 50 := ⟨by decide +kernel, by norm_num, by norm_num⟩
  exact ⟨hsym, (onde_conforme_iff 16 1000 1 50 (by norm_num) (by norm_num) (by decide +kernel)
    (by decide +kernel)).mpr hsym⟩

end GestAqua.Pwm
