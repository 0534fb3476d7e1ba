import GestAqua.Source.MainTache

/-!
The two delays of the main task on integers of fixed width.

`iInitPlanification` converts the seconds to `uint64_t` before it multiplies
them by `MICRO_SEC`; `iStartProfil` multiplies in `time_t` and leaves the
conversion to the call of `Start`. Both are written here for a `time_t` of any
width: on 64 bits they are the delays of the model of the main task, and on the
32 bits of the target board they differ.
-/

namespace GestAqua

/-- The first argument of `LanceTacheprofil->Start` in the deferred branch of
`iInitPlanification`. -/
def dureeLancement (w : ℕ) (tDebut tOffsetMidnight : ℤ) : ℕ :=
  uint64 (entier w (tDebut - tOffsetMidnight)) * microSec % 2 ^ 64

/-- The first argument of `StopTacheprofil->Start` in `iStartProfil`. -/
def dureeArret (w : ℕ) (tDebut tPeriod tOffsetMidnight : ℤ) : ℕ :=
  uint64 (entier w (entier w (tPeriod - entier w (tOffsetMidnight - tDebut)) * microSec))

def Timeval.EstExact (tv : Timeval) (secondes : ℤ) : Prop := tv = ⟨secondes, 0⟩

instance (tv : Timeval) (secondes : ℤ) : Decidable (tv.EstExact secondes) :=
  inferInstanceAs (Decidable (_ = _))

/-- On 64 bits the wrap of the intermediate results does not show in the
conversion to `uint64_t`: the delay is the one of `lanceProfil`. -/
theorem dureeArret_soixante_quatre (tDebut tPeriod tOffsetMidnight : ℤ) :
    dureeArret 64 tDebut tPeriod tOffsetMidnight =
      uint64 ((tPeriod - (tOffsetMidnight - tDebut)) * microSec) := by
  have hsub : entier 64 (tPeriod - entier 64 (tOffsetMidnight - tDebut)) =
      entier 64 (tPeriod - (tOffsetMidnight - tDebut)) := Int.sub_bmod_bmod
  have hmul : entier 64 (entier 64 (tPeriod - (tOffsetMidnight - tDebut)) * microSec) =
      entier 64 ((tPeriod - (tOffsetMidnight - tDebut)) * microSec) := Int.bmod_mul_bmod
  rw [dureeArret, hsub, hmul, uint64_entier]

theorem dureeLancement_soixante_quatre (tDebut tOffsetMidnight : ℤ) :
    dureeLancement 64 tDebut tOffsetMidnight =
      uint64 (tDebut - tOffsetMidnight) * microSec % 2 ^ 64 := by
  rw [dureeLancement, uint64_entier]

open TimerTache in
theorem timers_lanceProfil_duree (env : Env) (cree : ℕ → Bool) (s : CMainTask)
    (e : DefPlanificationProfil) :
    (s.lanceProfil env cree e).timers =
      (nouveau (s.suivant + 2) false).start env (cree (s.suivant + 2)) s.maintenant
        (dureeArret 64 e.stPlanif.tDebut e.stPlanif.tPeriod (s.tOffsetMidnight env))
        (.fctStopProfil ⟨s.suivant + 1, e.ucNumeroProfil, s.suivant⟩) :: s.timers := by
  rw [dureeArret_soixante_quatre]
  rfl

theorem planifieEntree_differe (env : Env) (cree : ℕ → Bool) (o : ℤ) (s : CMainTask)
    (e : DefPlanificationProfil) (hn : e.ucNumeroPlanif ≠ 0) (ho : o < e.stPlanif.tDebut) :
    s.planifieEntree env cree o e =
      (s.remplaceLanceur e.ucNumeroPlanif).creeLanceur env cree e.ucNumeroPlanif true
        (dureeLancement 64 e.stPlanif.tDebut o) := by
  rw [dureeLancement_soixante_quatre, CMainTask.planifieEntree, if_neg hn, if_pos ho]

/-! ### The target board: `time_t` and `int` of 32 bits -/

/-- `tv_usec` always fits. -/
theorem tvUsec_tv (usec : ℕ) : (CTimer.tv 32 usec).tvUsec = (usec % 1000000 : ℕ) := by
  simp only [CTimer.tv, microSec_eq]
  rw [entier_eq] <;> omega

theorem tvSec_tv {usec : ℕ} (h : usec / 1000000 < 2 ^ 31) :
    (CTimer.tv 32 usec).tvSec = (usec / 1000000 : ℕ) := by
  rw [CTimer.tv, microSec_eq, entier_eq] <;> omega

theorem estExact_iff (tv : Timeval) (n : ℤ) : tv.EstExact n ↔ tv.tvSec = n ∧ tv.tvUsec = 0 := by
  rw [Timeval.EstExact, Timeval.mk.injEq]

theorem estExact_produit {n : ℕ} (h : n < 2 ^ 31) :
    (CTimer.tv 32 (n * 1000000)).EstExact n := by
  have hsec : n * 1000000 / 1000000 = n := by omega
  have husec : n * 1000000 % 1000000 = 0 := by omega
  rw [estExact_iff, tvSec_tv (by omega), tvUsec_tv, hsec, husec]
  exact ⟨rfl, rfl⟩

/-- The launcher's delay is exact: the product is formed in 64 bits. -/
theorem dureeLancement_exact {tDebut tOffsetMidnight : ℤ} (hd : tDebut < 86400)
    (h0 : 0 ≤ tOffsetMidnight) (hlt : tOffsetMidnight < tDebut) :
    (CTimer.tv 32 (dureeLancement 32 tDebut tOffsetMidnight)).EstExact
      (tDebut - tOffsetMidnight) := by
  obtain ⟨n, hn⟩ := Int.eq_ofNat_of_zero_le (Int.sub_nonneg.mpr (Int.le_of_lt hlt))
  have hduree : dureeLancement 32 tDebut tOffsetMidnight = n * 1000000 := by
    rw [dureeLancement, hn, entier_eq (by omega) (by omega), uint64_eq (by omega) (by omega),
      microSec_eq]
    omega
  rw [hduree, hn]
  exact estExact_produit (by omega)

theorem entier_reste (x : ℤ) :
    -2147483648 ≤ entier 32 x ∧ entier 32 x < 2147483648 ∧
      ∃ k, entier 32 x = x - 4294967296 * k :=
  ⟨Int.le_bmod (by decide), Int.bmod_lt (by decide), Int.bdiv x (2 ^ 32),
    Int.bmod_eq_self_sub_mul_bdiv _ _⟩

theorem uint64_neg {v : ℤ} (h : v < 0) (hlo : -2147483648 ≤ v) :
    (uint64 v : ℤ) = 18446744073709551616 + v := by
  rw [uint64, Int.toNat_of_nonneg (Int.emod_nonneg _ (by decide))]
  omega

/-- The product by `MICRO_SEC` of the seconds of at most one day survives the 32
bits, the extension of its sign to 64 bits and the split if and only if it is
below `2 ^ 31`. -/
theorem produit_exact_iff {n : ℤ} (h0 : 0 < n) (h1 : n ≤ 86400) :
    (CTimer.tv 32 (uint64 (entier 32 (n * 1000000)))).EstExact n ↔ n ≤ 2147 := by
  constructor
  · intro h
    by_contra hgt
    obtain ⟨hsec, husec⟩ := (estExact_iff _ _).mp h
    rw [tvUsec_tv] at husec
    -- the product wraps: `v` is what is left of it in 32 bits
    obtain ⟨hlo, hhi, k, hk⟩ := entier_reste (n * 1000000)
    by_cases hv : 0 ≤ entier 32 (n * 1000000)
    · -- a positive remainder is a smaller number of seconds
      rw [uint64_eq hv (by omega), tvSec_tv (by omega)] at hsec
      omega
    · -- a negative one is no whole number of seconds in 64 bits
      have hu := uint64_neg (Int.not_le.mp hv) hlo
      omega
  · intro hle
    obtain ⟨m, rfl⟩ := Int.eq_ofNat_of_zero_le (Int.le_of_lt h0)
    have hent : entier 32 (m * 1000000) = (m * 1000000 : ℕ) := by
      rw [entier_eq] <;> omega
    rw [hent, uint64_eq (by omega) (by omega), Int.toNat_natCast]
    exact estExact_produit (by omega)

/-- The stop timer's delay, when neither difference wraps. -/
theorem dureeArret_eq {tDebut tPeriod tOffsetMidnight : ℤ} (hp : 0 < tPeriod)
    (hp' : tPeriod ≤ 86400) (hd : 0 ≤ tDebut) (hn : tDebut ≤ tOffsetMidnight)
    (hn' : tOffsetMidnight < 86400) :
    dureeArret 32 tDebut tPeriod tOffsetMidnight =
      uint64 (entier 32 ((tDebut + tPeriod - tOffsetMidnight) * 1000000)) := by
  have hecart : entier 32 (tOffsetMidnight - tDebut) = tOffsetMidnight - tDebut :=
    entier_eq (by omega) (by omega)
  have hreste : entier 32 (tPeriod - (tOffsetMidnight - tDebut)) =
      tDebut + tPeriod - tOffsetMidnight := by
    rw [entier_eq] <;> omega
  rw [dureeArret, hecart, hreste, microSec_eq]
  rfl

/-- The delay of every stop timer that a launch can arm is exact, as the
launcher's is, if and only if at most 2147 seconds of the window are left. -/
theorem delais_exacts_iff {tDebut tPeriod now : ℤ} (hd : 0 ≤ tDebut) (hd' : tDebut < 86400)
    (hp : 0 < tPeriod) (hp' : tPeriod ≤ 86400) (hn : tDebut ≤ now) (hn' : now < 86400)
    (hfin : now < tDebut + tPeriod) :
    ((CTimer.tv 32 (dureeArret 32 tDebut tPeriod now)).EstExact (tDebut + tPeriod - now) ∧
      ∀ o, 0 ≤ o → o < tDebut →
        (CTimer.tv 32 (dureeLancement 32 tDebut o)).EstExact (tDebut - o)) ↔
      tDebut + tPeriod - now ≤ 2147 := by
  rw [dureeArret_eq hp hp' hd hn hn', produit_exact_iff (by omega) (by omega)]
  exact and_iff_left fun o h0 hlt => dureeLancement_exact hd' h0 hlt

/-- A window of half an hour launched at its beginning. -/
theorem delais_exacts_demi_heure :
    (CTimer.tv 32 (dureeArret 32 28800 1800 28800)).EstExact (28800 + 1800 - 28800) ∧
      ∀ o, 0 ≤ o → o < 28800 →
        (CTimer.tv 32 (dureeLancement 32 28800 o)).EstExact (28800 - o) :=
  (delais_exacts_iff (by decide) (by decide) (by decide) (by decide) (by decide) (by decide)
    (by decide)).mpr (by decide)

/-- The first plan of `sInitPlanification`, launched at its beginning: twelve
hours are asked, and what is left of them in 32 bits is 250 seconds. -/
theorem delai_arret_douze_heures :
    ¬ (CTimer.tv 32 (dureeArret 32 (8 * heure) (12 * heure) (8 * heure))).EstExact
      (12 * heure) := by
  decide

end GestAqua
