import GestAqua.Planning.Machines
import Mathlib.Tactic.Positivity
import Mathlib.Tactic.Ring

/-!
One plan, followed through the operations of the main task.

What the state holds for a plan is summarised by two instants, each present or
not: the one at which its launcher is due, and the one at which its running
instance is to be stopped. `Attend` and `Tourne` say that the timers, the
instances and the two registries agree with the summary, and the theorems of
this file compute the summary after each operation.
-/

namespace GestAqua

open TimerTache

/-! ### Durations -/

namespace Env

variable {env : Env}

theorem duree_nonneg (usec : ℕ) : 0 ≤ env.duree usec :=
  Int.ediv_nonneg (by positivity) (by simp)

theorem duree_secondes {x : ℤ} (h0 : 0 ≤ x) :
    env.duree (x.toNat * microSec) = x * env.parSeconde := by
  rw [duree, microSec_eq, Nat.cast_mul, Int.toNat_of_nonneg h0,
    show x * ((1000000 : ℕ) : ℤ) * env.parSeconde = x * env.parSeconde * ((1000000 : ℕ) : ℤ) by
      ring]
  exact Int.mul_ediv_cancel _ (by simp)

theorem uint64_secondes {x : ℤ} (h0 : 0 ≤ x) (h : x ≤ 86400) :
    uint64 (x * microSec) = x.toNat * microSec := by
  rw [uint64_eq (by simp; omega) (by simp; omega), microSec_eq, Int.toNat_mul h0 (by omega)]
  rfl

theorem usec_lancement {x : ℤ} (h0 : 0 ≤ x) (h : x ≤ 86400) :
    uint64 x * microSec % 2 ^ 64 = x.toNat * microSec := by
  rw [uint64_eq h0 (by omega), microSec_eq]
  omega

theorem usec_secondes_ne_zero {x : ℤ} (h : 0 < x) : x.toNat * microSec ≠ 0 := by
  rw [microSec_eq]
  omega

/-- A number of seconds becomes zero as microseconds in 64 bits when it is a
multiple of 2^58. -/
theorem usec_ne_zero_iff (x : ℤ) : uint64 (x * microSec) ≠ 0 ↔ x % 2 ^ 58 ≠ 0 := by
  have hcop : x * (1000000 : ℕ) % 2 ^ 64 = 64 * (x * 15625 % 2 ^ 58) := by
    rw [show x * (1000000 : ℕ) = 64 * (x * 15625) by push_cast; ring,
      show (2 : ℤ) ^ 64 = 64 * 2 ^ 58 by norm_num]
    exact Int.mul_emod_mul_of_pos _ _ (by norm_num)
  have hdvd : x * 15625 % 2 ^ 58 = 0 ↔ x % 2 ^ 58 = 0 := by
    rw [← Int.dvd_iff_emod_eq_zero, ← Int.dvd_iff_emod_eq_zero]
    exact ⟨fun h => Int.dvd_of_dvd_mul_left_of_gcd_one h (by decide +kernel),
      fun h => h.mul_right _⟩
  have hpos := Int.emod_nonneg (x * 15625) (show (2 : ℤ) ^ 58 ≠ 0 by norm_num)
  rw [uint64, microSec_eq, hcop, Ne, Ne, ← hdvd]
  generalize x * 15625 % 2 ^ 58 = y at hpos ⊢
  omega

theorem uint64_mul (x : ℤ) : uint64 x * microSec % 2 ^ 64 = uint64 (x * microSec) := by
  have h0 := Int.emod_nonneg x (show (2 : ℤ) ^ 64 ≠ 0 by norm_num)
  have h1 := Int.emod_nonneg (x * microSec) (show (2 : ℤ) ^ 64 ≠ 0 by norm_num)
  refine Int.natCast_inj.mp ?_
  rw [uint64, uint64, Int.natCast_emod, Int.natCast_mul, Int.toNat_of_nonneg h0,
    Int.toNat_of_nonneg h1, Nat.cast_pow, Nat.cast_ofNat, Int.mul_emod,
    Int.emod_emod_of_dvd _ (dvd_refl _), ← Int.mul_emod]

theorem time_add (hu : 0 < env.parSeconde) (t k : ℤ) :
    env.time (t + k * env.parSeconde) = env.time t + k := by
  rw [time, time, Int.add_mul_ediv_right _ _ (by omega)]

theorem time_mono (hu : 0 < env.parSeconde) {t t' : ℤ} (h : t ≤ t') : env.time t ≤ env.time t' :=
  Int.ediv_le_ediv (by omega) h

end Env

namespace CMainTask

variable {env : Env} {s : CMainTask}

/-- The delay of a stop timer is the time left of the window. -/
theorem delaiNonNul_iff (e : DefPlanificationProfil) :
    s.DelaiNonNul env e ↔ (e.tFin - s.tOffsetMidnight env) % 2 ^ 58 ≠ 0 := by
  have hreste : e.stPlanif.tPeriod - (s.tOffsetMidnight env - e.stPlanif.tDebut) =
      e.tFin - s.tOffsetMidnight env := by
    rw [DefPlanificationProfil.tFin]
    ring
  rw [DelaiNonNul, hreste, Env.usec_ne_zero_iff]

/-! ### The summary of a plan -/

/-- The state holds for a plan nothing, or one armed launcher, registered and due
at the given instant. -/
def Attend (n : UInt8) (s : CMainTask) : Option ℤ → Prop
  | none => s.vueLanceur n = ⟨[], none⟩
  | some x => ∃ t, s.vueLanceur n = ⟨[t], some t.adresse⟩ ∧ t.echeance = x

/-- The state holds for a profile nothing, or one running instance with one armed
stop timer, registered and due at the given instant. -/
def Tourne (p : UInt8) (s : CMainTask) : Option ℤ → Prop
  | none => s.vueArret p = ⟨[], [], none⟩
  | some x => ∃ t i q, s.vueArret p = ⟨[t], [i], some t.adresse⟩ ∧ t.echeance = x ∧
      t.timer.hObjetAttache = some (.fctStopProfil q) ∧ q.pProfil = i.adresse

theorem Attend.congr {n : UInt8} {s' : CMainTask} {x : Option ℤ} (h : s.Attend n x)
    (hv : s'.vueLanceur n = s.vueLanceur n) : s'.Attend n x := by
  cases x <;> simpa only [Attend, hv] using h

theorem Tourne.congr {p : UInt8} {s' : CMainTask} {x : Option ℤ} (h : s.Tourne p x)
    (hv : s'.vueArret p = s.vueArret p) : s'.Tourne p x := by
  cases x <;> simpa only [Tourne, hv] using h

theorem Attend.echeance {n : UInt8} {x : Option ℤ} (h : s.Attend n x) {t : TimerTache}
    (ht : t ∈ s.lanceurs n) : x = some t.echeance := by
  cases x with
  | none => simp [(vueLanceur_eq_iff.mp h).1] at ht
  | some x =>
      obtain ⟨u, hv, rfl⟩ := h
      rw [(vueLanceur_eq_iff.mp hv).1] at ht
      rw [List.mem_singleton.mp ht]

theorem Attend.mem {n : UInt8} {x : ℤ} (h : s.Attend n (some x)) :
    ∃ t ∈ s.lanceurs n, t.echeance = x := by
  obtain ⟨t, hv, rfl⟩ := h
  rw [(vueLanceur_eq_iff.mp hv).1]
  exact ⟨t, List.mem_singleton_self t, rfl⟩

theorem Attend.registre {n : UInt8} {x : Option ℤ} (h : s.Attend n x) (a : ℕ) :
    s.mLanceurProfil n = some a ↔ ∃ t ∈ s.lanceurs n, t.adresse = a := by
  cases x with
  | none =>
      obtain ⟨hlan, hreg⟩ := vueLanceur_eq_iff.mp h
      simp [hlan, hreg]
  | some x =>
      obtain ⟨t, hv, -⟩ := h
      obtain ⟨hlan, hreg⟩ := vueLanceur_eq_iff.mp hv
      simp [hlan, hreg]

theorem Tourne.registre {p : UInt8} {x : Option ℤ} (h : s.Tourne p x) (a : ℕ) :
    s.mStopProfil p = some a ↔ ∃ t ∈ s.arrets p, t.adresse = a := by
  cases x with
  | none =>
      obtain ⟨harr, -, hreg⟩ := vueArret_eq_iff.mp h
      simp [harr, hreg]
  | some x =>
      obtain ⟨t, i, q, hv, -⟩ := h
      obtain ⟨harr, -, hreg⟩ := vueArret_eq_iff.mp hv
      simp [harr, hreg]

theorem Tourne.mem {p : UInt8} {x : ℤ} (h : s.Tourne p (some x)) :
    ∃ t ∈ s.arrets p, t.echeance = x := by
  obtain ⟨t, i, q, hv, rfl, -⟩ := h
  rw [(vueArret_eq_iff.mp hv).1]
  exact ⟨t, List.mem_singleton_self t, rfl⟩

theorem Tourne.echeance {p : UInt8} {x : Option ℤ} (h : s.Tourne p x) {t : TimerTache}
    (ht : t ∈ s.arrets p) : x = some t.echeance := by
  cases x with
  | none => simp [(vueArret_eq_iff.mp h).1] at ht
  | some x =>
      obtain ⟨u, i, q, hv, rfl, -, -⟩ := h
      rw [(vueArret_eq_iff.mp hv).1] at ht
      rw [List.mem_singleton.mp ht]

/-! ### Planning -/

section Planification

variable {l : List DefPlanificationProfil} {e : DefPlanificationProfil} {x : Option ℤ}

variable (env) in
theorem vueLanceur_differe (h : BienForme s) (hl : (l.map (·.ucNumeroPlanif)).Nodup)
    (he : e ∈ l) (hn : e.ucNumeroPlanif ≠ 0)
    (hoff : s.tOffsetMidnight env < e.stPlanif.tDebut)
    (hd : e.stPlanif.tDebut - s.tOffsetMidnight env ≤ 86400) :
    ∃ t, (s.iInitPlanification env toujours (some l)).2.vueLanceur e.ucNumeroPlanif =
        ⟨t :: (s.lanceurs e.ucNumeroPlanif).filter
          (fun u => s.mLanceurProfil e.ucNumeroPlanif ≠ some u.adresse), some t.adresse⟩ ∧
      t.echeance = s.maintenant +
        (e.stPlanif.tDebut - s.tOffsetMidnight env) * env.parSeconde := by
  obtain ⟨r, -, hnow, hsame, hview⟩ := vueLanceur_iInitPlanification env h hl he
  have husec := Env.usec_lancement (by omega) hd
  have hne : uint64 (e.stPlanif.tDebut - s.tOffsetMidnight env) * microSec % 2 ^ 64 ≠ 0 := by
    rw [husec]
    exact Env.usec_secondes_ne_zero (by omega)
  have hlan : (r.remplaceLanceur e.ucNumeroPlanif).lanceurs e.ucNumeroPlanif =
      (s.lanceurs e.ucNumeroPlanif).filter
        (fun u => s.mLanceurProfil e.ucNumeroPlanif ≠ some u.adresse) := by
    obtain ⟨hlan, hreg⟩ := vueLanceur_eq_iff.mp hsame
    rw [← hlan, ← hreg]
    exact (vueLanceur_eq_iff.mp (vueLanceur_remplaceLanceur e.ucNumeroPlanif)).1
  rw [planifieEntree, if_neg hn, if_pos hoff, vueLanceur_creeLanceur _ true hne, hlan] at hview
  refine ⟨_, hview, ?_⟩
  show (r.remplaceLanceur e.ucNumeroPlanif).maintenant + env.duree _ = _
  rw [maintenant_remplaceLanceur, hnow, husec, Env.duree_secondes (by omega)]

variable (env) in
theorem vueLanceur_immediat (h : BienForme s) (hl : (l.map (·.ucNumeroPlanif)).Nodup)
    (he : e ∈ l) (hn : e.ucNumeroPlanif ≠ 0)
    (hoff : e.stPlanif.tDebut ≤ s.tOffsetMidnight env) (hfin : s.tOffsetMidnight env < e.tFin) :
    ∃ t, (s.iInitPlanification env toujours (some l)).2.vueLanceur e.ucNumeroPlanif =
        ⟨t :: s.lanceurs e.ucNumeroPlanif, some t.adresse⟩ ∧
      t.echeance = s.maintenant + env.duree 100 := by
  obtain ⟨r, -, hnow, hsame, hview⟩ := vueLanceur_iInitPlanification env h hl he
  have hbranche : e.stPlanif.tDebut + e.stPlanif.tPeriod > s.tOffsetMidnight env := hfin
  have hlan := (vueLanceur_eq_iff.mp hsame).1
  rw [planifieEntree, if_neg hn, if_neg (not_lt.mpr hoff), if_pos hbranche,
    vueLanceur_creeLanceur _ false (by omega), hlan] at hview
  refine ⟨_, hview, ?_⟩
  show r.maintenant + env.duree 100 = _
  rw [hnow]

theorem vueLanceur_rien (h : BienForme s) (hl : (l.map (·.ucNumeroPlanif)).Nodup) (he : e ∈ l)
    (hoff : e.stPlanif.tDebut ≤ s.tOffsetMidnight env) (hfin : e.tFin ≤ s.tOffsetMidnight env) :
    (s.iInitPlanification env toujours (some l)).2.vueLanceur e.ucNumeroPlanif =
      s.vueLanceur e.ucNumeroPlanif := by
  obtain ⟨r, -, -, hsame, hview⟩ := vueLanceur_iInitPlanification env h hl he
  have hbranche : ¬ e.stPlanif.tDebut + e.stPlanif.tPeriod > s.tOffsetMidnight env :=
    not_lt.mpr hfin
  have hstay : (r.planifieEntree env toujours (s.tOffsetMidnight env) e) = r := by
    rw [planifieEntree, if_neg (not_lt.mpr hoff), if_neg hbranche, ite_self]
  rw [hstay] at hview
  exact hview.trans hsame

theorem Attend.filter {n : UInt8} (hA : s.Attend n x) :
    (s.lanceurs n).filter (fun u => s.mLanceurProfil n ≠ some u.adresse) = [] := by
  cases x with
  | none => simp [(vueLanceur_eq_iff.mp hA).1]
  | some x =>
      obtain ⟨t, hv, -⟩ := hA
      obtain ⟨hlan, hreg⟩ := vueLanceur_eq_iff.mp hv
      simp [hlan, hreg]

theorem Attend.differe (h : BienForme s) (hl : (l.map (·.ucNumeroPlanif)).Nodup) (he : e ∈ l)
    (hn : e.ucNumeroPlanif ≠ 0) (hA : s.Attend e.ucNumeroPlanif x)
    (hoff : s.tOffsetMidnight env < e.stPlanif.tDebut)
    (hd : e.stPlanif.tDebut - s.tOffsetMidnight env ≤ 86400) :
    (s.iInitPlanification env toujours (some l)).2.Attend e.ucNumeroPlanif
      (some (s.maintenant +
        (e.stPlanif.tDebut - s.tOffsetMidnight env) * env.parSeconde)) := by
  obtain ⟨t, hview, hech⟩ := vueLanceur_differe env h hl he hn hoff hd
  rw [hA.filter] at hview
  exact ⟨t, hview, hech⟩

theorem Attend.immediat (h : BienForme s) (hl : (l.map (·.ucNumeroPlanif)).Nodup) (he : e ∈ l)
    (hn : e.ucNumeroPlanif ≠ 0) (hA : s.Attend e.ucNumeroPlanif none)
    (hoff : e.stPlanif.tDebut ≤ s.tOffsetMidnight env) (hfin : s.tOffsetMidnight env < e.tFin) :
    (s.iInitPlanification env toujours (some l)).2.Attend e.ucNumeroPlanif
      (some (s.maintenant + env.duree 100)) := by
  obtain ⟨t, hview, hech⟩ := vueLanceur_immediat env h hl he hn hoff hfin
  rw [(vueLanceur_eq_iff.mp hA).1] at hview
  exact ⟨t, hview, hech⟩

end Planification

/-! ### Expiries -/

theorem Attend.expire (h : BienForme s) {n : UInt8} {x : Option ℤ} (hA : s.Attend n x)
    {t : TimerTache} (ht : t ∈ s.lanceurs n) : (s.expire env toujours t).Attend n none := by
  have hview := vueLanceur_expire env h ht n
  rw [if_pos rfl] at hview
  rw [Attend, hview]
  cases x with
  | none => simp [(vueLanceur_eq_iff.mp hA).1] at ht
  | some x =>
      obtain ⟨u, hv, -⟩ := hA
      rw [(vueLanceur_eq_iff.mp hv).1] at ht ⊢
      rw [List.mem_singleton.mp ht]
      simp

variable (env) in
theorem vueLanceur_expire_of_not (h : BienForme s) {n : UInt8} {t : TimerTache}
    (ht : t ∈ s.timers) (hst : t.timer.bStarted = true) (hq : t.lanceurDe n = false) :
    (s.expire env toujours t).vueLanceur n = s.vueLanceur n := by
  cases hr : t.timer.hObjetAttache with
  | none => exact (vues_expire_none h ht hr n 0).1
  | some r =>
      cases r with
      | fctStartProfil q =>
          have hlan : t.lanceurDe q.ucNumeroPlanif = true := lanceurDe_iff.mpr ⟨hst, q, hr, rfl⟩
          rw [vueLanceur_expire env h (mem_lanceurs.mpr ⟨ht, hlan⟩) n, if_neg]
          rintro rfl
          simp [hlan] at hq
      | fctStopProfil q =>
          exact vueLanceur_expire_arret h
            (mem_arrets.mpr ⟨ht, arretDe_iff.mpr ⟨hst, q, hr, rfl⟩⟩) n

section Profils

variable {e : DefPlanificationProfil}

theorem vueArret_expire_of_not (h : BienForme s)
    (hl : (env.stPlanifProfil.map (·.ucNumeroPlanif)).Nodup) {p : UInt8} {t : TimerTache}
    (ht : t ∈ s.timers) (hst : t.timer.bStarted = true)
    (hq : ∀ e ∈ env.stPlanifProfil, e.ucNumeroProfil = p →
      t.lanceurDe e.ucNumeroPlanif = false) (hr : t.arretDe p = false) :
    (s.expire env toujours t).vueArret p = s.vueArret p := by
  cases ha : t.timer.hObjetAttache with
  | none => exact (vues_expire_none h ht ha 0 p).2
  | some r =>
      cases r with
      | fctStartProfil q =>
          have hlan := mem_lanceurs.mpr ⟨ht, lanceurDe_iff.mpr ⟨hst, q, ha, rfl⟩⟩
          by_cases hmem : ∃ e ∈ env.stPlanifProfil, e.ucNumeroPlanif = q.ucNumeroPlanif
          · obtain ⟨e, he, hn⟩ := hmem
            have hne : e.ucNumeroProfil ≠ p := by
              intro heq
              simpa [lanceurDe, ha, hn, hst] using hq e he heq
            rw [vueArret_expire_lanceur env h hl he (hn ▸ hlan), vueArret_lanceProfil_of_ne hne]
            rfl
          · simp only [not_exists, not_and] at hmem
            exact vueArret_expire_lanceur_of_notMem h hmem hlan _
      | fctStopProfil q =>
          refine vueArret_expire_arret_of_ne h ht ha fun heq => ?_
          simp [arretDe, ha, heq, hst] at hr

variable (env) in
theorem Tourne.lance (h : BienForme s)
    (hl : (env.stPlanifProfil.map (·.ucNumeroPlanif)).Nodup) (he : e ∈ env.stPlanifProfil)
    (hT : s.Tourne e.ucNumeroProfil none) {t : TimerTache}
    (ht : t ∈ s.lanceurs e.ucNumeroPlanif) (hd : 0 < e.stPlanif.tPeriod)
    (hfin : s.tOffsetMidnight env < e.tFin) (hx : e.tFin - s.tOffsetMidnight env ≤ 86400) :
    (s.expire env toujours t).Tourne e.ucNumeroProfil
      (some (s.maintenant + (e.tFin - s.tOffsetMidnight env) * env.parSeconde)) := by
  have hreste : e.stPlanif.tPeriod - (s.tOffsetMidnight env - e.stPlanif.tDebut) =
      e.tFin - s.tOffsetMidnight env := by
    rw [DefPlanificationProfil.tFin]
    ring
  have husec := Env.uint64_secondes (x := e.tFin - s.tOffsetMidnight env) (by omega) hx
  have hu : (s.effaceLanceur e.ucNumeroPlanif).DelaiNonNul env e := by
    show uint64 ((e.stPlanif.tPeriod - (s.tOffsetMidnight env - e.stPlanif.tDebut)) * microSec) ≠ 0
    rw [hreste, husec]
    exact Env.usec_secondes_ne_zero (by omega)
  have hview := vueArret_expire_lanceur env h hl he ht e.ucNumeroProfil
  rw [vueArret_lanceProfil hu (by omega)] at hview
  have hT' : (s.effaceLanceur e.ucNumeroPlanif).vueArret e.ucNumeroProfil = ⟨[], [], none⟩ := hT
  obtain ⟨harr, hact, -⟩ := vueArret_eq_iff.mp hT'
  rw [harr, hact] at hview
  refine ⟨_, _, _, hview, ?_, rfl, rfl⟩
  show s.maintenant + env.duree (uint64
    ((e.stPlanif.tPeriod - (s.tOffsetMidnight env - e.stPlanif.tDebut)) * microSec)) = _
  rw [hreste, husec, Env.duree_secondes (by omega)]

variable (env) in
theorem Tourne.expire (h : BienForme s) {p : UInt8} (hp : p ≠ 0) {x : Option ℤ}
    (hT : s.Tourne p x) {t : TimerTache} (ht : t ∈ s.arrets p) :
    (s.expire env toujours t).Tourne p none := by
  obtain ⟨hmem, harr⟩ := mem_arrets.mp ht
  obtain ⟨-, q, hq, rfl⟩ := arretDe_iff.mp harr
  rw [Tourne, vueArret_expire_arret env h hmem hq hp]
  cases x with
  | none => simp [(vueArret_eq_iff.mp hT).1] at ht
  | some x =>
      obtain ⟨u, i, q', hv, -, hq', hi⟩ := hT
      obtain ⟨harr, hact, -⟩ := vueArret_eq_iff.mp hv
      rw [harr] at ht ⊢
      rw [hact]
      obtain rfl := List.mem_singleton.mp ht
      obtain rfl : q = q' := by simpa [hq] using hq'
      simp [hi]

end Profils

end CMainTask

end GestAqua
