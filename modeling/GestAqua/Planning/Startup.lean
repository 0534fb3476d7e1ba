import GestAqua.Planning.Phases

/-!
Planning at start-up.

`iInitPlanification` compares the offset of the day with the two ends of each
window, the second one unreduced. The decision it takes is compared here with the
one that a daily window asks for, which recurs every 86400 seconds.
-/

namespace GestAqua

/-- What a planning does for a plan: a launch at once, a launcher for so many
seconds later, or nothing. -/
inductive Decision
  | immediat
  | differe (secondes : ℤ)
  | rien
  deriving DecidableEq, Repr

namespace DefPlanificationProfil

/-- A window of less than a day under a plan number, which may run past
midnight. -/
structure FenetreValide (e : DefPlanificationProfil) : Prop where
  planif_ne_zero : e.ucNumeroPlanif ≠ 0
  debut_nonneg : 0 ≤ e.stPlanif.tDebut
  debut_lt : e.stPlanif.tDebut < 86400
  periode_pos : 0 < e.stPlanif.tPeriod
  periode_lt : e.stPlanif.tPeriod < 86400

/-- The window, recurring every day, contains the time of day. -/
def DansFenetre (t : ℤ) (e : DefPlanificationProfil) : Prop :=
  (t - e.stPlanif.tDebut) % 86400 < e.stPlanif.tPeriod

instance (t : ℤ) (e : DefPlanificationProfil) : Decidable (e.DansFenetre t) :=
  inferInstanceAs (Decidable (_ < _))

/-- The decision that the recurring window asks for at a time of day. -/
def decisionVoulue (t : ℤ) (e : DefPlanificationProfil) : Decision :=
  if e.DansFenetre t then .immediat
  else if t < e.stPlanif.tDebut then .differe (e.stPlanif.tDebut - t)
  else .rien

/-- The decision of the two comparisons of the source. -/
def decisionPrise (t : ℤ) (e : DefPlanificationProfil) : Decision :=
  if t < e.stPlanif.tDebut then .differe (e.stPlanif.tDebut - t)
  else if t < e.tFin then .immediat
  else .rien

/-- The two decisions differ in the part of the window that lies after midnight:
there the comparison with the beginning of the window comes first. -/
theorem decisionPrise_eq_iff {t : ℤ} {e : DefPlanificationProfil} (he : e.FenetreValide)
    (h0 : 0 ≤ t) (h1 : t < 86400) :
    e.decisionPrise t = e.decisionVoulue t ↔ e.tFin - 86400 ≤ t := by
  obtain ⟨-, hd, hd', hp, hp'⟩ := he
  by_cases ht : t < e.stPlanif.tDebut
  · -- before the beginning, the window can only be the one of the day before
    have hdans : e.DansFenetre t ↔ t < e.tFin - 86400 := by
      rw [DansFenetre, tFin]
      omega
    simp only [decisionPrise, decisionVoulue, if_pos ht, hdans]
    by_cases hveille : t < e.tFin - 86400
    · simp [hveille, not_le.mpr hveille]
    · simp [hveille, not_lt.mp hveille]
  · have hdans : e.DansFenetre t ↔ t < e.tFin := by
      rw [DansFenetre, tFin]
      omega
    have hjour : e.tFin - 86400 ≤ t := by
      rw [tFin]
      omega
    simp only [decisionPrise, decisionVoulue, if_neg ht, hdans, hjour]

end DefPlanificationProfil

namespace CMainTask

variable {env : Env} {s : CMainTask}

/-- What a planning has left in the state for a plan, as a decision: one armed
launcher, entered in `mLanceurProfil`, with the delay of the decision; or no
launcher and no entry. -/
def Prise (n : UInt8) (s : CMainTask) : Decision → Prop
  | .immediat => ∃ t, s.vueLanceur n = ⟨[t], some t.adresse⟩ ∧ t.timer.ui64TpsUsec = 100
  | .differe x => ∃ t, s.vueLanceur n = ⟨[t], some t.adresse⟩ ∧
      (t.timer.ui64TpsUsec : ℤ) = x * microSec
  | .rien => s.vueLanceur n = ⟨[], none⟩

theorem prise_immediat_iff {n : UInt8} {t : TimerTache}
    (hv : s.vueLanceur n = ⟨[t], some t.adresse⟩) :
    s.Prise n .immediat ↔ t.timer.ui64TpsUsec = 100 := by
  simp [Prise, hv]

theorem prise_differe_iff {n : UInt8} {t : TimerTache} {x : ℤ}
    (hv : s.vueLanceur n = ⟨[t], some t.adresse⟩) :
    s.Prise n (.differe x) ↔ (t.timer.ui64TpsUsec : ℤ) = x * microSec := by
  simp [Prise, hv]

theorem Prise.unique {n : UInt8} {d d' : Decision} (h : s.Prise n d) (h' : s.Prise n d') :
    d = d' := by
  cases d with
  | rien => cases d' <;> simp_all [Prise]
  | immediat =>
      obtain ⟨t, hv, ht⟩ := h
      cases d' with
      | rien => simp_all [Prise]
      | immediat => rfl
      | differe y =>
          rw [prise_differe_iff hv, microSec_eq] at h'
          omega
  | differe x =>
      obtain ⟨t, hv, ht⟩ := h
      rw [microSec_eq] at ht
      cases d' with
      | rien => simp_all [Prise]
      | immediat =>
          rw [prise_immediat_iff hv] at h'
          omega
      | differe y =>
          rw [prise_differe_iff hv, microSec_eq] at h'
          rw [show x = y by omega]

variable (env) in
/-- The loop takes, for each plan that has no launcher yet, the decision of the
two comparisons. -/
theorem prise_iInitPlanification (h : BienForme s) {l : List DefPlanificationProfil}
    (hl : (l.map (·.ucNumeroPlanif)).Nodup) {e : DefPlanificationProfil} (he : e ∈ l)
    (hv : e.FenetreValide) (hvide : s.vueLanceur e.ucNumeroPlanif = ⟨[], none⟩) :
    (s.iInitPlanification env toujours (some l)).2.Prise e.ucNumeroPlanif
      (e.decisionPrise (s.tOffsetMidnight env)) := by
  obtain ⟨r, -, -, hsame, hview⟩ := vueLanceur_iInitPlanification env h hl he
  have h0 := tGetOffsetFromMidnight_nonneg env.zone (env.time s.maintenant)
  rw [← tOffsetMidnight] at h0
  rw [hvide] at hsame
  obtain ⟨hlan, hreg⟩ := vueLanceur_eq_iff.mp hsame
  rw [planifieEntree, if_neg hv.planif_ne_zero] at hview
  rw [DefPlanificationProfil.decisionPrise]
  have hd := hv.debut_lt
  by_cases ht : s.tOffsetMidnight env < e.stPlanif.tDebut
  · have husec := Env.usec_lancement (x := e.stPlanif.tDebut - s.tOffsetMidnight env)
      (by omega) (by omega)
    have hremplace : r.remplaceLanceur e.ucNumeroPlanif = r := by
      simp [remplaceLanceur, hreg]
    rw [if_pos ht, hremplace, husec,
      vueLanceur_creeLanceur _ _ (by rw [microSec_eq]; omega), hlan] at hview
    rw [if_pos ht]
    refine ⟨_, hview, ?_⟩
    simp only [nouveauLanceur, TimerTache.arme]
    rw [Nat.cast_mul, Int.toNat_of_nonneg (by omega)]
  · rw [if_neg ht] at hview ⊢
    by_cases hf : s.tOffsetMidnight env < e.tFin
    · rw [if_pos (show e.stPlanif.tDebut + e.stPlanif.tPeriod > s.tOffsetMidnight env from hf),
        vueLanceur_creeLanceur _ _ (by decide), hlan] at hview
      rw [if_pos hf]
      exact ⟨_, hview, rfl⟩
    · rw [if_neg (show ¬ e.stPlanif.tDebut + e.stPlanif.tPeriod > s.tOffsetMidnight env from hf)]
        at hview
      rw [if_neg hf]
      exact hview.trans hsame

variable (env) in
/-- At start-up every plan gets the decision that its daily window asks for if
and only if the task does not start in the part of a window that lies after
midnight. -/
theorem decisions_justes_iff (maintenant : ℤ) {l : List DefPlanificationProfil}
    (hl : (l.map (·.ucNumeroPlanif)).Nodup) (hv : ∀ e ∈ l, e.FenetreValide) :
    (∀ e ∈ l,
      ((construit maintenant).iInitPlanification env toujours (some l)).2.Prise e.ucNumeroPlanif
        (e.decisionVoulue ((construit maintenant).tOffsetMidnight env))) ↔
      ∀ e ∈ l, e.tFin - 86400 ≤ (construit maintenant).tOffsetMidnight env := by
  refine forall₂_congr fun e he => ?_
  have hprise : ((construit maintenant).iInitPlanification env toujours (some l)).2.Prise
      e.ucNumeroPlanif (e.decisionPrise ((construit maintenant).tOffsetMidnight env)) :=
    prise_iInitPlanification env (.construit maintenant) hl he (hv e he) rfl
  have hjuste := DefPlanificationProfil.decisionPrise_eq_iff (hv e he)
    (tGetOffsetFromMidnight_nonneg env.zone (env.time maintenant))
    (tGetOffsetFromMidnight_lt env.zone (env.time maintenant))
  refine Iff.trans ?_ hjuste
  constructor
  · exact fun h => hprise.unique h
  · intro heq
    exact heq ▸ hprise

theorem fenetreValide_sInitPlanification : ∀ e ∈ sInitPlanification, e.FenetreValide := by
  simp only [sInitPlanification, List.forall_mem_cons]
  exact ⟨⟨by decide, by decide, by decide, by decide, by decide⟩,
    ⟨by decide, by decide, by decide, by decide, by decide⟩, by simp⟩

/-- The shipped table, at ten in the morning: the first plan is launched at once,
the second one in ten hours. -/
theorem decisions_justes_dix_heures :
    ((construit 36000).iInitPlanification (.zoneFixe 1 0 sInitPlanification) toujours
        (some sInitPlanification)).2.Prise 1 .immediat ∧
      ((construit 36000).iInitPlanification (.zoneFixe 1 0 sInitPlanification) toujours
        (some sInitPlanification)).2.Prise 2 (.differe 36000) := by
  have h := (decisions_justes_iff (.zoneFixe 1 0 sInitPlanification) 36000 (by decide)
    fenetreValide_sInitPlanification).mpr (by decide)
  have h1 := h (.planifie 1 1 (8 * heure) (12 * heure)) (by decide)
  have h2 := h (.planifie 2 2 (20 * heure) (12 * heure)) (by decide)
  rw [show DefPlanificationProfil.decisionVoulue _ _ = .immediat by decide] at h1
  rw [show DefPlanificationProfil.decisionVoulue _ _ = .differe 36000 by decide] at h2
  exact ⟨h1, h2⟩

/-- A task that starts at two in the morning is in the second window of the
shipped table, which lasts from twenty hours to eight: the launcher that it arms
waits until the evening. -/
theorem decision_fausse_deux_heures :
    ¬ ∀ e ∈ sInitPlanification,
      ((construit 7200).iInitPlanification (.zoneFixe 1 0 sInitPlanification) toujours
          (some sInitPlanification)).2.Prise e.ucNumeroPlanif
        (e.decisionVoulue ((construit 7200).tOffsetMidnight (.zoneFixe 1 0 sInitPlanification))) := by
  intro h
  have he : DefPlanificationProfil.planifie 2 2 (20 * heure) (12 * heure) ∈ sInitPlanification := by
    decide
  have hprise := prise_iInitPlanification (.zoneFixe 1 0 sInitPlanification) (.construit 7200)
    (by decide) he
    (fenetreValide_sInitPlanification _ he) rfl
  exact absurd ((h _ he).unique hprise) (by decide)

end CMainTask

end GestAqua
