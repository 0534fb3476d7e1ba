import GestAqua.Planning.OneInstance

/-!
The plain schedule.

What planning is for is one line: the profile of a plan runs inside its window.
When local time is UTC and the main task tests at every whole second, the timers
and the two registries refine this schedule: in every quiet state a profile has
one running instance inside its window and none outside, and in every state that
is reached the registries hold exactly the armed timers.
-/

namespace GestAqua

/-- The schedule: the profile of the plan runs at this time of day. -/
def EnFenetre (e : DefPlanificationProfil) (t : ℤ) : Prop :=
  e.stPlanif.tDebut ≤ t % 86400 ∧ t % 86400 < e.tFin

instance (e : DefPlanificationProfil) (t : ℤ) : Decidable (EnFenetre e t) :=
  inferInstanceAs (Decidable (_ ∧ _))

/-- The two registries hold the timers that are armed, each under its key, and
nothing else. -/
structure RegistresExacts (s : CMainTask) : Prop where
  lanceur : ∀ n a, s.mLanceurProfil n = some a ↔ ∃ t ∈ s.lanceurs n, t.adresse = a
  arret : ∀ p a, s.mStopProfil p = some a ↔ ∃ t ∈ s.arrets p, t.adresse = a
  armes : ∀ t ∈ s.timers, t.timer.bStarted = true →
    (∃ n, t.lanceurDe n = true) ∨ ∃ p, t.arretDe p = true

namespace Ideal

variable {env : Env} {t0 : ℤ} {m m' : Ideal}

/-! ### Numbers that are not in the table -/

theorem Atteint.forme (hm : Atteint env t0 m) : BienForme m.tache := by
  refine hm.invariant (I := fun m => BienForme m.tache) (.construit t0) fun m ev m' h hs => ?_
  rcases step_cases hs with ⟨-, -, rfl⟩ | ⟨t, -, -, -, -, rfl⟩ | ⟨-, -, -, rfl⟩
  · exact h.testeJour
  · exact h.expire t
  · exact { h with }

theorem Atteint.attend_absent (hm : Atteint env t0 m) {n : UInt8}
    (hn : ∀ e ∈ env.stPlanifProfil, e.ucNumeroPlanif ≠ n) : m.tache.Attend n none := by
  refine (hm.invariant (I := fun m => BienForme m.tache ∧ m.tache.Attend n none)
    ⟨.construit t0, rfl⟩ fun m ev m' ⟨h, hA⟩ hs => ?_).2
  rcases step_cases hs with ⟨-, -, rfl⟩ | ⟨t, ht, -, hst, -, rfl⟩ | ⟨-, -, -, rfl⟩
  · exact ⟨h.testeJour, hA.congr (CMainTask.vueLanceur_testeJour_of_notMem h hn)⟩
  · refine ⟨h.expire t, hA.congr (CMainTask.vueLanceur_expire_of_not env h ht hst ?_)⟩
    by_contra hlan
    have hmem := CMainTask.mem_lanceurs.mpr ⟨ht, by simpa using hlan⟩
    simpa using hA.echeance hmem
  · exact ⟨{ h with }, hA.congr rfl⟩

theorem Atteint.tourne_absent (hl : (env.stPlanifProfil.map (·.ucNumeroPlanif)).Nodup)
    (hm : Atteint env t0 m) {p : UInt8}
    (hp : ∀ e ∈ env.stPlanifProfil, e.ucNumeroProfil ≠ p) : m.tache.Tourne p none := by
  refine (hm.invariant (I := fun m => BienForme m.tache ∧ m.tache.Tourne p none)
    ⟨.construit t0, rfl⟩ fun m ev m' ⟨h, hT⟩ hs => ?_).2
  rcases step_cases hs with ⟨-, -, rfl⟩ | ⟨t, ht, -, hst, -, rfl⟩ | ⟨-, -, -, rfl⟩
  · exact ⟨h.testeJour, hT.congr (CMainTask.vueArret_testeJour h p)⟩
  · refine ⟨h.expire t, hT.congr (CMainTask.vueArret_expire_of_not h hl ht hst
      (fun e he heq => absurd heq (hp e he)) ?_)⟩
    by_contra harr
    have hmem := CMainTask.mem_arrets.mpr ⟨ht, by simpa using harr⟩
    simpa using hT.echeance hmem
  · exact ⟨{ h with }, hT.congr rfl⟩

/-! ### The refinement -/

/-- At a test every second in UTC no planning meets a running instance, unless a
window lasts until midnight. -/
theorem sansDoublon_utc (hu : env.parSeconde = 1) {e : DefPlanificationProfil}
    (hfin : e.tFin < 86400) : SansDoublon env 0 t0 e where
  reprise _ _ := by
    have := Int.emod_nonneg (env.lecture 0 t0) (b := 86400) (by decide)
    omega
  minuit h := absurd h.2.2 (by omega)
  seconde _ _ := by
    have := Env.duree_immediat_lt env (by omega)
    rw [hu] at this ⊢
    omega

theorem Suivi.actifs {e : DefPlanificationProfil} {E F : Option ℤ} {z : ℤ}
    (h : Suivi env z t0 e m E F) :
    (m.tache.actifs e.ucNumeroProfil).length = if F = none then 0 else 1 := by
  cases F with
  | none =>
      rw [(CMainTask.vueArret_eq_iff.mp h.tourne).2.1]
      rfl
  | some y =>
      obtain ⟨t, i, q, hv, -⟩ := h.tourne
      rw [(CMainTask.vueArret_eq_iff.mp hv).2.1]
      rfl

/-- In a quiet state of a run in UTC, the profile of a plan runs if and only if
the time is in its window. -/
theorem Suivi.calme (hu : env.parSeconde = 1) {e : DefPlanificationProfil} {E F : Option ℤ}
    (hv : PlanValide e) (hfin : e.tFin < 86400) (h : Suivi env 0 t0 e m E F)
    (hcalme : m.calme = true) : F ≠ none ↔ EnFenetre e m.tache.maintenant := by
  obtain ⟨hlt, hdue⟩ := calme_iff.mp hcalme
  have hlec : ∀ t, env.lecture 0 t = t := fun t => by simp [Env.lecture, Env.time, hu]
  have hd0 := hv.debut_nonneg
  have hdep : m ≠ Ideal.depart t0 := by
    rintro rfl
    exact lt_irrefl _ hlt
  obtain ⟨⟨k, hk⟩, hlast, -, -⟩ := h.cadence.resolve_left hdep
  rw [hu] at hk hlast
  cases F with
  | some y =>
      obtain ⟨-, N, hy, hdeb, -⟩ := h.arret y rfl
      obtain ⟨t, ht, rfl⟩ := h.tourne.mem
      obtain ⟨hmem, harr⟩ := CMainTask.mem_arrets.mp ht
      have := hdue t hmem (TimerTache.arretDe_iff.mp harr).1
      simp only [hlec] at hy hdeb
      refine ⟨fun _ => ?_, fun _ => by simp⟩
      constructor <;> omega
  | none =>
      refine ⟨fun hne => absurd rfl hne, fun hin => ?_⟩
      exfalso
      obtain ⟨h1, h2⟩ := hin
      have hserv := h.servi.resolve_left hdep (m.tache.maintenant / 86400)
      simp only [Planifie, hlec] at hserv
      rcases hserv (by omega) (.inl (by omega)) with ⟨x, rfl, hday⟩ | ⟨y, hy, -⟩ | hend
      · obtain ⟨-, -, -, hx, -⟩ := h.lanceur x rfl
        obtain ⟨t, ht, rfl⟩ := h.attend.mem
        obtain ⟨hmem, hlan⟩ := CMainTask.mem_lanceurs.mp ht
        have := hdue t hmem (TimerTache.lanceurDe_iff.mp hlan).1
        rw [hlec] at hx
        omega
      · cases hy
      · omega

/-- When local time is UTC, the timers and the registries refine the schedule. -/
theorem horaire_utc (env : Env) (t0 : ℤ) (hu : env.parSeconde = 1) (hcal : Calendrier env)
    (hz : env.zone = .fixe 0) (htab : TableValide env.stPlanifProfil)
    (hfin : ∀ e ∈ env.stPlanifProfil, e.tFin < 86400) (m : Ideal) (hm : Atteint env t0 m) :
    RegistresExacts m.tache ∧
      (m.calme = true → ∀ e ∈ env.stPlanifProfil,
        (m.tache.actifs e.ucNumeroProfil).length =
          if EnFenetre e m.tache.maintenant then 1 else 0) := by
  have hsuivi : ∀ e ∈ env.stPlanifProfil, ∃ E F, Suivi env 0 t0 e m E F := by
    intro e he
    have hzf : 0 % 86400 < e.tFin := by
      have := (htab.valide e he).debut_lt_fin
      have := (htab.valide e he).debut_nonneg
      omega
    exact hm.invariant (I := fun m => ∃ E F, Suivi env 0 t0 e m E F) ⟨none, none, .depart⟩
      fun m ev m' ⟨E, F, h⟩ hs =>
        h.step (by omega) hcal hz htab he (sansDoublon_utc hu (hfin e he)) hzf hs
  refine ⟨⟨fun n a => ?_, fun p a => ?_, fun t ht hst => hm.forme.armes ht hst⟩,
    fun hcalme e he => ?_⟩
  · by_cases hn : ∃ e ∈ env.stPlanifProfil, e.ucNumeroPlanif = n
    · obtain ⟨e, he, rfl⟩ := hn
      obtain ⟨E, F, h⟩ := hsuivi e he
      exact h.attend.registre a
    · simp only [not_exists, not_and] at hn
      exact (hm.attend_absent hn).registre a
  · by_cases hp : ∃ e ∈ env.stPlanifProfil, e.ucNumeroProfil = p
    · obtain ⟨e, he, rfl⟩ := hp
      obtain ⟨E, F, h⟩ := hsuivi e he
      exact h.tourne.registre a
    · simp only [not_exists, not_and] at hp
      exact (hm.tourne_absent htab.planifs hp).registre a
  · obtain ⟨E, F, h⟩ := hsuivi e he
    have hiff := h.calme hu (htab.valide e he) (hfin e he) hcalme
    rw [h.actifs]
    by_cases hF : F = none
    · rw [if_pos hF, if_neg (fun hin => hiff.mpr hin hF)]
    · rw [if_neg hF, if_pos (hiff.mp hF)]

/-- A window from 8 to 20, for a task that starts at 9: one instance runs. -/
theorem horaire_utc_huit_vingt :
    let r := (Execution.exec (step (.zoneFixe 1 0 [.planifie 1 1 28800 43200]))
      (depart 32400) [.tic, .expire 2]).get rfl
    RegistresExacts r.tache ∧ (r.tache.actifs 1).length = 1 :=
  have h := horaire_utc (.zoneFixe 1 0 [.planifie 1 1 28800 43200]) 32400 rfl
    (Env.calendrier_zoneFixe _ _ _) rfl
    (.seule ⟨by decide, by decide, by decide, by decide⟩ (by decide))
    (by simp [Env.zoneFixe]; decide) _ ⟨[.tic, .expire 2], (Option.some_get _).symm⟩
  ⟨h.1, h.2 (by decide) (.planifie 1 1 28800 43200) (List.mem_singleton_self _)⟩

end Ideal

end GestAqua
