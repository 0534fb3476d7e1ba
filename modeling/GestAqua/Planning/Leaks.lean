import GestAqua.Planning.Ledger
import GestAqua.Planning.Progress
import GestAqua.Planning.Schedule

/-!
What a run leaves on the heap.

A stop timer is not auto-delete, and when its thread has ended nothing deletes it. So each
window of a plan leaves one `CTimer` behind, with its pipe and with a thread that nobody
joins: a program that runs long enough has no descriptors left.
-/

namespace GestAqua

namespace TimerTache

/-- A stop timer of a profile whose thread has ended. -/
def ArretMort (p : UInt8) (t : TimerTache) : Prop :=
  t.timer.bStarted = false ∧
    ∃ q, t.timer.hObjetAttache = some (.fctStopProfil q) ∧ q.ucNumeroProfil = p

instance (p : UInt8) (t : TimerTache) : Decidable (ArretMort p t) :=
  match h : t.timer.hObjetAttache with
  | some (.fctStopProfil q) =>
    decidable_of_iff (t.timer.bStarted = false ∧ q.ucNumeroProfil = p) (by simp [ArretMort, h])
  | some (.fctStartProfil q) => isFalse (by simp [ArretMort, h])
  | none => isFalse (by simp [ArretMort, h])

end TimerTache

namespace CMainTask

open TimerTache

variable {env : Env} {s s' : CMainTask} {u : TimerTache}

/-! ### A timer that has ended stays -/

theorem Perdu.planifieEntree (h : Perdu u s) (hforme : BienForme s) (off : ℤ)
    (e : DefPlanificationProfil) : Perdu u (s.planifieEntree env toujours off e) := by
  have hforme' := hforme.remplaceLanceur e.ucNumeroPlanif
  unfold CMainTask.planifieEntree
  split
  · exact h
  · split
    · exact (h.remplaceLanceur _).creeLanceur hforme' _ _ _
    · split
      · exact h.creeLanceur hforme _ _ _
      · exact h

theorem Perdu.iInitPlanification (h : Perdu u s) (hforme : BienForme s)
    (l : List DefPlanificationProfil) :
    Perdu u (s.iInitPlanification env toujours (some l)).2 := by
  let I : CMainTask → Prop := fun r => BienForme r ∧ Perdu u r
  have hentree : ∀ r, ∀ e ∈ l, I r →
      I (r.planifieEntree env toujours (s.tOffsetMidnight env) e) :=
    fun r e _ ⟨hr, hu⟩ => ⟨hr.planifieEntree _ e, hu.planifieEntree hr _ e⟩
  exact (Folds.foldl_invariant hentree ⟨hforme, h⟩).2

variable (env) in
theorem Perdu.testeJour (h : Perdu u s) (hforme : BienForme s) :
    Perdu u (s.testeJour env toujours) := by
  unfold CMainTask.testeJour
  dsimp only
  split
  · have hjour : Perdu u { s with sLastDay := env.tmYday (env.time s.maintenant / 86400) } := h
    exact hjour.iInitPlanification (hforme.jour _) _
  · exact h

variable (env) in
theorem mem_timers_expire {t : TimerTache} (hforme : BienForme s) (ht : t ∈ s.timers)
    (hu : u ∈ s.timers) (hne : u ≠ t) : u ∈ (s.expire env toujours t).timers :=
  mem_surAdresse.mpr (.inl ⟨mem_timers_rappelle env hu t.timer.hObjetAttache,
    fun hadr => hne (hforme.adresse_inj u hu t ht hadr)⟩)

/-! ### Stop timers are not auto-delete -/

def ArretsGardes (s : CMainTask) : Prop :=
  ∀ t ∈ s.timers, ∀ q, t.timer.hObjetAttache = some (.fctStopProfil q) → t.cAutoDelete = false

theorem ArretsGardes.surAdresse (h : ArretsGardes s) {f : TimerTache → Option TimerTache}
    (hf : Garde f) (hauto : ∀ t t', f t = some t' → t'.cAutoDelete = t.cAutoDelete) (a : ℕ)
    (hs : s'.timers = surAdresse a f s.timers) : ArretsGardes s' := by
  intro t' ht' q hq
  rw [hs] at ht'
  rcases mem_surAdresse.mp ht' with ⟨ht', -⟩ | ⟨t, ht, -, htt'⟩
  · exact h t' ht' q hq
  · rw [hauto t t' htt']
    exact h t ht q ((hf t t' htt').2.2 _ hq)

theorem ArretsGardes.creeLanceur (h : ArretsGardes s) (n : UInt8) (auto : Bool) (usec : ℕ) :
    ArretsGardes (s.creeLanceur env toujours n auto usec) := by
  refine List.forall_mem_cons.mpr ⟨fun q hq => ?_, h⟩
  cases start_nouveau_attache hq

theorem ArretsGardes.lanceProfil (h : ArretsGardes s) (e : DefPlanificationProfil) :
    ArretsGardes (s.lanceProfil env toujours e) := by
  refine List.forall_mem_cons.mpr ⟨fun q _ => ?_, h⟩
  unfold start
  split <;> rfl

theorem ArretsGardes.planifieEntree (h : ArretsGardes s) (off : ℤ)
    (e : DefPlanificationProfil) : ArretsGardes (s.planifieEntree env toujours off e) := by
  have hremplace : ArretsGardes (s.remplaceLanceur e.ucNumeroPlanif) := by
    unfold remplaceLanceur
    split
    · exact h.surAdresse garde_stop (fun _ _ => stop_cAutoDelete) _ rfl
    · exact h
  unfold CMainTask.planifieEntree
  split
  · exact h
  · split
    · exact hremplace.creeLanceur _ _ _
    · split
      · exact h.creeLanceur _ _ _
      · exact h

theorem ArretsGardes.testeJour (h : ArretsGardes s) : ArretsGardes (s.testeJour env toujours) := by
  unfold CMainTask.testeJour
  dsimp only
  split
  · exact Folds.foldl_invariant (I := ArretsGardes) (fun r e _ hr => hr.planifieEntree _ e) h
  · exact h

theorem ArretsGardes.expire (h : ArretsGardes s) (t : TimerTache) :
    ArretsGardes (s.expire env toujours t) := by
  have hrappelle : ArretsGardes (s.rappelle env toujours t.timer.hObjetAttache) := by
    unfold rappelle
    split
    · show ArretsGardes (s.iStartProfil env toujours _).2
      unfold iStartProfil
      split
      · refine Folds.foldl_invariant (I := ArretsGardes) (fun r e _ hr => ?_) h
        split
        · exact hr.lanceProfil e
        · exact hr
      · exact h
    · show ArretsGardes (s.iStopProfil _ _).2
      unfold iStopProfil
      split <;> exact h
    · exact h
  exact hrappelle.surAdresse garde_fini (fun _ _ => fini_cAutoDelete) t.adresse rfl

variable (env) in
theorem arretMort_expire (h : ArretsGardes s) {p : UInt8} {t : TimerTache}
    (ht : t ∈ s.arrets p) :
    ∃ u ∈ (s.expire env toujours t).timers, u.ArretMort p ∧ u.echeance = t.echeance := by
  obtain ⟨hmem, harr⟩ := mem_arrets.mp ht
  obtain ⟨-, q, hq, hp⟩ := arretDe_iff.mp harr
  refine ⟨{ t with timer := { t.timer with bStarted := false } }, mem_surAdresse.mpr (.inr
    ⟨t, mem_timers_rappelle env hmem _, rfl, ?_⟩), ⟨rfl, q, hq, hp⟩, rfl⟩
  simp [fini, h t hmem q hq]

end CMainTask

namespace Ideal

open TimerTache

variable {env : Env} {z t0 : ℤ} {e : DefPlanificationProfil} {m m' : Ideal}

/-! ### From one step to the next -/

theorem bienForme_step (h : BienForme m.tache) {ev : EvtIdeal} (hs : m.step env ev = some m') :
    BienForme m'.tache := by
  rcases step_cases hs with ⟨-, -, rfl⟩ | ⟨t, -, -, -, -, rfl⟩ | ⟨-, -, -, rfl⟩
  · exact h.testeJour
  · exact h.expire t
  · exact { h with }

theorem mem_timers_step (hforme : BienForme m.tache) {u : TimerTache} (hu : u ∈ m.tache.timers)
    (hmort : u.timer.bStarted = false) {ev : EvtIdeal} (hs : m.step env ev = some m') :
    u ∈ m'.tache.timers := by
  rcases step_cases hs with ⟨-, -, rfl⟩ | ⟨t, ht, -, hst, -, rfl⟩ | ⟨-, -, -, rfl⟩
  · exact (CMainTask.Perdu.testeJour env ⟨hu, .inl hmort⟩ hforme).1
  · refine CMainTask.mem_timers_expire env hforme ht hu ?_
    rintro rfl
    rw [hst] at hmort
    cases hmort
  · exact hu

/-- The ends of the windows that are over since the first test have left their stop timers;
that of the last one may still be armed. -/
def Laisse (env : Env) (z t0 : ℤ) (e : DefPlanificationProfil) (m : Ideal) (F : Option ℤ) :
    Prop :=
  ∀ N, env.lecture z t0 < 86400 * N + e.tFin →
    86400 * N + e.tFin ≤ env.lecture z m.tache.maintenant →
    (∃ y, F = some y ∧ env.lecture z y = 86400 * N + e.tFin) ∨
    ∃ u ∈ m.tache.timers, u.ArretMort e.ucNumeroProfil ∧
      env.lecture z u.echeance = 86400 * N + e.tFin

/-- The end of a window that is reached by a step has its stop timer armed. -/
theorem Suivi.fin_atteinte (hu : 0 < env.parSeconde) (hv : PlanValide e)
    (hzf : z % 86400 < e.tFin) {E F : Option ℤ} (h : Suivi env z t0 e m E F) {ev : EvtIdeal}
    (hs : m.step env ev = some m') {N : ℤ} (h0 : env.lecture z t0 < 86400 * N + e.tFin)
    (hlt : env.lecture z m.tache.maintenant < 86400 * N + e.tFin)
    (hfin : 86400 * N + e.tFin ≤ env.lecture z m'.tache.maintenant) :
    ∃ y, F = some y ∧ env.lecture z y = 86400 * N + e.tFin := by
  have hf := hv.fin_le
  rcases step_cases hs with ⟨-, -, rfl⟩ | ⟨t, -, -, -, -, rfl⟩ | ⟨-, htic, hcalme, rfl⟩
  · rw [CMainTask.maintenant_testeJour] at hfin
    omega
  · rw [CMainTask.maintenant_expire] at hfin
    omega
  · have hdep : m ≠ Ideal.depart t0 := by
      rintro rfl
      exact lt_irrefl _ htic
    have hmono : env.lecture z (m.tache.maintenant + 1) ≤ env.lecture z m.prochainTic :=
      Env.lecture_mono hu z htic
    have hfin' : 86400 * N + e.tFin ≤ env.lecture z (m.tache.maintenant + 1) := hfin
    rcases h.servi.resolve_left hdep N (by omega) (.inl (by omega)) with
      ⟨x, rfl, hday⟩ | hF | hpasse
    · -- the launcher is not due, and it is before the end of its window
      obtain ⟨t, ht, rfl⟩ := h.attend.mem
      obtain ⟨hmem, hlan⟩ := CMainTask.mem_lanceurs.mp ht
      have hdue := hcalme t hmem (lanceurDe_iff.mp hlan).1
      have hle : env.lecture z (m.tache.maintenant + 1) ≤ env.lecture z t.echeance :=
        Env.lecture_mono hu z hdue
      have := (h.lanceur _ rfl).2.2.1
      omega
    · exact hF
    · omega

theorem Laisse.step (hpl : (env.stPlanifProfil.map (·.ucNumeroPlanif)).Nodup)
    (hpr : (env.stPlanifProfil.map (·.ucNumeroProfil)).Nodup) (he : e ∈ env.stPlanifProfil)
    (hu : 0 < env.parSeconde) (hv : PlanValide e) (hzf : z % 86400 < e.tFin)
    {E E' F F' : Option ℤ} (h : Suivi env z t0 e m E F) (h' : Suivi env z t0 e m' E' F')
    (hgarde : m.tache.ArretsGardes) (hl : Laisse env z t0 e m F) {ev : EvtIdeal}
    (hs : m.step env ev = some m') : Laisse env z t0 e m' F' := by
  intro N h0 hfin
  have harme : (∃ y, F = some y ∧ env.lecture z y = 86400 * N + e.tFin) →
      (∃ y, F' = some y ∧ env.lecture z y = 86400 * N + e.tFin) ∨
        ∃ u ∈ m'.tache.timers, u.ArretMort e.ucNumeroProfil ∧
          env.lecture z u.echeance = 86400 * N + e.tFin := by
    rintro ⟨y, rfl, hy⟩
    rcases h.vueArret_step hpl hpr he hu hs with hvue | ⟨t, ht, rfl, heq⟩
    · obtain ⟨t, ht, rfl⟩ := (h.tourne.congr hvue).mem
      exact .inl ⟨t.echeance, h'.tourne.echeance ht, hy⟩
    · obtain ⟨u, hmem, hmort, hech⟩ := CMainTask.arretMort_expire env hgarde ht
      exact .inr ⟨u, heq ▸ hmem, hmort, hech ▸ hy⟩
  by_cases hpasse : 86400 * N + e.tFin ≤ env.lecture z m.tache.maintenant
  · rcases hl N h0 hpasse with hF | ⟨u, hmem, hmort, hech⟩
    · exact harme hF
    · exact .inr ⟨u, mem_timers_step h.forme hmem hmort.1 hs, hmort, hech⟩
  · exact harme (h.fin_atteinte hu hv hzf hs h0 (by omega) hfin)

theorem arretsGardes_step (h : m.tache.ArretsGardes) {ev : EvtIdeal}
    (hs : m.step env ev = some m') : m'.tache.ArretsGardes := by
  rcases step_cases hs with ⟨-, -, rfl⟩ | ⟨t, -, -, -, -, rfl⟩ | ⟨-, -, -, rfl⟩
  · exact h.testeJour
  · exact h.expire t
  · exact h

/-! ### In every run -/

theorem mem_timers_exec (hforme : BienForme m.tache) {u : TimerTache} (hu : u ∈ m.tache.timers)
    (hmort : u.timer.bStarted = false) {es : List EvtIdeal}
    (hes : Execution.exec (step env) m es = some m') : u ∈ m'.tache.timers :=
  (Execution.exec_invariant (I := fun m : Ideal => BienForme m.tache ∧ u ∈ m.tache.timers)
    (fun _ _ _ hI hs => ⟨bienForme_step hI.1 hs, mem_timers_step hI.1 hI.2 hmort hs⟩)
    ⟨hforme, hu⟩ hes).2

theorem Atteint.laisse (hu : 0 < env.parSeconde) (hcal : Calendrier env)
    (hz : env.zone = .fixe z) (hpl : (env.stPlanifProfil.map (·.ucNumeroPlanif)).Nodup)
    (hpr : (env.stPlanifProfil.map (·.ucNumeroProfil)).Nodup) (he : e ∈ env.stPlanifProfil)
    (hv : PlanValide e) (hp : e.ucNumeroProfil ≠ 0) (hsd : SansDoublon env z t0 e)
    (hzf : z % 86400 < e.tFin) (hm : Atteint env t0 m) :
    ∃ E F, Suivi env z t0 e m E F ∧ Laisse env z t0 e m F := by
  let I : Ideal → Prop := fun m => ∃ E F, Suivi env z t0 e m E F ∧ m.tache.ArretsGardes ∧
    Laisse env z t0 e m F
  have hdepart : I (Ideal.depart t0) := by
    refine ⟨none, none, .depart, by simp [Ideal.depart, CMainTask.construit,
      CMainTask.ArretsGardes], fun N h0 hfin => ?_⟩
    have hfin' : 86400 * N + e.tFin ≤ env.lecture z t0 := hfin
    omega
  have hstep : ∀ m ev m', I m → m.step env ev = some m' → I m' := by
    rintro m ev m' ⟨E, F, h, hgarde, hl⟩ hs
    obtain ⟨E', F', h'⟩ := h.step_plan hu hcal hz hpl hpr he hv hp hsd hzf hs
    exact ⟨E', F', h', arretsGardes_step hgarde hs,
      hl.step hpl hpr he hu hv hzf h h' hgarde hs⟩
  obtain ⟨E, F, h, -, hl⟩ := hm.invariant hdepart hstep
  exact ⟨E, F, h, hl⟩

/-- A window ends in each of the `n` days, and leaves its own timer. -/
theorem Laisse.compte (hu : 0 < env.parSeconde) {E F : Option ℤ} (h : Suivi env z t0 e m E F)
    (hl : Laisse env z t0 e m F) {n : ℕ}
    (hn : env.lecture z t0 + 86400 * n < env.lecture z m.tache.maintenant) :
    n ≤ (m.tache.timers.filter (·.ArretMort e.ucNumeroProfil)).length := by
  have hinj : Function.Injective fun k : ℕ =>
      86400 * ((env.lecture z t0 - e.tFin) / 86400 + 1 + k) + e.tFin := by
    intro k k' hk
    simp only at hk
    omega
  refine Folds.le_length_of_keys (fun u : TimerTache => env.lecture z u.echeance) hinj
    fun k hk => ?_
  rcases hl ((env.lecture z t0 - e.tFin) / 86400 + 1 + k) (by omega) (by omega) with
    ⟨y, rfl, hy⟩ | ⟨u, hmem, hmort, hech⟩
  · -- the stop timer that is armed ends a window that is not over
    have := Env.lecture_mono hu z (h.arret y rfl).1
    omega
  · exact ⟨u, List.mem_filter.mpr ⟨hmem, decide_eq_true hmort⟩, hech⟩

/-- In every run the windows of a plan that is launched every day leave a timer a day: after
`n` days at least `n` stop timers of the profile have ended and are still allocated, and they
are never released. -/
theorem un_minuteur_par_jour (env : Env) (z t0 : ℤ) (hu : 0 < env.parSeconde)
    (hcal : Calendrier env) (hz : env.zone = .fixe z)
    (hpl : (env.stPlanifProfil.map (·.ucNumeroPlanif)).Nodup)
    (hpr : (env.stPlanifProfil.map (·.ucNumeroProfil)).Nodup) (e : DefPlanificationProfil)
    (he : e ∈ env.stPlanifProfil) (hv : PlanValide e) (hp : e.ucNumeroProfil ≠ 0)
    (hsd : SansDoublon env z t0 e) (hzf : z % 86400 < e.tFin) (m : Ideal)
    (hm : Atteint env t0 m) (n : ℕ)
    (hn : env.lecture z t0 + 86400 * n < env.lecture z m.tache.maintenant) :
    n ≤ (m.tache.timers.filter (·.ArretMort e.ucNumeroProfil)).length ∧
      ∀ es m', Execution.exec (step env) m es = some m' →
        ∀ u ∈ m.tache.timers, u.ArretMort e.ucNumeroProfil → u ∈ m'.tache.timers := by
  obtain ⟨E, F, h, hl⟩ := hm.laisse hu hcal hz hpl hpr he hv hp hsd hzf
  exact ⟨hl.compte hu h hn, fun es m' hes u hmem hmort =>
    mem_timers_exec h.forme hmem hmort.1 hes⟩

/-- The shipped table on a board whose local time is UTC: thirty timers in a month. -/
theorem un_minuteur_par_jour_un_mois : ∃ m,
    Atteint (.zoneFixe 1 0 sInitPlanification) 0 m ∧
      30 ≤ (m.tache.timers.filter (·.ArretMort 1)).length := by
  have hdepart : Atteint (.zoneFixe 1 0 sInitPlanification) 0 (depart 0) := ⟨[], rfl⟩
  obtain ⟨es, m, hes, hnow, -⟩ := hdepart.passe (by decide) 2592001
  have hm : Atteint (.zoneFixe 1 0 sInitPlanification) 0 m := ⟨es, hes⟩
  refine ⟨m, hm, (un_minuteur_par_jour (.zoneFixe 1 0 sInitPlanification) 0 0 (by decide)
    (Env.calendrier_zoneFixe _ _ _) rfl (by decide) (by decide) (.planifie 1 1 28800 43200)
    List.mem_cons_self ⟨by decide, by decide, by decide, by decide⟩ (by decide)
    (sansDoublon_utc rfl (by decide)) (by decide) m hm 30 ?_).1⟩
  rw [hnow]
  decide

end Ideal

end GestAqua
