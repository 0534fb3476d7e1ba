import GestAqua.Planning.Phases

/-!
What `mStopProfil` says of the running profiles.

The registry has one entry per profile number, and a launch writes the entry of
its profile whatever it held. So it tracks every running instance exactly as long
as every launch finds no armed stop timer under its profile number and arms its
own.
-/

namespace GestAqua

namespace CMainTask

open TimerTache

variable {env : Env} {s s' : CMainTask}

/-- The stop registry tracks every running profile: an armed stop timer is the
value of its profile's entry, and the shutdown loop over the entries reaches
every running instance through the object attached to the timer. -/
structure ArretsSuivis (s : CMainTask) : Prop where
  registre : ∀ p, ∀ t ∈ s.arrets p, s.mStopProfil p = some t.adresse
  fermeture : ∀ i ∈ s.profils, ∃ p, ∃ t ∈ s.timers, ∃ q, s.mStopProfil p = some t.adresse ∧
    t.timer.hObjetAttache = some (.fctStopProfil q) ∧ q.pProfil = i.adresse

/-- A launch finds no armed stop timer under its profile number, and the time
left of its window is not zero in 64 bits, unless the window is empty. -/
def LancementLibre (env : Env) (s : CMainTask) : EvtLibre → Prop
  | .expire a => ∀ t ∈ s.timers, t.adresse = a → ∀ e ∈ env.stPlanifProfil,
      t.lanceurDe e.ucNumeroPlanif = true → s.arrets e.ucNumeroProfil = [] ∧
        ((e.tFin - s.tOffsetMidnight env) % 2 ^ 58 ≠ 0 ∨ e.stPlanif.tPeriod = 0)
  | _ => True

instance (env : Env) (s : CMainTask) : ∀ ev, Decidable (LancementLibre env s ev)
  | .planifie => isTrue trivial
  | .expire a => inferInstanceAs (Decidable (∀ t ∈ s.timers, t.adresse = a → _))
  | .avance _ => isTrue trivial

/-- What a run of free launches keeps: besides the registry, every running
instance has an armed stop timer of its profile. -/
structure Suivis (s : CMainTask) : Prop where
  forme : BienForme s
  zero : s.arrets 0 = []
  registre : ∀ p, ∀ t ∈ s.arrets p, s.mStopProfil p = some t.adresse
  arme : ∀ p, ∀ i ∈ s.actifs p, ∃ t ∈ s.arrets p, ∃ q,
    t.timer.hObjetAttache = some (.fctStopProfil q) ∧ q.pProfil = i.adresse

theorem Suivis.construit (t : ℤ) : Suivis (.construit t) where
  forme := .construit t
  zero := rfl
  registre := by simp [CMainTask.construit, arrets]
  arme := by simp [CMainTask.construit, actifs]

theorem Suivis.arretsSuivis (h : Suivis s) : ArretsSuivis s where
  registre := h.registre
  fermeture := by
    intro i hi
    obtain ⟨t, ht, q, hq, hadr⟩ := h.arme i.ucNumeroProfil i (mem_actifs.mpr ⟨hi, rfl⟩)
    exact ⟨i.ucNumeroProfil, t, (mem_arrets.mp ht).1, q, h.registre _ t ht, hq, hadr⟩

theorem Suivis.sauf (h : Suivis s) (hforme : BienForme s') {k : UInt8} (hk : k ≠ 0)
    (hautre : ∀ p, p ≠ k → s'.vueArret p = s.vueArret p)
    (hreg : ∀ t ∈ s'.arrets k, s'.mStopProfil k = some t.adresse)
    (harme : ∀ i ∈ s'.actifs k, ∃ t ∈ s'.arrets k, ∃ q,
      t.timer.hObjetAttache = some (.fctStopProfil q) ∧ q.pProfil = i.adresse) :
    Suivis s' := by
  have hvue := fun p hp => vueArret_eq_iff.mp (hautre p hp)
  refine ⟨hforme, (hvue 0 hk.symm).1.trans h.zero, fun p t ht => ?_, fun p i hi => ?_⟩
  · by_cases hp : p = k
    · subst hp
      exact hreg t ht
    · obtain ⟨harr, -, hmap⟩ := hvue p hp
      rw [harr] at ht
      rw [hmap]
      exact h.registre p t ht
  · by_cases hp : p = k
    · subst hp
      exact harme i hi
    · obtain ⟨harr, hact, -⟩ := hvue p hp
      rw [hact] at hi
      rw [harr]
      exact h.arme p i hi

theorem Suivis.congr (h : Suivis s) (hforme : BienForme s')
    (hv : ∀ p, s'.vueArret p = s.vueArret p) : Suivis s' := by
  obtain ⟨harr, hact, hmap⟩ := vueArret_eq_iff.mp (hv 1)
  refine h.sauf hforme (k := 1) (by decide) (fun p _ => hv p) ?_ ?_
  · rw [harr, hmap]
    exact h.registre 1
  · rw [harr, hact]
    exact h.arme 1

theorem Suivis.lance (h : Suivis s)
    (hl : (env.stPlanifProfil.map (·.ucNumeroPlanif)).Nodup)
    (hp : ∀ e ∈ env.stPlanifProfil, e.ucNumeroProfil ≠ 0) {e : DefPlanificationProfil}
    (he : e ∈ env.stPlanifProfil) {t : TimerTache} (ht : t ∈ s.lanceurs e.ucNumeroPlanif)
    (hlibre : s.arrets e.ucNumeroProfil = [])
    (hdelai : s.DelaiNonNul env e ∨ e.stPlanif.tPeriod = 0) :
    Suivis (s.expire env toujours t) := by
  let r := s.effaceLanceur e.ucNumeroPlanif
  have hview : ∀ p, (s.expire env toujours t).vueArret p =
      (r.lanceProfil env toujours e).vueArret p :=
    vueArret_expire_lanceur env h.forme hl he ht
  have hautre : ∀ p, p ≠ e.ucNumeroProfil →
      (s.expire env toujours t).vueArret p = s.vueArret p := fun p hne => by
    rw [hview, vueArret_lanceProfil_of_ne (Ne.symm hne)]
    rfl
  have hvide : s.actifs e.ucNumeroProfil = [] := by
    refine List.eq_nil_iff_forall_not_mem.mpr fun i hi => ?_
    obtain ⟨u, hu, -⟩ := h.arme _ i hi
    simp [hlibre] at hu
  have hpropre := (hview e.ucNumeroProfil).trans (vueArret_lanceProfil_eq e)
  rw [show r.arrets e.ucNumeroProfil = [] from hlibre,
    show r.actifs e.ucNumeroProfil = [] from hvide] at hpropre
  obtain ⟨harr, hact, hreg⟩ := vueArret_eq_iff.mp hpropre
  refine h.sauf (h.forme.expire t) (hp e he) hautre (fun u hu => ?_) fun i hi => ?_
  · rw [harr] at hu
    split at hu
    · obtain rfl := List.mem_singleton.mp hu
      exact hreg
    · cases hu
  · rw [hact] at hi
    split at hi
    · rename_i hd
      obtain rfl := List.mem_singleton.mp hi
      have hdelai' : r.DelaiNonNul env e := hdelai.resolve_right hd
      rw [harr, if_pos hdelai']
      exact ⟨_, List.mem_singleton_self _, _, rfl, rfl⟩
    · cases hi

/-- A stop callback removes its own instance, with its timer and its entry. -/
theorem Suivis.arrete (h : Suivis s) {p : UInt8} {t : TimerTache} (ht : t ∈ s.arrets p) :
    Suivis (s.expire env toujours t) := by
  obtain ⟨hmem, harret⟩ := mem_arrets.mp ht
  obtain ⟨-, q, hq, rfl⟩ := TimerTache.arretDe_iff.mp harret
  have hne : q.ucNumeroProfil ≠ 0 := by
    intro h0
    rw [h0, h.zero] at ht
    cases ht
  have hautre : ∀ p, p ≠ q.ucNumeroProfil →
      (s.expire env toujours t).vueArret p = s.vueArret p :=
    fun p hp => vueArret_expire_arret_of_ne h.forme hmem hq hp
  have hseul : ∀ u ∈ s.arrets q.ucNumeroProfil, u = t := by
    intro u hu
    have hadr := (h.registre _ u hu).symm.trans (h.registre _ t ht)
    exact h.forme.adresse_inj u (mem_arrets.mp hu).1 t hmem (Option.some.inj hadr)
  have hpropre := vueArret_expire_arret env h.forme hmem hq hne
  have harr : (s.expire env toujours t).arrets q.ucNumeroProfil = [] := by
    rw [(vueArret_eq_iff.mp hpropre).1, List.filter_eq_nil_iff]
    intro u hu
    simp [hseul u hu]
  have hact : (s.expire env toujours t).actifs q.ucNumeroProfil = [] := by
    rw [(vueArret_eq_iff.mp hpropre).2.1, List.filter_eq_nil_iff]
    intro i hi
    obtain ⟨u, hu, q', hq', hadr⟩ := h.arme _ i hi
    rw [hseul u hu, hq] at hq'
    cases hq'
    simp [hadr]
  exact h.sauf (h.forme.expire t) hne hautre (by simp [harr]) (by simp [hact])

theorem Suivis.step (hl : (env.stPlanifProfil.map (·.ucNumeroPlanif)).Nodup)
    (hp : ∀ e ∈ env.stPlanifProfil, e.ucNumeroProfil ≠ 0) (h : Suivis s) {ev : EvtLibre}
    (hlibre : LancementLibre env s ev) (hs : s.stepLibre env ev = some s') : Suivis s' := by
  rcases stepLibre_cases hs with ⟨rfl, rfl⟩ | ⟨t, ht, rfl, hst, -, rfl⟩ | ⟨t, rfl, -, rfl⟩
  · exact h.congr (h.forme.iInitPlanification _) fun p => vueArret_iInitPlanification h.forme p _
  · rcases h.forme.armes ht hst with ⟨n, hlan⟩ | ⟨p, harr⟩
    · have hmem := mem_lanceurs.mpr ⟨ht, hlan⟩
      by_cases hn : ∃ e ∈ env.stPlanifProfil, e.ucNumeroPlanif = n
      · obtain ⟨e, he, rfl⟩ := hn
        obtain ⟨hvide, hdelai⟩ := hlibre t ht rfl e he hlan
        exact h.lance hl hp he hmem hvide (hdelai.imp_left (delaiNonNul_iff e).mpr)
      · simp only [not_exists, not_and] at hn
        exact h.congr (h.forme.expire t) (vueArret_expire_lanceur_of_notMem h.forme hn hmem)
    · exact h.arrete (mem_arrets.mpr ⟨ht, harr⟩)
  · exact h.congr { h.forme with } fun p => rfl

/-- The attached objects after a launch are those before and the new one. -/
theorem attache_expire_lanceur (h : BienForme s)
    (hl : (env.stPlanifProfil.map (·.ucNumeroPlanif)).Nodup) {e : DefPlanificationProfil}
    (he : e ∈ env.stPlanifProfil) {t : TimerTache} (ht : t ∈ s.lanceurs e.ucNumeroPlanif)
    {u : TimerTache} (hu : u ∈ (s.expire env toujours t).timers) {r : Rappel}
    (hr : u.timer.hObjetAttache = some r) :
    ∃ v ∈ ((s.effaceLanceur e.ucNumeroPlanif).lanceProfil env toujours e).timers,
      v.timer.hObjetAttache = some r := by
  obtain ⟨hmem, hlan⟩ := mem_lanceurs.mp ht
  obtain ⟨-, q, hq, hn⟩ := TimerTache.lanceurDe_iff.mp hlan
  have htimers : (s.rappelle env toujours t.timer.hObjetAttache).timers =
      ((s.effaceLanceur e.ucNumeroPlanif).lanceProfil env toujours e).timers := by
    rw [hq]
    show (s.iStartProfil env toujours q.ucNumeroPlanif).2.timers = _
    rw [hn, iStartProfil_eq hl he (hn ▸ h.planif_ne_zero t hmem q hq)]
  rw [← htimers]
  rcases TimerTache.mem_surAdresse.mp hu with ⟨hu, -⟩ | ⟨v, hv, -, hfini⟩
  · exact ⟨u, hu, hr⟩
  · exact ⟨v, hv, (TimerTache.garde_fini v u hfini).2.2 r hr⟩

/-- A launch that finds an armed stop timer takes its entry, and a launch without
a stop timer starts an instance that no entry leads to. -/
theorem Suivis.not_arretsSuivis (hl : (env.stPlanifProfil.map (·.ucNumeroPlanif)).Nodup)
    (h : Suivis s) {ev : EvtLibre} (hlibre : ¬ LancementLibre env s ev)
    (hs : s.stepLibre env ev = some s') : ¬ ArretsSuivis s' := by
  rcases stepLibre_cases hs with ⟨rfl, -⟩ | ⟨t', ht', rfl, -, -, rfl⟩ | ⟨t, rfl, -⟩
  · exact absurd trivial hlibre
  · simp only [LancementLibre, not_forall] at hlibre
    obtain ⟨t, ht, hadr, e, he, hlan, hkey⟩ := hlibre
    obtain rfl := h.forme.adresse_inj t ht t' ht' hadr
    have hmem := mem_lanceurs.mpr ⟨ht, hlan⟩
    have hview := (vueArret_expire_lanceur env h.forme hl he hmem
      e.ucNumeroProfil).trans (vueArret_lanceProfil_eq e)
    obtain ⟨harr, hact, hreg⟩ := vueArret_eq_iff.mp hview
    intro hsuivis
    by_cases hvide : s.arrets e.ucNumeroProfil = []
    · -- the new instance runs, but its timer has no attached object
      have hdelai : ¬ s.DelaiNonNul env e := fun hd =>
        hkey ⟨hvide, .inl ((delaiNonNul_iff e).mp hd)⟩
      have hperiode : e.stPlanif.tPeriod ≠ 0 := fun hd => hkey ⟨hvide, .inr hd⟩
      rw [if_pos hperiode] at hact
      have hnouveau : (s.effaceLanceur e.ucNumeroPlanif).nouveauProfil e ∈
          (s.expire env toujours t).profils :=
        (mem_actifs.mp (hact ▸ List.mem_cons_self)).1
      obtain ⟨p, u, hu, q, -, hq, hpro⟩ := hsuivis.fermeture _ hnouveau
      obtain ⟨v, hv, hvq⟩ := attache_expire_lanceur h.forme hl he hmem hu hq
      have hdelai' : ¬ (s.effaceLanceur e.ucNumeroPlanif).DelaiNonNul env e := hdelai
      rw [timers_lanceProfil_zero e hdelai'] at hv
      rcases List.mem_cons.mp hv with rfl | hv
      · cases hvq
      · have hlt := (h.forme.arret v hv q hvq).2.1
        have heq : q.pProfil = s.suivant := hpro
        omega
    · -- the old timer is still armed, and no longer registered
      obtain ⟨u, hu⟩ := List.exists_mem_of_ne_nil _ hvide
      have hstill : u ∈ (s.expire env toujours t).arrets e.ucNumeroProfil := by
        rw [harr]
        split
        · exact List.mem_cons_of_mem _ hu
        · exact hu
      have hnew := (hsuivis.registre _ u hstill).symm.trans hreg
      have hlt := h.forme.adresse_lt u (mem_arrets.mp hu).1
      have heq : u.adresse = s.suivant + 2 := Option.some.inj hnew
      omega
  · exact absurd trivial hlibre

/-- In a run from an empty state the stop registry tracks every running profile
in every state if and only if every launch finds its profile number free and a
window that is not over. -/
theorem arretsSuivis_iff (env : Env) (t0 : ℤ)
    (hl : (env.stPlanifProfil.map (·.ucNumeroPlanif)).Nodup)
    (hp : ∀ e ∈ env.stPlanifProfil, e.ucNumeroProfil ≠ 0) (es : List EvtLibre) (s : CMainTask)
    (h : Execution.exec (stepLibre env) (.construit t0) es = some s) :
    Execution.Always (stepLibre env) ArretsSuivis (.construit t0) es ↔
      Execution.Meets (stepLibre env) (LancementLibre env) (.construit t0) es :=
  Execution.always_iff_meets (I := Suivis) (fun _ h => h.arretsSuivis)
    (fun _ _ _ h hlibre hs => h.step hl hp hlibre hs)
    (fun _ _ _ h hlibre hs => h.not_arretsSuivis hl hlibre hs) (.construit t0) h

/-- Two plans of one profile, one after the other: the registry follows. -/
theorem arretsSuivis_successifs :
    Execution.Always (stepLibre (.zoneFixe 1 0 [.planifie 1 1 0 50, .planifie 2 1 60 50]))
      ArretsSuivis (.construit 0)
      [.planifie, .expire 2, .avance 50, .expire 7, .avance 60, .expire 4] :=
  (arretsSuivis_iff (.zoneFixe 1 0 [.planifie 1 1 0 50, .planifie 2 1 60 50]) 0 (by decide)
    (by decide) _ _ (Option.some_get (by decide)).symm).mpr (by decide)

/-- Two plans of one profile that overlap: the second launch takes the entry of
the first, the first stop removes the entry of the second, and the second stop
erases `end()`. -/
theorem arret_perdu_chevauchement :
    ¬ ArretsSuivis ((Execution.exec
        (stepLibre (.zoneFixe 1 0 [.planifie 1 1 0 100, .planifie 2 1 50 100])) (.construit 0)
        [.planifie, .expire 2, .avance 50, .expire 4]).get (by decide)) ∧
      (Execution.exec
        (stepLibre (.zoneFixe 1 0 [.planifie 1 1 0 100, .planifie 2 1 50 100])) (.construit 0)
        [.planifie, .expire 2, .avance 50, .expire 4, .avance 100, .expire 7, .avance 150,
          .expire 10]).map (·.effaceFin) = some true := by
  refine ⟨fun h => ?_, by decide⟩
  have hperdu := h.registre 1 (arme (.zoneFixe 1 0 []) 7 false 0 100000000
    (.fctStopProfil ⟨6, 1, 5⟩)) (by decide)
  exact absurd hperdu (by decide)

end CMainTask

end GestAqua
