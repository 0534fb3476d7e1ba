import GestAqua.Planning.Launchers

/-!
The free machine of the main task in the interleaved one.

The free machine takes a planning and a callback as one step each. They are runs of the
machine that interleaves the steps of a planning with the threads of the timers: every
thread comes to its `select` before the next operation looks at its timer, so that `Stop`
reaches it. What can happen in the free machine can therefore happen to the threads.
-/

namespace GestAqua.Course

variable {env : Env} {m m' : Course}

/-- The thread of every armed timer waits in `select`, and no address is in use before it is
allocated. -/
structure Pret (m : Course) : Prop where
  forme : BienForme m.tache
  attend : ∀ t ∈ m.tache.timers, t.timer.bStarted = true → m.phase t.adresse = .attend
  neuf : ∀ a, m.tache.suivant ≤ a → m.phase a = .cree

theorem Pret.depart (t0 : ℤ) : Pret (depart t0) where
  forme := .construit t0
  attend t ht := by cases ht
  neuf _ _ := rfl

/-! ### The threads come to `select` -/

variable (env) in
/-- The threads of some timers reach `select`, one after the other. -/
theorem debutent (hphase : ∀ t ∈ m.tache.timers, t.timer.bStarted = true →
      m.phase t.adresse = .attend ∨ m.phase t.adresse = .cree)
    (l : List TimerTache) (hl : ∀ t ∈ l, t ∈ m.tache.timers) :
    ∃ es φ, Execution.exec (step env) m es = some { m with phase := φ } ∧
      (∀ t ∈ l, t.timer.bStarted = true → φ t.adresse = .attend) ∧
      ∀ a, φ a = m.phase a ∨ φ a = .attend ∧ ∃ t ∈ l, t.adresse = a := by
  induction l with
  | nil => exact ⟨[], m.phase, rfl, by simp, fun _ => .inl rfl⟩
  | cons t l ih =>
      obtain ⟨es, φ, hes, hattend, hautre⟩ := ih fun u hu => hl u (List.mem_cons_of_mem t hu)
      have htail : ∀ a, φ a = m.phase a ∨ φ a = .attend ∧ ∃ u ∈ t :: l, u.adresse = a := fun a =>
        (hautre a).imp_right fun ⟨ha, u, hu, hadr⟩ => ⟨ha, u, List.mem_cons_of_mem t hu, hadr⟩
      by_cases hdeja : t.timer.bStarted = true → φ t.adresse = .attend
      · exact ⟨es, φ, hes, List.forall_mem_cons.mpr ⟨hdeja, hattend⟩, htail⟩
      · obtain ⟨hst, hne⟩ := Classical.not_imp.mp hdeja
        have ht := hl t List.mem_cons_self
        have hcree : φ t.adresse = .cree := by
          rcases hautre t.adresse with ha | ⟨ha, -⟩
          · rw [ha] at hne ⊢
            exact (hphase t ht hst).resolve_left hne
          · exact absurd ha hne
        obtain ⟨u, hu⟩ := Option.ne_none_iff_exists'.mp fun hnone =>
          CMainTask.enMarche_eq_none hnone ht hst rfl
        refine ⟨es ++ [.debute t.adresse], Function.update φ t.adresse .attend,
          Execution.exec_concat hes ?_, ?_, ?_⟩
        · simp [step, hcree, hu]
        · refine List.forall_mem_cons.mpr ⟨fun _ => Function.update_self _ _ _, fun u hu hstu => ?_⟩
          by_cases hadr : u.adresse = t.adresse
          · rw [hadr, Function.update_self]
          · rw [Function.update_of_ne hadr]
            exact hattend u hu hstu
        · intro a
          by_cases ha : a = t.adresse
          · rw [ha, Function.update_self]
            exact .inr ⟨rfl, t, List.mem_cons_self, rfl⟩
          · rw [Function.update_of_ne ha]
            exact htail a

variable (env) in
theorem pret_of_phase (hforme : BienForme m.tache)
    (hphase : ∀ t ∈ m.tache.timers, t.timer.bStarted = true →
      m.phase t.adresse = .attend ∨ m.phase t.adresse = .cree)
    (hneuf : ∀ a, m.tache.suivant ≤ a → m.phase a = .cree) :
    ∃ es φ, Execution.exec (step env) m es = some { m with phase := φ } ∧
      Pret { m with phase := φ } := by
  obtain ⟨es, φ, hes, hattend, hautre⟩ := debutent env hphase m.tache.timers fun _ ht => ht
  refine ⟨es, φ, hes, hforme, hattend, fun a ha => ?_⟩
  rcases hautre a with heq | ⟨-, t, ht, hadr⟩
  · exact heq.trans (hneuf a ha)
  · have hlt := hforme.adresse_lt t ht
    rw [hadr] at hlt
    exact absurd (Nat.lt_of_lt_of_le hlt ha) (Nat.lt_irrefl a)

/-! ### The operations -/

variable (env) in
theorem planifieEntree_alloue (s : CMainTask) (off : ℤ) (e : DefPlanificationProfil) :
    s.suivant ≤ (s.planifieEntree env toujours off e).suivant ∧
      ∀ u ∈ (s.planifieEntree env toujours off e).timers, u.timer.bStarted = true →
        u ∈ s.timers ∨ s.suivant ≤ u.adresse := by
  have hremplace : (s.remplaceLanceur e.ucNumeroPlanif).suivant = s.suivant ∧
      ∀ u ∈ (s.remplaceLanceur e.ucNumeroPlanif).timers, u.timer.bStarted = true →
        u ∈ s.timers := by
    unfold CMainTask.remplaceLanceur
    split
    · refine ⟨rfl, fun u hu hst => ?_⟩
      rcases TimerTache.mem_surAdresse.mp hu with ⟨hu, -⟩ | ⟨v, -, -, hv⟩
      · exact hu
      · rw [TimerTache.stop_not_started hv] at hst
        cases hst
    · exact ⟨rfl, fun u hu _ => hu⟩
  have hcree : ∀ (r : CMainTask) (auto : Bool) (usec : ℕ), r.suivant = s.suivant →
      (∀ u ∈ r.timers, u.timer.bStarted = true → u ∈ s.timers) →
      s.suivant ≤ (r.creeLanceur env toujours e.ucNumeroPlanif auto usec).suivant ∧
        ∀ u ∈ (r.creeLanceur env toujours e.ucNumeroPlanif auto usec).timers,
          u.timer.bStarted = true → u ∈ s.timers ∨ s.suivant ≤ u.adresse := by
    intro r auto usec hsuiv htimers
    refine ⟨by rw [← hsuiv]; exact Nat.le_add_right _ _, fun u hu hst => ?_⟩
    rcases List.mem_cons.mp hu with rfl | hu
    · rw [toujours_eq, TimerTache.start_nouveau_adresse, hsuiv]
      exact .inr (Nat.le_succ _)
    · exact .inl (htimers u hu hst)
  unfold CMainTask.planifieEntree
  split
  · exact ⟨Nat.le_refl _, fun u hu _ => .inl hu⟩
  · split
    · exact hcree _ _ _ hremplace.1 hremplace.2
    · split
      · exact hcree _ _ _ rfl fun u hu _ => hu
      · exact ⟨Nat.le_refl _, fun u hu _ => .inl hu⟩

variable (env) in
theorem Pret.planifieEntree (h : m.Pret) {off : ℤ} {e : DefPlanificationProfil}
    {reste : List DefPlanificationProfil} (het : m.etape = .boucle off (e :: reste)) :
    ∃ es m', Execution.exec (step env) m es = some m' ∧ m'.Pret ∧
      m'.tache = m.tache.planifieEntree env toujours off e ∧ m'.etape = .boucle off reste := by
  obtain ⟨k, hk⟩ := pas_planifieEntree env m het fun a _ hmarche => by
    obtain ⟨t, ht⟩ := Option.ne_none_iff_exists'.mp hmarche
    obtain ⟨hmem, rfl, hst⟩ := CMainTask.enMarche_eq_some ht
    exact h.attend t hmem hst
  obtain ⟨hsuiv, halloue⟩ := planifieEntree_alloue env m.tache off e
  obtain ⟨es, φ, hes, hpret⟩ := pret_of_phase env
    (m := { m with
      tache := m.tache.planifieEntree env toujours off e
      etape := .boucle off reste })
    (h.forme.planifieEntree off e)
    (fun t ht hst => (halloue t ht hst).imp (fun hold => h.attend t hold hst) (h.neuf _))
    (fun a ha => h.neuf a (Nat.le_trans hsuiv ha))
  exact ⟨_, _, Execution.exec_append_eq_some.mpr ⟨_, hk, hes⟩, hpret, rfl, rfl⟩

variable (env) in
theorem Pret.boucle {reste : List DefPlanificationProfil} {off : ℤ} (h : m.Pret)
    (het : m.etape = .boucle off reste) :
    ∃ es m', Execution.exec (step env) m es = some m' ∧ m'.Pret ∧
      m'.tache = reste.foldl (CMainTask.planifieEntree env toujours off) m.tache ∧
      m'.etape = .repos := by
  induction reste generalizing m with
  | nil =>
      refine ⟨[.pas], { m with etape := .repos }, ?_, { h with }, rfl, rfl⟩
      simp [Execution.exec, step, pas, het]
  | cons e reste ih =>
      obtain ⟨es, r, hes, hr, htache, hetape⟩ := h.planifieEntree env het
      obtain ⟨fs, m', hfs, hm', htache', hrepos⟩ := ih hr hetape
      refine ⟨es ++ fs, m', Execution.exec_append_eq_some.mpr ⟨r, hes, hfs⟩, hm', ?_, hrepos⟩
      rw [htache', htache, List.foldl_cons]

/-- A state of the free machine between two operations of the threads. -/
def Represente (s : CMainTask) (m : Course) : Prop :=
  m.tache = s ∧ m.etape = .repos ∧ m.Pret

/-- The steps of a planning without interruption are the planning. -/
theorem Represente.planifie {s : CMainTask} (h : Represente s m) :
    ∃ es m', Execution.exec (step env) m es = some m' ∧
      Represente (s.iInitPlanification env toujours (some env.stPlanifProfil)).2 m' := by
  obtain ⟨rfl, hrepos, hpret⟩ := h
  let r : Course := { m with etape := .boucle (m.tache.tOffsetMidnight env) env.stPlanifProfil }
  have hr : m.step env .planifie = some r := if_pos hrepos
  obtain ⟨es, m', hes, hm', htache, hrepos'⟩ :=
    Pret.boucle env (m := r) { hpret with } rfl
  exact ⟨.planifie :: es, m', Execution.exec_cons_eq_some.mpr ⟨r, hr, hes⟩, htache, hrepos', hm'⟩

variable (env) in
theorem adresse_ne_of_expire {s : CMainTask} {t u : TimerTache}
    (hu : u ∈ (s.expire env toujours t).timers) (hst : u.timer.bStarted = true) :
    u.adresse ≠ t.adresse := by
  rcases TimerTache.mem_surAdresse.mp hu with ⟨-, hne⟩ | ⟨v, -, -, hv⟩
  · exact hne
  · rw [TimerTache.fini_not_started hv] at hst
    cases hst

theorem Represente.expire {s : CMainTask} (h : Represente s m) {a : ℕ} {t : TimerTache}
    (ht : s.echu a = some t) :
    ∃ es m', Execution.exec (step env) m es = some m' ∧
      Represente (s.expire env toujours t) m' := by
  obtain ⟨rfl, hrepos, hpret⟩ := h
  obtain ⟨hmem, rfl, hst, -⟩ := CMainTask.echu_eq_some ht
  have hmarche : m.tache.enMarche t.adresse = some t := by
    obtain ⟨u, hu⟩ := Option.ne_none_iff_exists'.mp fun hnone =>
      CMainTask.enMarche_eq_none hnone hmem hst rfl
    obtain ⟨humem, hadr, -⟩ := CMainTask.enMarche_eq_some hu
    rw [hu, hpret.forme.adresse_inj u humem t hmem hadr]
  let φ := Function.update m.phase t.adresse PhaseFil.expire
  let r₁ : Course := { m with phase := φ }
  let r₂ : Course := { r₁ with
    tache := m.tache.expire env toujours t
    tires := t.adresse :: m.tires }
  have hr₁ : m.step env (.depasse t.adresse) = some r₁ := by
    simp [step, hpret.attend t hmem hst, ht, r₁, φ]
  have hr₂ : r₁.step env (.rappelle t.adresse) = some r₂ := by
    simp [step, hmarche, r₁, r₂, φ]
  have hφ : ∀ b, b ≠ t.adresse → φ b = m.phase b := fun b hb => Function.update_of_ne hb _ _
  obtain ⟨hsuiv, halloue⟩ := expire_alloue env m.tache t
  obtain ⟨es, ψ, hes, hpret'⟩ := pret_of_phase env (m := r₂) (hpret.forme.expire t)
    (fun u hu hstu => by
      rw [show r₂.phase = φ from rfl, hφ _ (adresse_ne_of_expire env hu hstu)]
      exact (halloue u hu hstu).imp (fun hold => hpret.attend u hold hstu) (hpret.neuf _))
    (fun b hb => by
      have hlt := hpret.forme.adresse_lt t hmem
      have hle := Nat.le_trans hsuiv hb
      exact (hφ b (by omega)).trans (hpret.neuf b hle))
  have hrun := Execution.exec_cons_eq_some.mpr
    ⟨r₁, hr₁, Execution.exec_cons_eq_some.mpr ⟨r₂, hr₂, hes⟩⟩
  exact ⟨_, _, hrun, rfl, hrepos, hpret'⟩

/-- What a run of the free machine does is what the threads can do. -/
theorem exec_represente {s s' : CMainTask} {es : List EvtLibre} (hm : Represente s m)
    (h : Execution.exec (CMainTask.stepLibre env) s es = some s') :
    ∃ ds m', Execution.exec (step env) m ds = some m' ∧ Represente s' m' := by
  refine Execution.exec_simulates (fun s e s' m hm hs => ?_) hm h
  cases e with
  | planifie =>
      obtain rfl := Option.some.inj hs
      exact hm.planifie
  | expire a =>
      obtain ⟨t, ht, rfl⟩ := Option.map_eq_some_iff.mp hs
      exact hm.expire ht
  | avance t =>
      simp only [CMainTask.stepLibre] at hs
      split at hs
      · rename_i hle
        obtain rfl := Option.some.inj hs
        obtain ⟨rfl, hrepos, hpret⟩ := hm
        refine ⟨[.avance t], { m with tache := { m.tache with maintenant := t } }, ?_, rfl,
          hrepos, { hpret.forme with }, hpret.attend, hpret.neuf⟩
        simp [Execution.exec, step, hle]
      · cases hs

/-- Every run of the free machine is a run of the interleaved one: a planning or a callback
that is taken as one step can be what the threads do. -/
theorem libre_simulee (env : Env) (t0 : ℤ) {es : List EvtLibre} {s : CMainTask}
    (h : Execution.exec (CMainTask.stepLibre env) (.construit t0) es = some s) :
    ∃ ds m, Execution.exec (step env) (depart t0) ds = some m ∧ m.tache = s ∧
      m.etape = .repos := by
  obtain ⟨ds, m, hds, htache, hrepos, -⟩ := exec_represente ⟨rfl, rfl, .depart t0⟩ h
  exact ⟨ds, m, hds, htache, hrepos⟩

/-- A planning, and the launch fifty seconds later. -/
theorem libre_simulee_lancement : ∃ ds m,
    Execution.exec (step (.zoneFixe 1 0 [.planifie 1 3 50 100])) (depart 0) ds = some m ∧
      m.tache.profils.map (·.ucNumeroProfil) = [3] := by
  obtain ⟨s, hs⟩ := Option.isSome_iff_exists.mp
    (show (Execution.exec (CMainTask.stepLibre (.zoneFixe 1 0 [.planifie 1 3 50 100]))
      (.construit 0) [.planifie, .avance 50, .expire 2]).isSome = true by decide)
  obtain ⟨ds, m, hds, rfl, -⟩ := libre_simulee _ 0 hs
  refine ⟨ds, m, hds, ?_⟩
  have hval : (Execution.exec (CMainTask.stepLibre (.zoneFixe 1 0 [.planifie 1 3 50 100]))
      (.construit 0) [.planifie, .avance 50, .expire 2]).map
        (fun s => s.profils.map (·.ucNumeroProfil)) = some [3] := by decide
  rw [hs] at hval
  exact Option.some.inj hval

end GestAqua.Course

namespace GestAqua

/-! ### The ideal machine -/

namespace CMainTask

variable {env : Env} {cree : ℕ → Bool}

/-- The state without the day of the last test, which the free machine does not keep. -/
def sansJour (s : CMainTask) : CMainTask := { s with sLastDay := -1 }

theorem planifieEntree_sansJour (s : CMainTask) (off : ℤ) (e : DefPlanificationProfil) :
    s.sansJour.planifieEntree env cree off e = (s.planifieEntree env cree off e).sansJour := by
  have hremplace : s.sansJour.remplaceLanceur e.ucNumeroPlanif =
      (s.remplaceLanceur e.ucNumeroPlanif).sansJour := by
    unfold remplaceLanceur
    rw [show s.sansJour.mLanceurProfil = s.mLanceurProfil from rfl]
    split <;> rfl
  unfold planifieEntree
  rw [hremplace]
  split
  · rfl
  · split
    · rfl
    · split <;> rfl

theorem iInitPlanification_sansJour (s : CMainTask) (l : List DefPlanificationProfil) :
    (s.sansJour.iInitPlanification env cree (some l)).2 =
      (s.iInitPlanification env cree (some l)).2.sansJour :=
  List.foldl_hom sansJour fun s e => planifieEntree_sansJour s _ e

theorem iStartProfil_sansJour (s : CMainTask) (n : UInt8) :
    (s.sansJour.iStartProfil env cree n).2 = (s.iStartProfil env cree n).2.sansJour := by
  unfold iStartProfil
  split
  · rw [show s.sansJour.effaceLanceur n = (s.effaceLanceur n).sansJour from rfl]
    refine List.foldl_hom sansJour fun r e => ?_
    split <;> rfl
  · rfl

theorem iStopProfil_sansJour (s : CMainTask) (p : UInt8) (a : ℕ) :
    (s.sansJour.iStopProfil p a).2 = (s.iStopProfil p a).2.sansJour := by
  unfold iStopProfil
  split <;> rfl

theorem expire_sansJour (s : CMainTask) (t : TimerTache) :
    s.sansJour.expire env cree t = (s.expire env cree t).sansJour := by
  have hrappelle : ∀ r : Option Rappel, s.sansJour.rappelle env cree r =
      (s.rappelle env cree r).sansJour := by
    rintro (_ | pParam | pParam)
    · rfl
    · exact congrArg (supprime pParam.bloc) (iStartProfil_sansJour s _)
    · exact congrArg (supprime pParam.bloc) (iStopProfil_sansJour s _ _)
  exact congrArg (finThread t.adresse) (hrappelle _)

end CMainTask

namespace Ideal

variable {env : Env}

/-- Every run of the ideal machine is a run of the interleaved one, but for the day of the
last test: what the main task does when nothing is late is what its threads can do. -/
theorem ideal_simule (env : Env) (t0 : ℤ) {es : List EvtIdeal} {m : Ideal}
    (h : Execution.exec (step env) (depart t0) es = some m) :
    ∃ ds r, Execution.exec (Course.step env) (.depart t0) ds = some r ∧
      r.tache = m.tache.sansJour ∧ r.etape = .repos := by
  have hlibre : ∃ fs s, Execution.exec (CMainTask.stepLibre env) (.construit t0) fs = some s ∧
      s = m.tache.sansJour := by
    refine Execution.exec_simulates (R := fun (m : Ideal) s => s = m.tache.sansJour)
      (fun m e m' s hs he => ?_) rfl h
    obtain rfl := hs
    cases e with
    | tic =>
        simp only [step] at he
        split at he
        · obtain rfl := Option.some.inj he
          unfold CMainTask.testeJour
          dsimp only
          split
          · refine ⟨[.planifie], _, rfl, ?_⟩
            exact CMainTask.iInitPlanification_sansJour
              { m.tache with sLastDay := env.tmYday (env.time m.tache.maintenant / 86400) }
              env.stPlanifProfil
          · exact ⟨[], _, rfl, rfl⟩
        · cases he
    | expire a =>
        obtain ⟨t, ht, rfl⟩ := Option.map_eq_some_iff.mp he
        refine ⟨[.expire a], m.tache.sansJour.expire env toujours t, ?_,
          CMainTask.expire_sansJour m.tache t⟩
        have hechu : m.tache.sansJour.echu a = some t := ht
        simp [Execution.exec, CMainTask.stepLibre, hechu]
    | avance =>
        simp only [step] at he
        split at he
        · obtain rfl := Option.some.inj he
          refine ⟨[.avance (m.tache.maintenant + 1)], _, ?_, rfl⟩
          have hle : m.tache.maintenant ≤ m.tache.maintenant + 1 := by omega
          simp [Execution.exec, CMainTask.stepLibre, CMainTask.sansJour, hle]
        · cases he
  obtain ⟨fs, s, hfs, rfl⟩ := hlibre
  obtain ⟨ds, r, hds, htache, hrepos, -⟩ :=
    Course.exec_represente (m := .depart t0) ⟨rfl, rfl, .depart t0⟩ hfs
  exact ⟨ds, r, hds, htache, hrepos⟩

/-- The first test, and the launch two seconds later. -/
theorem ideal_simule_lancement : ∃ ds r,
    Execution.exec (Course.step (.zoneFixe 1 0 [.planifie 1 3 2 100])) (.depart 0) ds = some r ∧
      r.tache.maintenant = 2 ∧ r.tache.profils.map (·.ucNumeroProfil) = [3] := by
  obtain ⟨m, hm⟩ := Option.isSome_iff_exists.mp
    (show (Execution.exec (step (.zoneFixe 1 0 [.planifie 1 3 2 100])) (depart 0)
      [.tic, .avance, .tic, .avance, .expire 2]).isSome = true by decide)
  obtain ⟨ds, r, hds, htache, -⟩ := ideal_simule _ 0 hm
  have hval : (Execution.exec (step (.zoneFixe 1 0 [.planifie 1 3 2 100])) (depart 0)
      [.tic, .avance, .tic, .avance, .expire 2]).map
        (fun m => (m.tache.maintenant, m.tache.profils.map (·.ucNumeroProfil))) =
          some (2, [3]) := by decide
  rw [hm] at hval
  obtain ⟨hnow, hprofils⟩ := Prod.mk.inj (Option.some.inj hval)
  exact ⟨ds, r, hds, by rw [htache]; exact hnow, by rw [htache]; exact hprofils⟩

end Ideal

end GestAqua
