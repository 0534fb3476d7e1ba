import GestAqua.Planning.Cadence

/-!
How many instances of a profile run at once.

Planning looks at the clock only: inside a window it launches the plan at once,
without looking whether an instance is running. `SansDoublon` says that no
planning of a run falls into the window of a plan that an earlier planning has
already served. Under it every plan has at most one armed launcher, and every
profile at most one running instance with one stop timer.
-/

namespace GestAqua

namespace Ideal

variable {env : Env} {z t0 : ℤ} {e : DefPlanificationProfil} {m m' : Ideal}

/-- What a run keeps about one plan and its profile. The launcher `E` is due
inside the window of a day that has been planned for, the stop timer `F` at the
end of one, the running instance ends before the next launch, and the plan has
been launched, or will be, in every window that has been planned for. -/
structure Suivi (env : Env) (z t0 : ℤ) (e : DefPlanificationProfil) (m : Ideal)
    (E F : Option ℤ) : Prop where
  forme : BienForme m.tache
  cadence : m.Cadence env t0
  attend : m.tache.Attend e.ucNumeroPlanif E
  tourne : m.tache.Tourne e.ucNumeroProfil F
  lanceur : ∀ x, E = some x → m.tache.maintenant ≤ x ∧
    e.stPlanif.tDebut ≤ env.lecture z x % 86400 ∧ env.lecture z x % 86400 < e.tFin ∧
    (env.lecture z x % 86400 = e.stPlanif.tDebut ∨ x < m.prochainTic) ∧
    Planifie env z t0 m (env.lecture z x / 86400)
  arret : ∀ y, F = some y → m.tache.maintenant ≤ y ∧
    ∃ N, env.lecture z y = 86400 * N + e.tFin ∧
      86400 * N + e.stPlanif.tDebut ≤ env.lecture z m.tache.maintenant ∧ Planifie env z t0 m N
  ordre : ∀ x y, E = some x → F = some y → env.lecture z y < env.lecture z x
  servi : m = .depart t0 ∨ ∀ N, env.lecture z t0 / 86400 ≤ N → Planifie env z t0 m N →
    (∃ x, E = some x ∧ env.lecture z x / 86400 = N) ∨
    (∃ y, F = some y ∧ env.lecture z y = 86400 * N + e.tFin) ∨
    86400 * N + e.tFin ≤ env.lecture z m.tache.maintenant

/-- The plannings of a run that starts at `t0` do not meet an instance of the
plan: the later planning of the first day is not in the window when the plan was
served by the first, a window of a whole day does not begin at the planning
instant, and an immediate launch is not left over for the second in which the
window ends. -/
structure SansDoublon (env : Env) (z t0 : ℤ) (e : DefPlanificationProfil) : Prop where
  reprise : z % 86400 < e.tFin → e.stPlanif.tDebut ≤ z % 86400 →
    z % 86400 ≤ env.lecture z t0 % 86400
  minuit : ¬ (z % 86400 = 0 ∧ e.stPlanif.tDebut = 0 ∧ e.tFin = 86400)
  seconde : z % 86400 < e.tFin →
    (env.lecture z t0 % 86400 + 1 = e.tFin ∨ z % 86400 + 1 = e.tFin) →
    t0 % env.parSeconde + env.duree 100 < env.parSeconde

theorem tourne_depart {p : UInt8} {y : Option ℤ} (h : (depart t0).tache.Tourne p y) :
    y = none := by
  cases y with
  | none => rfl
  | some y =>
      obtain ⟨t, ht, -⟩ := h.mem
      exact absurd rfl (ne_depart t0 (CMainTask.mem_arrets.mp ht).1)

/-! ### One step -/

theorem Suivi.arret_tic (hu : 0 < env.parSeconde) {E F : Option ℤ}
    (h : Suivi env z t0 e m E F) {s : CMainTask} (hs : s.maintenant = m.tache.maintenant)
    (y : ℤ) (hy : F = some y) :
    s.maintenant ≤ y ∧ ∃ N, env.lecture z y = 86400 * N + e.tFin ∧
      86400 * N + e.stPlanif.tDebut ≤ env.lecture z s.maintenant ∧
      Planifie env z t0 (m.apresTic env s) N := by
  obtain ⟨h1, N, h2, h3, h4⟩ := h.arret y hy
  rw [hs]
  exact ⟨h1, N, h2, h3, h4.tic hu s⟩

theorem Suivi.tic_rien (hu : 0 < env.parSeconde) {E F : Option ℤ}
    (h : Suivi env z t0 e m E F) (hdep : m ≠ .depart t0)
    (hmid : env.time m.prochainTic % 86400 ≠ 0)
    (hcad : Cadence env t0 (m.apresTic env m.tache)) :
    Suivi env z t0 e (m.apresTic env m.tache) E F where
  forme := h.forme
  cadence := hcad
  attend := h.attend
  tourne := h.tourne
  lanceur x hx := by
    obtain ⟨h1, h2, h3, h4, h5⟩ := h.lanceur x hx
    refine ⟨h1, h2, h3, h4.imp id fun h4 => ?_, h5.tic hu m.tache⟩
    dsimp only [apresTic]
    omega
  arret := h.arret_tic hu rfl
  ordre := h.ordre
  servi := by
    refine .inr fun N hN hP => h.servi.resolve_left hdep N hN ?_
    have hlec := Env.lecture_tic hu z m.prochainTic
    have hζ : env.lecture z m.prochainTic = env.time m.prochainTic + z := rfl
    refine hP.imp_left fun hP => ?_
    dsimp only [apresTic] at hP
    omega

/-- At a planning instant, a launcher that is still armed for the plan was armed
by the first test, for later in the day. -/
theorem Suivi.tic_lanceur (hu : 0 < env.parSeconde) (hv : PlanValide e) {E F : Option ℤ}
    (h : Suivi env z t0 e m E F) (hnow : m.tache.maintenant = m.prochainTic)
    (hmid : env.time m.prochainTic % 86400 = 0) {x : ℤ} (hx : E = some x) :
    env.lecture z t0 % 86400 < z % 86400 := by
  obtain ⟨hle, -, hfin, -, hjour⟩ := h.lanceur x hx
  have hT : env.lecture z m.prochainTic ≤ env.lecture z x :=
    Env.lecture_mono hu z (hnow ▸ hle)
  have := hv.fin_le
  have hζ : env.lecture z m.prochainTic = env.time m.prochainTic + z := rfl
  rcases hjour with hj | ⟨hj, ho⟩ <;> omega

/-- At a planning instant, an instance that is still running ends now, at
midnight, or was launched on the first day, before the planning instant. -/
theorem Suivi.tic_arret (hu : 0 < env.parSeconde) (hv : PlanValide e) {E F : Option ℤ}
    (h : Suivi env z t0 e m E F) (hnow : m.tache.maintenant = m.prochainTic)
    (hmid : env.time m.prochainTic % 86400 = 0) {y : ℤ} (hy : F = some y) :
    (z % 86400 = 0 ∧ e.tFin = 86400) ∨ env.lecture z t0 % 86400 < z % 86400 := by
  obtain ⟨hle, N, hN, hdeb, hjour⟩ := h.arret y hy
  have hT : env.lecture z m.prochainTic ≤ env.lecture z y :=
    Env.lecture_mono hu z (hnow ▸ hle)
  have := hv.fin_le
  have hζ : env.lecture z m.prochainTic = env.time m.prochainTic + z := rfl
  rcases hjour with hj | ⟨hj, ho⟩
  · omega
  · exact .inr ho

/-- After a planning, every window planned for is served as soon as the window of
the current day is. -/
theorem Suivi.servi_tic (hu : 0 < env.parSeconde) {E E' F : Option ℤ}
    (h : Suivi env z t0 e m E F) (hnow : m.tache.maintenant = m.prochainTic) {s : CMainTask}
    (hs : s.maintenant = m.tache.maintenant)
    (hjour : (∃ x, E' = some x ∧
        env.lecture z x / 86400 = env.lecture z m.prochainTic / 86400) ∨
      86400 * (env.lecture z m.prochainTic / 86400) + e.tFin ≤ env.lecture z m.prochainTic)
    (N : ℤ) (hN : env.lecture z t0 / 86400 ≤ N) (hP : Planifie env z t0 (m.apresTic env s) N) :
    (∃ x, E' = some x ∧ env.lecture z x / 86400 = N) ∨
      (∃ y, F = some y ∧ env.lecture z y = 86400 * N + e.tFin) ∨
      86400 * N + e.tFin ≤ env.lecture z s.maintenant := by
  have hlec := Env.lecture_tic hu z m.prochainTic
  have h0 : env.lecture z t0 ≤ env.lecture z m.prochainTic :=
    Env.lecture_mono hu z h.cadence.depart_le
  have hle : N ≤ env.lecture z m.prochainTic / 86400 := by
    rcases hP with hP | ⟨rfl, -⟩
    · dsimp only [apresTic] at hP
      omega
    · omega
  rw [hs, hnow]
  rcases eq_or_lt_of_le hle with rfl | hlt
  · exact hjour.imp_right .inr
  · have hdep : m ≠ .depart t0 := by
      rintro rfl
      exact absurd (hN.trans_lt hlt) (lt_irrefl _)
    rcases h.servi.resolve_left hdep N hN (.inl (by omega)) with ⟨x, hx, hday⟩ | hF | hfin
    · have hT : env.lecture z m.prochainTic ≤ env.lecture z x :=
        Env.lecture_mono hu z (hnow ▸ (h.lanceur x hx).1)
      omega
    · exact .inr (.inl hF)
    · rw [hnow] at hfin
      exact .inr (.inr hfin)

/-- When planning finds the plan inside its window, nothing of it is armed or
running. -/
theorem Suivi.libre_en_fenetre (hu : 0 < env.parSeconde) (hv : PlanValide e)
    (hsd : SansDoublon env z t0 e) (hzf : z % 86400 < e.tFin) {E F : Option ℤ}
    (h : Suivi env z t0 e m E F) (hnow : m.tache.maintenant = m.prochainTic)
    (hinst : m = depart t0 ∨ env.time m.prochainTic % 86400 = 0)
    (hdebut : e.stPlanif.tDebut ≤ env.lecture z m.prochainTic % 86400)
    (hfin : env.lecture z m.prochainTic % 86400 < e.tFin) : E = none ∧ F = none := by
  have hζ : env.lecture z m.prochainTic = env.time m.prochainTic + z := rfl
  rcases hinst with rfl | hmid
  · exact ⟨attend_depart h.attend, tourne_depart h.tourne⟩
  · have hd0 := hv.debut_nonneg
    have hf := hv.fin_le
    have hreprise := hsd.reprise hzf
    have hminuit := hsd.minuit
    constructor
    · by_contra hne
      obtain ⟨x, hx⟩ := Option.ne_none_iff_exists'.mp hne
      have := h.tic_lanceur hu hv hnow hmid hx
      omega
    · by_contra hne
      obtain ⟨y, hy⟩ := Option.ne_none_iff_exists'.mp hne
      rcases h.tic_arret hu hv hnow hmid hy with h' | h' <;> omega

theorem Suivi.lecture_immediat (hu : 0 < env.parSeconde) (hv : PlanValide e)
    (hsd : SansDoublon env z t0 e) (hzf : z % 86400 < e.tFin) {E F : Option ℤ}
    (h : Suivi env z t0 e m E F)
    (hinst : m = depart t0 ∨ env.time m.prochainTic % 86400 = 0)
    (hfin : env.lecture z m.prochainTic % 86400 < e.tFin) :
    env.lecture z (m.prochainTic + env.duree 100) = env.lecture z m.prochainTic ∨
      env.lecture z (m.prochainTic + env.duree 100) = env.lecture z m.prochainTic + 1 ∧
        env.lecture z m.prochainTic % 86400 + 1 < e.tFin := by
  have hf := hv.fin_le
  have hζ : env.lecture z m.prochainTic = env.time m.prochainTic + z := rfl
  have hle := Env.lecture_immediat_le hu z m.prochainTic
  have hge : env.lecture z m.prochainTic ≤ env.lecture z (m.prochainTic + env.duree 100) :=
    Env.lecture_mono hu z (by have := env.duree_nonneg 100; omega)
  by_cases hlast : env.lecture z m.prochainTic % 86400 + 1 = e.tFin
  · left
    refine Env.lecture_immediat hu z h.cadence.phase (hsd.seconde hzf ?_)
    rcases hinst with rfl | hmid
    · exact .inl hlast
    · right
      omega
  · omega

theorem Suivi.tic_planifie (hu : 0 < env.parSeconde) (hz : env.zone = .fixe z)
    (hl : (env.stPlanifProfil.map (·.ucNumeroPlanif)).Nodup) (he : e ∈ env.stPlanifProfil)
    (hv : PlanValide e) (hsd : SansDoublon env z t0 e) (hzf : z % 86400 < e.tFin)
    {E F : Option ℤ} (h : Suivi env z t0 e m E F) (hnow : m.tache.maintenant = m.prochainTic)
    (hinst : m = depart t0 ∨ env.time m.prochainTic % 86400 = 0)
    (hcad : Cadence env t0 (m.apresTic env (replanifie env m.tache))) :
    ∃ E' F', Suivi env z t0 e (m.apresTic env (replanifie env m.tache)) E' F' := by
  have hdf := hv.debut_lt_fin
  have hd0 := hv.debut_nonneg
  have hf := hv.fin_le
  have hlec := Env.lecture_tic hu z m.prochainTic
  have hζ : env.lecture z m.prochainTic = env.time m.prochainTic + z := rfl
  have hvide : m = depart t0 → E = none ∧ F = none := by
    rintro rfl
    exact ⟨attend_depart h.attend, tourne_depart h.tourne⟩
  have hjour : Planifie env z t0 (m.apresTic env (replanifie env m.tache))
      (env.lecture z m.prochainTic / 86400) := .tic_instant hu hinst _
  have hF : (replanifie env m.tache).Tourne e.ucNumeroProfil F :=
    h.tourne.congr (vueArret_replanifie env h.forme _)
  by_cases hoff : env.lecture z m.prochainTic % 86400 < e.stPlanif.tDebut
  · -- the launcher waits for the start of the window
    have hE := replanifie_differe hz hl he hv h.forme h.attend (by rwa [hnow])
    rw [hnow] at hE
    have hx := Env.lecture_add hu z m.prochainTic
      (e.stPlanif.tDebut - env.lecture z m.prochainTic % 86400)
    have hday : (env.lecture z m.prochainTic +
        (e.stPlanif.tDebut - env.lecture z m.prochainTic % 86400)) / 86400 =
        env.lecture z m.prochainTic / 86400 := by omega
    refine ⟨_, F, bienForme_replanifie env h.forme, hcad, hE, hF, ?_,
      h.arret_tic hu (maintenant_replanifie _), ?_,
      .inr (h.servi_tic hu hnow (maintenant_replanifie _) (.inl ⟨_, rfl, hx ▸ hday⟩))⟩
    · rintro _ ⟨⟩
      have hpos : 0 ≤ (e.stPlanif.tDebut - env.lecture z m.prochainTic % 86400) *
          env.parSeconde := by
        have : 0 ≤ e.stPlanif.tDebut - env.lecture z m.prochainTic % 86400 := by omega
        positivity
      rw [hx, hday]
      refine ⟨?_, by omega, by omega, .inl (by omega), hjour⟩
      show (replanifie env m.tache).maintenant ≤ _
      rw [maintenant_replanifie]
      omega
    · rintro _ y ⟨⟩ hy
      obtain ⟨-, N, hN, hdeb, -⟩ := h.arret y hy
      rw [hx]
      rw [hnow] at hdeb
      have hmid : env.time m.prochainTic % 86400 = 0 := by
        rcases hinst with hdep | hmid
        · simp [(hvide hdep).2] at hy
        · exact hmid
      rcases h.tic_arret hu hv hnow hmid hy with h' | h' <;> omega
  · by_cases hfin : env.lecture z m.prochainTic % 86400 < e.tFin
    · -- the launcher is due at once: nothing was armed and nothing was running
      obtain ⟨rfl, rfl⟩ :=
        h.libre_en_fenetre hu hv hsd hzf hnow hinst (Int.not_lt.mp hoff) hfin
      have hE := replanifie_immediat hz hl he hv h.forme h.attend (by rw [hnow]; omega)
        (by rwa [hnow])
      have hx := h.lecture_immediat hu hv hsd hzf hinst hfin
      have hday : env.lecture z (m.prochainTic + env.duree 100) / 86400 =
          env.lecture z m.prochainTic / 86400 := by omega
      rw [hnow] at hE
      refine ⟨_, none, bienForme_replanifie env h.forme, hcad, hE, hF, ?_, by simp, by simp,
        .inr (h.servi_tic hu hnow (maintenant_replanifie _) (.inl ⟨_, rfl, hday⟩))⟩
      rintro _ ⟨⟩
      refine ⟨?_, by omega, by omega, .inr ?_, hday ▸ hjour⟩
      · show (replanifie env m.tache).maintenant ≤ _
        rw [maintenant_replanifie, hnow]
        have := env.duree_nonneg 100
        omega
      · exact Int.add_lt_add_left (Env.duree_immediat_lt env hu) _
    · -- the window is over, which only the first test can find
      have hdep : m = depart t0 := hinst.resolve_right fun hmid => by omega
      have hE := replanifie_rien hz hl he hv h.forme h.attend (by rw [hnow]; omega)
      obtain ⟨rfl, rfl⟩ := hvide hdep
      exact ⟨none, none, bienForme_replanifie env h.forme, hcad, hE, hF, by simp, by simp, by simp,
        .inr (h.servi_tic hu hnow (maintenant_replanifie _) (.inr (by omega)))⟩

theorem Suivi.lance (hu : 0 < env.parSeconde) (hz : env.zone = .fixe z)
    (hl : (env.stPlanifProfil.map (·.ucNumeroPlanif)).Nodup) (he : e ∈ env.stPlanifProfil)
    (hv : PlanValide e) {E F : Option ℤ} (h : Suivi env z t0 e m E F) {t : TimerTache}
    (ht : t ∈ m.tache.lanceurs e.ucNumeroPlanif) (hdue : t.echeance ≤ m.tache.maintenant)
    (hcad : Cadence env t0 (m.apresExpire env t)) :
    ∃ y, Suivi env z t0 e (m.apresExpire env t) none (some y) := by
  have hf := hv.fin_le
  obtain ⟨hle, hdeb, hfin, -, hjour⟩ := h.lanceur t.echeance (h.attend.echeance ht)
  have hnow : t.echeance = m.tache.maintenant := by omega
  rw [hnow] at hdeb hfin hjour
  have hF : F = none := by
    by_contra hne
    obtain ⟨y, rfl⟩ := Option.ne_none_iff_exists'.mp hne
    have hord := h.ordre _ y (h.attend.echeance ht) rfl
    have hmono := Env.lecture_mono hu z (h.arret y rfl).1
    rw [hnow] at hord
    omega
  subst hF
  have hoff := m.tache.tOffsetMidnight_eq hz
  have hlec := Env.lecture_add hu z m.tache.maintenant
    (e.tFin - env.lecture z m.tache.maintenant % 86400)
  have hT := CMainTask.Tourne.lance env h.forme hl he h.tourne ht hv.periode_pos
    (by rw [hoff]; omega) (by rw [hoff]; omega)
  rw [hoff] at hT
  have hdep := ne_depart t0 (CMainTask.mem_lanceurs.mp ht).1
  have hend : env.lecture z (m.tache.maintenant +
      (e.tFin - env.lecture z m.tache.maintenant % 86400) * env.parSeconde) =
      86400 * (env.lecture z m.tache.maintenant / 86400) + e.tFin := by omega
  refine ⟨_, h.forme.expire t, hcad, h.attend.expire h.forme ht, hT, by simp, ?_, by simp,
    .inr fun N hN hP => ?_⟩
  rotate_left
  · have hnow' : (m.tache.expire env toujours t).maintenant = m.tache.maintenant :=
      CMainTask.maintenant_expire toujours t
    rw [show (m.apresExpire env t).tache.maintenant = m.tache.maintenant from hnow']
    rcases h.servi.resolve_left hdep N hN hP with ⟨x, hx, hday⟩ | hF | hfin
    · refine .inr (.inl ⟨_, rfl, ?_⟩)
      obtain rfl : t.echeance = x := by simpa [h.attend.echeance ht] using hx
      rw [hend, ← hday, hnow]
    · simp at hF
    · exact .inr (.inr hfin)
  rintro _ ⟨⟩
  refine ⟨?_, env.lecture z m.tache.maintenant / 86400, hend, ?_, hjour⟩
  · have : 0 ≤ (e.tFin - env.lecture z m.tache.maintenant % 86400) * env.parSeconde := by
      have : 0 ≤ e.tFin - env.lecture z m.tache.maintenant % 86400 := by omega
      positivity
    show (m.tache.expire env toujours t).maintenant ≤ _
    rw [CMainTask.maintenant_expire]
    omega
  · show _ ≤ env.lecture z (m.tache.expire env toujours t).maintenant
    rw [CMainTask.maintenant_expire]
    omega

theorem Suivi.autre {E F F' : Option ℤ} (h : Suivi env z t0 e m E F) {t : TimerTache}
    (hcad : Cadence env t0 (m.apresExpire env t))
    (hE : (m.tache.expire env toujours t).Attend e.ucNumeroPlanif E)
    (hF : (m.tache.expire env toujours t).Tourne e.ucNumeroProfil F')
    (hsub : F' = F ∨ F' = none ∧ ∀ y, F = some y → y ≤ m.tache.maintenant)
    (hu : 0 < env.parSeconde) (hdep : m ≠ .depart t0) :
    Suivi env z t0 e (m.apresExpire env t) E F' where
  forme := h.forme.expire t
  cadence := hcad
  attend := hE
  tourne := hF
  lanceur x hx := by
    show (m.tache.expire env toujours t).maintenant ≤ x ∧ _
    rw [CMainTask.maintenant_expire]
    exact h.lanceur x hx
  arret y hy := by
    show (m.tache.expire env toujours t).maintenant ≤ y ∧
      ∃ N, _ ∧ _ ≤ env.lecture z (m.tache.expire env toujours t).maintenant ∧ _
    rw [CMainTask.maintenant_expire]
    rcases hsub with rfl | ⟨rfl, -⟩
    · exact h.arret y hy
    · cases hy
  ordre x y hx hy := by
    rcases hsub with rfl | ⟨rfl, -⟩
    · exact h.ordre x y hx hy
    · cases hy
  servi := by
    refine .inr fun N hN hP => ?_
    show _ ∨ _ ∨ _ ≤ env.lecture z (m.tache.expire env toujours t).maintenant
    rw [CMainTask.maintenant_expire]
    rcases h.servi.resolve_left hdep N hN hP with hE | ⟨y, hy, hN⟩ | hfin
    · exact .inl hE
    · rcases hsub with rfl | ⟨rfl, hdue⟩
      · exact .inr (.inl ⟨y, hy, hN⟩)
      · exact .inr (.inr (hN ▸ Env.lecture_mono hu z (hdue y hy)))
    · exact .inr (.inr hfin)

/-- Time passes only when nothing is due. -/
theorem Suivi.avance (hu : 0 < env.parSeconde) {E F : Option ℤ} (h : Suivi env z t0 e m E F)
    (hlt : m.tache.maintenant < m.prochainTic)
    (hcalme : ∀ t ∈ m.tache.timers, t.timer.bStarted = true →
      m.tache.maintenant < t.echeance)
    (hcad : Cadence env t0
      { m with tache := { m.tache with maintenant := m.tache.maintenant + 1 } }) :
    Suivi env z t0 e
      { m with tache := { m.tache with maintenant := m.tache.maintenant + 1 } } E F where
  forme := { h.forme with }
  cadence := hcad
  attend := h.attend.congr rfl
  tourne := h.tourne.congr rfl
  lanceur x hx := by
    subst hx
    refine ⟨?_, (h.lanceur x rfl).2⟩
    obtain ⟨t, ht, rfl⟩ := h.attend.mem
    obtain ⟨hmem, hlan⟩ := CMainTask.mem_lanceurs.mp ht
    exact hcalme t hmem (TimerTache.lanceurDe_iff.mp hlan).1
  arret y hy := by
    subst hy
    obtain ⟨-, N, hN, hdeb, hjour⟩ := h.arret y rfl
    refine ⟨?_, N, hN, hdeb.trans (Env.lecture_mono hu z (by simp)), hjour⟩
    obtain ⟨t, ht, rfl⟩ := h.tourne.mem
    obtain ⟨hmem, harr⟩ := CMainTask.mem_arrets.mp ht
    exact hcalme t hmem (TimerTache.arretDe_iff.mp harr).1
  ordre := h.ordre
  servi := by
    have hdep : m ≠ .depart t0 := by
      rintro rfl
      exact lt_irrefl _ hlt
    refine .inr fun N hN hP => ?_
    rcases h.servi.resolve_left hdep N hN hP with hE | hF | hfin
    · exact .inl hE
    · exact .inr (.inl hF)
    · exact .inr (.inr (hfin.trans (Env.lecture_mono hu z (by simp))))

/-! ### Runs -/

/-- What the table of a run must satisfy: plan and profile numbers are distinct
and not zero, and every window lies within one day. -/
structure TableValide (l : List DefPlanificationProfil) : Prop where
  planifs : (l.map (·.ucNumeroPlanif)).Nodup
  profils : (l.map (·.ucNumeroProfil)).Nodup
  valide : ∀ e ∈ l, PlanValide e
  profil_ne_zero : ∀ e ∈ l, e.ucNumeroProfil ≠ 0

theorem TableValide.seule (hv : PlanValide e) (hp : e.ucNumeroProfil ≠ 0) :
    TableValide [e] where
  planifs := List.nodup_singleton _
  profils := List.nodup_singleton _
  valide := by simpa using hv
  profil_ne_zero := by simpa using hp

theorem vueArret_expire_autre (hpl : (env.stPlanifProfil.map (·.ucNumeroPlanif)).Nodup)
    (hpr : (env.stPlanifProfil.map (·.ucNumeroProfil)).Nodup) (he : e ∈ env.stPlanifProfil)
    {s : CMainTask} (h : BienForme s) {t : TimerTache} (ht : t ∈ s.timers)
    (hst : t.timer.bStarted = true) (hlan : t.lanceurDe e.ucNumeroPlanif = false)
    (harr : t.arretDe e.ucNumeroProfil = false) :
    (s.expire env toujours t).vueArret e.ucNumeroProfil = s.vueArret e.ucNumeroProfil := by
  refine CMainTask.vueArret_expire_of_not h hpl ht hst (fun e' he' hp => ?_) harr
  rwa [List.inj_on_of_nodup_map hpr he' he hp]

theorem TableValide.vueArret_expire (htab : TableValide env.stPlanifProfil)
    (he : e ∈ env.stPlanifProfil) {s : CMainTask} (h : BienForme s) {t : TimerTache}
    (ht : t ∈ s.timers) (hst : t.timer.bStarted = true)
    (hlan : t.lanceurDe e.ucNumeroPlanif = false) (harr : t.arretDe e.ucNumeroProfil = false) :
    (s.expire env toujours t).vueArret e.ucNumeroProfil = s.vueArret e.ucNumeroProfil :=
  vueArret_expire_autre htab.planifs htab.profils he h ht hst hlan harr

/-- Every step keeps the invariant of a plan whose window lies within one day and is not
over at the planning instant, whatever the windows of the other plans. -/
theorem Suivi.step_plan (hu : 0 < env.parSeconde) (hcal : Calendrier env)
    (hz : env.zone = .fixe z) (hpl : (env.stPlanifProfil.map (·.ucNumeroPlanif)).Nodup)
    (hpr : (env.stPlanifProfil.map (·.ucNumeroProfil)).Nodup) (he : e ∈ env.stPlanifProfil)
    (hv : PlanValide e) (hp : e.ucNumeroProfil ≠ 0) (hsd : SansDoublon env z t0 e)
    (hzf : z % 86400 < e.tFin) {ev : EvtIdeal} {E F : Option ℤ} (h : Suivi env z t0 e m E F)
    (hs : m.step env ev = some m') : ∃ E' F', Suivi env z t0 e m' E' F' := by
  have hcad := h.cadence.step hu hcal hs
  rcases step_cases hs with ⟨rfl, hnow, rfl⟩ | ⟨t, ht, rfl, hst, hdue, rfl⟩ |
    ⟨rfl, hlt, hcalme, rfl⟩
  · rcases testeJour_cases hu hcal h.cadence hnow with ⟨hinst, heq⟩ | ⟨⟨k, hk⟩, hmid, -, heq⟩
    · rw [heq] at hcad ⊢
      exact h.tic_planifie hu hz hpl he hv hsd hzf hnow hinst hcad
    · rw [heq] at hcad ⊢
      have hdep : m ≠ .depart t0 := by
        rintro rfl
        have : 0 < ((k : ℤ) + 1) * env.parSeconde := by positivity
        simp only [Ideal.depart] at hk
        omega
      exact ⟨E, F, h.tic_rien hu hdep hmid hcad⟩
  · have hdep := ne_depart t0 ht
    by_cases hlan : t.lanceurDe e.ucNumeroPlanif = true
    · obtain ⟨y, hy⟩ := h.lance hu hz hpl he hv
        (CMainTask.mem_lanceurs.mpr ⟨ht, hlan⟩) hdue hcad
      exact ⟨none, some y, hy⟩
    · rw [Bool.not_eq_true] at hlan
      have hE := h.attend.congr
        (CMainTask.vueLanceur_expire_of_not env h.forme ht hst hlan)
      by_cases harr : t.arretDe e.ucNumeroProfil = true
      · have hF := h.tourne.expire env h.forme hp (CMainTask.mem_arrets.mpr ⟨ht, harr⟩)
        refine ⟨E, none, h.autre hcad hE hF (.inr ⟨rfl, fun y hy => ?_⟩) hu hdep⟩
        obtain rfl : t.echeance = y := by
          simpa [h.tourne.echeance (CMainTask.mem_arrets.mpr ⟨ht, harr⟩)] using hy
        exact hdue
      · rw [Bool.not_eq_true] at harr
        have hF := h.tourne.congr (vueArret_expire_autre hpl hpr he h.forme ht hst hlan harr)
        exact ⟨E, F, h.autre hcad hE hF (.inl rfl) hu hdep⟩
  · exact ⟨E, F, h.avance hu hlt hcalme hcad⟩

theorem Suivi.step (hu : 0 < env.parSeconde) (hcal : Calendrier env) (hz : env.zone = .fixe z)
    (htab : TableValide env.stPlanifProfil) (he : e ∈ env.stPlanifProfil)
    (hsd : SansDoublon env z t0 e) (hzf : z % 86400 < e.tFin) {ev : EvtIdeal}
    {E F : Option ℤ} (h : Suivi env z t0 e m E F) (hs : m.step env ev = some m') :
    ∃ E' F', Suivi env z t0 e m' E' F' :=
  h.step_plan hu hcal hz htab.planifs htab.profils he (htab.valide e he)
    (htab.profil_ne_zero e he) hsd hzf hs

/-- A step leaves a running instance as it is, unless it is the expiry of its stop timer. -/
theorem Suivi.vueArret_step (hpl : (env.stPlanifProfil.map (·.ucNumeroPlanif)).Nodup)
    (hpr : (env.stPlanifProfil.map (·.ucNumeroProfil)).Nodup) (he : e ∈ env.stPlanifProfil)
    (hu : 0 < env.parSeconde) {ev : EvtIdeal} {E : Option ℤ} {y : ℤ}
    (h : Suivi env z t0 e m E (some y)) (hs : m.step env ev = some m') :
    m'.tache.vueArret e.ucNumeroProfil = m.tache.vueArret e.ucNumeroProfil ∨
      ∃ t ∈ m.tache.arrets e.ucNumeroProfil, t.echeance = y ∧
        m'.tache = m.tache.expire env toujours t := by
  rcases step_cases hs with ⟨-, -, rfl⟩ | ⟨t, ht, -, hst, hdue, rfl⟩ | ⟨-, -, -, rfl⟩
  · exact .inl (CMainTask.vueArret_testeJour h.forme _)
  · by_cases harr : t.arretDe e.ucNumeroProfil = true
    · have hmem := CMainTask.mem_arrets.mpr ⟨ht, harr⟩
      exact .inr ⟨t, hmem, (Option.some.inj (h.tourne.echeance hmem)).symm, rfl⟩
    · have hlan : t.lanceurDe e.ucNumeroPlanif = false := by
        by_contra hlan
        -- a launcher is due after the end of the instance that is running
        have hE := h.attend.echeance (CMainTask.mem_lanceurs.mpr ⟨ht, by simpa using hlan⟩)
        have hordre := h.ordre _ _ hE rfl
        have := Env.lecture_mono hu z (hdue.trans (h.arret y rfl).1)
        omega
      exact .inl (vueArret_expire_autre hpl hpr he h.forme ht hst hlan (by simpa using harr))
  · exact .inl rfl

theorem Suivi.depart : Suivi env z t0 e (.depart t0) none none where
  forme := .construit t0
  cadence := .inl rfl
  attend := rfl
  tourne := rfl
  lanceur := by simp
  arret := by simp
  ordre := by simp
  servi := .inl rfl

/-! ### A window that is over at the planning instant

Such a plan is served by the first planning only, so it is launched once in a
run, whatever the launch finds. -/

variable (env) in
theorem length_lanceProfil (s : CMainTask) (p : UInt8) :
    ((s.lanceProfil env toujours e).arrets p).length ≤ (s.arrets p).length + 1 ∧
      ((s.lanceProfil env toujours e).actifs p).length ≤ (s.actifs p).length + 1 := by
  constructor
  · simp only [CMainTask.arrets, CMainTask.lanceProfil, List.filter_cons]
    split <;> simp
  · simp only [CMainTask.actifs, CMainTask.lanceProfil]
    split
    · simp only [List.filter_cons]
      split <;> simp
    · simp

/-- What a run keeps about a plan that is served once. -/
structure UneFois (env : Env) (t0 : ℤ) (e : DefPlanificationProfil) (m : Ideal)
    (E : Option ℤ) : Prop where
  forme : BienForme m.tache
  cadence : m.Cadence env t0
  attend : m.tache.Attend e.ucNumeroPlanif E
  vide : E ≠ none → m.tache.arrets e.ucNumeroProfil = [] ∧ m.tache.actifs e.ucNumeroProfil = []
  arrets : (m.tache.arrets e.ucNumeroProfil).length ≤ 1
  actifs : (m.tache.actifs e.ucNumeroProfil).length ≤ 1

theorem UneFois.congr {E E' : Option ℤ} (h : UneFois env t0 e m E)
    (hforme : BienForme m'.tache) (hcad : m'.Cadence env t0)
    (hA : m'.tache.Attend e.ucNumeroPlanif E')
    (hv : m'.tache.vueArret e.ucNumeroProfil = m.tache.vueArret e.ucNumeroProfil)
    (hE : E' ≠ none → m.tache.arrets e.ucNumeroProfil = [] ∧
      m.tache.actifs e.ucNumeroProfil = []) : UneFois env t0 e m' E' := by
  obtain ⟨harr, hact, -⟩ := CMainTask.vueArret_eq_iff.mp hv
  exact ⟨hforme, hcad, hA, by rwa [harr, hact], harr ▸ h.arrets, hact ▸ h.actifs⟩

theorem UneFois.tic_planifie (hz : env.zone = .fixe z)
    (hl : (env.stPlanifProfil.map (·.ucNumeroPlanif)).Nodup) (he : e ∈ env.stPlanifProfil)
    (hv : PlanValide e) (hzf : e.tFin ≤ z % 86400) {E : Option ℤ}
    (h : UneFois env t0 e m E) (hnow : m.tache.maintenant = m.prochainTic)
    (hinst : m = depart t0 ∨ env.time m.prochainTic % 86400 = 0)
    (hcad : Cadence env t0 (m.apresTic env (replanifie env m.tache))) :
    ∃ E', UneFois env t0 e (m.apresTic env (replanifie env m.tache)) E' := by
  have hF := vueArret_replanifie env h.forme e.ucNumeroProfil
  have hforme := bienForme_replanifie env h.forme
  rcases hinst with rfl | hmid
  · have hvide : (depart t0).tache.arrets e.ucNumeroProfil = [] ∧
        (depart t0).tache.actifs e.ucNumeroProfil = [] := ⟨rfl, rfl⟩
    obtain rfl := attend_depart h.attend
    by_cases hoff : env.lecture z (depart t0).tache.maintenant % 86400 < e.stPlanif.tDebut
    · exact ⟨_, h.congr hforme hcad (replanifie_differe hz hl he hv h.forme h.attend hoff) hF
        fun _ => hvide⟩
    · by_cases hfin : env.lecture z (depart t0).tache.maintenant % 86400 < e.tFin
      · exact ⟨_, h.congr hforme hcad (replanifie_immediat hz hl he hv h.forme h.attend
          (by omega) hfin) hF fun _ => hvide⟩
      · exact ⟨_, h.congr hforme hcad (replanifie_rien hz hl he hv h.forme h.attend
          (by omega)) hF fun _ => hvide⟩
  · have hζ : env.lecture z m.prochainTic = env.time m.prochainTic + z := rfl
    exact ⟨E, h.congr hforme hcad (replanifie_rien hz hl he hv h.forme h.attend
      (by rw [hnow]; omega)) hF h.vide⟩

theorem UneFois.step (hu : 0 < env.parSeconde) (hcal : Calendrier env)
    (hz : env.zone = .fixe z) (htab : TableValide env.stPlanifProfil)
    (he : e ∈ env.stPlanifProfil) (hzf : e.tFin ≤ z % 86400) {ev : EvtIdeal} {E : Option ℤ}
    (h : UneFois env t0 e m E) (hs : m.step env ev = some m') :
    ∃ E', UneFois env t0 e m' E' := by
  have hcad := h.cadence.step hu hcal hs
  rcases step_cases hs with ⟨rfl, hnow, rfl⟩ | ⟨t, ht, rfl, hst, hdue, rfl⟩ | ⟨rfl, -, -, rfl⟩
  · rcases testeJour_cases hu hcal h.cadence hnow with ⟨hinst, heq⟩ | ⟨-, -, -, heq⟩
    · rw [heq] at hcad ⊢
      exact h.tic_planifie hz htab.planifs he (htab.valide e he) hzf hnow hinst hcad
    · rw [heq] at hcad ⊢
      exact ⟨E, h.congr h.forme hcad h.attend rfl h.vide⟩
  · by_cases hlan : t.lanceurDe e.ucNumeroPlanif = true
    · have hmem := CMainTask.mem_lanceurs.mpr ⟨ht, hlan⟩
      obtain ⟨harr, hact⟩ := h.vide (by simp [h.attend.echeance hmem])
      have hview := CMainTask.vueArret_expire_lanceur env h.forme htab.planifs he hmem
        e.ucNumeroProfil
      obtain ⟨h1, h2⟩ := length_lanceProfil env (e := e)
        (m.tache.effaceLanceur e.ucNumeroPlanif) e.ucNumeroProfil
      rw [show (m.tache.effaceLanceur e.ucNumeroPlanif).arrets e.ucNumeroProfil = [] from
        harr] at h1
      rw [show (m.tache.effaceLanceur e.ucNumeroPlanif).actifs e.ucNumeroProfil = [] from
        hact] at h2
      have h1' := (congrArg (fun v : VueArret => v.arrets.length) hview).trans_le h1
      have h2' := (congrArg (fun v : VueArret => v.actifs.length) hview).trans_le h2
      exact ⟨none, h.forme.expire t, hcad, h.attend.expire h.forme hmem, by simp, h1', h2'⟩
    · rw [Bool.not_eq_true] at hlan
      have hE := h.attend.congr
        (CMainTask.vueLanceur_expire_of_not env h.forme ht hst hlan)
      by_cases harr : t.arretDe e.ucNumeroProfil = true
      · obtain ⟨-, q, hq, hp⟩ := TimerTache.arretDe_iff.mp harr
        have hview := CMainTask.vueArret_expire_arret env h.forme ht hq
          (hp ▸ htab.profil_ne_zero e he)
        rw [hp] at hview
        have hEn : E = none := by
          by_contra hne
          have := CMainTask.mem_arrets.mpr ⟨ht, harr⟩
          simp [(h.vide hne).1] at this
        subst hEn
        obtain ⟨harr', hact', -⟩ := CMainTask.vueArret_eq_iff.mp hview
        refine ⟨none, h.forme.expire t, hcad, hE, by simp, ?_, ?_⟩
        · show (CMainTask.arrets _ _).length ≤ 1
          rw [harr']
          exact (List.length_filter_le _ _).trans h.arrets
        · show (CMainTask.actifs _ _).length ≤ 1
          rw [hact']
          exact (List.length_filter_le _ _).trans h.actifs
      · rw [Bool.not_eq_true] at harr
        exact ⟨E, h.congr (h.forme.expire t) hcad hE
          (htab.vueArret_expire he h.forme ht hst hlan harr) h.vide⟩
  · exact ⟨E, h.congr { h.forme with } hcad (h.attend.congr rfl) rfl h.vide⟩

theorem UneFois.depart : UneFois env t0 e (.depart t0) none where
  forme := .construit t0
  cadence := .inl rfl
  attend := rfl
  vide := by simp
  arrets := by simp [Ideal.depart, CMainTask.construit, CMainTask.arrets]
  actifs := by simp [Ideal.depart, CMainTask.construit, CMainTask.actifs]

/-! ### At most one instance -/

theorem length_of_tourne {s : CMainTask} {p : UInt8} {F : Option ℤ} (h : s.Tourne p F) :
    (s.actifs p).length ≤ 1 ∧ (s.arrets p).length ≤ 1 := by
  cases F with
  | none =>
      obtain ⟨harr, hact, -⟩ := CMainTask.vueArret_eq_iff.mp h
      simp [harr, hact]
  | some y =>
      obtain ⟨t, i, q, hv, -⟩ := h
      obtain ⟨harr, hact, -⟩ := CMainTask.vueArret_eq_iff.mp hv
      simp [harr, hact]

/-- In every state of every run whose plannings do not meet an instance of a
plan, the profile of the plan has at most one running instance and at most one
armed stop timer. -/
theorem au_plus_une_instance (env : Env) (z t0 : ℤ) (hu : 0 < env.parSeconde)
    (hcal : Calendrier env) (hz : env.zone = .fixe z) (htab : TableValide env.stPlanifProfil)
    (m : Ideal) (hm : Atteint env t0 m) (e : DefPlanificationProfil)
    (he : e ∈ env.stPlanifProfil) (hsd : SansDoublon env z t0 e) :
    (m.tache.actifs e.ucNumeroProfil).length ≤ 1 ∧
      (m.tache.arrets e.ucNumeroProfil).length ≤ 1 := by
  rcases lt_or_ge (z % 86400) e.tFin with hzf | hzf
  · obtain ⟨E, F, h⟩ := hm.invariant (I := fun m => ∃ E F, Suivi env z t0 e m E F)
      ⟨none, none, .depart⟩ fun m ev m' ⟨E, F, h⟩ hs => h.step hu hcal hz htab he hsd hzf hs
    exact length_of_tourne h.tourne
  · obtain ⟨E, h⟩ := hm.invariant (I := fun m => ∃ E, UneFois env t0 e m E)
      ⟨none, .depart⟩ fun m ev m' ⟨E, h⟩ hs => h.step hu hcal hz htab he hzf hs
    exact ⟨h.actifs, h.arrets⟩

/-- A window from 8 to 20, in a zone one hour east of UTC, is launched at once by
a task that starts at 9. -/
theorem une_instance_huit_vingt :
    let r := Execution.exec (step (.zoneFixe 1 3600 [.planifie 1 1 28800 43200]))
      (depart 28800) [.tic, .expire 2]
    ((r.get rfl).tache.actifs 1).length ≤ 1 ∧ ((r.get rfl).tache.arrets 1).length ≤ 1 :=
  au_plus_une_instance (.zoneFixe 1 3600 [.planifie 1 1 28800 43200]) 3600 28800 (by decide)
    (Env.calendrier_zoneFixe _ _ _) rfl
    (.seule ⟨by decide, by decide, by decide, by decide⟩ (by decide)) _
    ⟨[.tic, .expire 2], (Option.some_get _).symm⟩ (.planifie 1 1 28800 43200)
    (List.mem_singleton_self _) ⟨by decide, by decide, by decide⟩

/-- A window from midnight to 2, in the same zone: the day of `gmtime` changes at
1, inside the window. The task starts one second before, launches the plan, and
launches it again at the next test. -/
theorem deux_instances_minuit_utc :
    let env := Env.zoneFixe 1 3600 [.planifie 1 1 0 7200]
    TableValide env.stPlanifProfil ∧
      (Execution.exec (step env) (depart 86399) [.tic, .expire 2, .avance, .tic, .expire 7]).map
        (fun m => ((m.tache.actifs 1).length, (m.tache.arrets 1).length)) = some (2, 2) :=
  ⟨.seule ⟨by decide, by decide, by decide, by decide⟩ (by decide), by decide⟩

end Ideal

end GestAqua
