import GestAqua.Planning.Phases

/-!
When the ideal machine plans.

The main task tests once per second, and the day of `gmtime` changes between two
tests exactly when the second of the later one is a multiple of 86400. So after
the first test, planning takes place once a day, when the local time of day is
the offset of the zone (`testeJour_cases`).
-/

namespace GestAqua

/-- What is used of `gmtime`: `tm_yday` is never negative and changes at UTC
midnight. -/
structure Calendrier (env : Env) : Prop where
  nonneg : ∀ d, 0 ≤ env.tmYday d
  change : ∀ d, env.tmYday (d + 1) ≠ env.tmYday d

theorem Env.calendrier_zoneFixe (u : ℕ) (z : ℤ) (l : List DefPlanificationProfil) :
    Calendrier (zoneFixe u z l) where
  nonneg d := Int.emod_nonneg d (by decide)
  change d := by
    show (d + 1) % 365 ≠ d % 365
    omega

/-- A plan that is not disabled, with a window that lies within one day. -/
structure PlanValide (e : DefPlanificationProfil) : Prop where
  planif_ne_zero : e.ucNumeroPlanif ≠ 0
  debut_nonneg : 0 ≤ e.stPlanif.tDebut
  periode_pos : 0 < e.stPlanif.tPeriod
  fin_le : e.tFin ≤ 86400

theorem PlanValide.debut_lt_fin {e : DefPlanificationProfil} (h : PlanValide e) :
    e.stPlanif.tDebut < e.tFin :=
  Int.lt_add_of_pos_right _ h.periode_pos

/-- Seconds on the local clock of a zone with constant offset `z`. -/
def Env.lecture (env : Env) (z t : ℤ) : ℤ := env.time t + z

theorem Env.lecture_add {env : Env} (hu : 0 < env.parSeconde) (z t k : ℤ) :
    env.lecture z (t + k * env.parSeconde) = env.lecture z t + k := by
  rw [lecture, lecture, time_add hu]
  omega

theorem Env.lecture_tic {env : Env} (hu : 0 < env.parSeconde) (z t : ℤ) :
    env.lecture z (t + env.parSeconde) = env.lecture z t + 1 := by
  simpa using lecture_add hu z t 1

theorem Env.lecture_mono {env : Env} (hu : 0 < env.parSeconde) (z : ℤ) {t t' : ℤ}
    (h : t ≤ t') : env.lecture z t ≤ env.lecture z t' :=
  Int.add_le_add_right (time_mono hu h) z

theorem Env.duree_immediat_lt (env : Env) (hu : 0 < env.parSeconde) :
    env.duree 100 < env.parSeconde := by
  rw [duree, microSec_eq]
  omega

theorem Env.lecture_immediat_le {env : Env} (hu : 0 < env.parSeconde) (z t : ℤ) :
    env.lecture z (t + env.duree 100) ≤ env.lecture z t + 1 := by
  have hc := duree_immediat_lt env hu
  calc env.lecture z (t + env.duree 100)
      ≤ env.lecture z (t + env.parSeconde) := lecture_mono hu z (by omega)
    _ = env.lecture z t + 1 := lecture_tic hu z t

/-- At the instants of the tests that are far enough from the end of their
second, the hundred microseconds stay in the second. -/
theorem Env.lecture_immediat {env : Env} (hu : 0 < env.parSeconde) (z : ℤ) {t t0 : ℤ}
    (hphase : t % env.parSeconde = t0 % env.parSeconde)
    (hc : t0 % env.parSeconde + env.duree 100 < env.parSeconde) :
    env.lecture z (t + env.duree 100) = env.lecture z t := by
  have hpos : (0 : ℤ) ≤ t % env.parSeconde + env.duree 100 := by
    have h0 := env.duree_nonneg 100
    have h1 := Int.emod_nonneg t (b := env.parSeconde) (by omega)
    omega
  have hsplit : t + env.duree 100 =
      t % env.parSeconde + env.duree 100 + t / env.parSeconde * env.parSeconde := by
    have := Int.emod_add_mul_ediv t env.parSeconde
    rw [Int.mul_comm] at this
    omega
  rw [lecture, lecture, time, time, hsplit, Int.add_mul_ediv_right _ _ (by omega),
    Int.ediv_eq_zero_of_lt hpos (by omega), Int.zero_add]

theorem CMainTask.tOffsetMidnight_eq {env : Env} {z : ℤ} (hz : env.zone = .fixe z)
    (s : CMainTask) : s.tOffsetMidnight env = env.lecture z s.maintenant % 86400 := by
  rw [tOffsetMidnight, tGetOffsetFromMidnight_eq, hz, heureLocale_fixe]
  rfl

namespace Ideal

variable {env : Env} {z t0 : ℤ} {m m' : Ideal}

/-- Before the first test nothing has happened; afterwards the clock is within a
second of the last test, whose day is recorded. -/
def Cadence (env : Env) (t0 : ℤ) (m : Ideal) : Prop :=
  m = depart t0 ∨
    (∃ k : ℕ, m.prochainTic = t0 + (k + 1) * env.parSeconde) ∧
      m.prochainTic - env.parSeconde ≤ m.tache.maintenant ∧
      m.tache.maintenant ≤ m.prochainTic ∧
      m.tache.sLastDay = env.tmYday (env.time (m.prochainTic - env.parSeconde) / 86400)

theorem Cadence.maintenant_le (h : Cadence env t0 m) : m.tache.maintenant ≤ m.prochainTic := by
  rcases h with rfl | ⟨-, -, h, -⟩
  · exact le_rfl
  · exact h

theorem Cadence.depart_le (h : Cadence env t0 m) : t0 ≤ m.prochainTic := by
  rcases h with rfl | ⟨⟨k, hk⟩, -⟩
  · exact le_rfl
  · have : 0 ≤ ((k : ℤ) + 1) * env.parSeconde := by positivity
    omega

variable (t0) in
theorem ne_depart {t : TimerTache} (ht : t ∈ m.tache.timers) : m ≠ depart t0 := by
  rintro rfl
  simp [depart, CMainTask.construit] at ht

theorem attend_depart {n : UInt8} {x : Option ℤ} (h : (depart t0).tache.Attend n x) :
    x = none := by
  cases x with
  | none => rfl
  | some x =>
      obtain ⟨t, ht, -⟩ := h.mem
      exact absurd rfl (ne_depart t0 (CMainTask.mem_lanceurs.mp ht).1)

/-- The tests are all at the same phase of their second. -/
theorem Cadence.phase (h : Cadence env t0 m) :
    m.prochainTic % env.parSeconde = t0 % env.parSeconde := by
  rcases h with rfl | ⟨⟨k, hk⟩, -⟩
  · rfl
  · rw [hk, Int.add_mul_emod_self_right]

def replanifie (env : Env) (s : CMainTask) : CMainTask :=
  ({ s with sLastDay := env.tmYday (env.time s.maintenant / 86400) }.iInitPlanification env
    toujours (some env.stPlanifProfil)).2

@[simp] theorem sLastDay_planifieEntree (cree : ℕ → Bool) (off : ℤ) (s : CMainTask)
    (e : DefPlanificationProfil) :
    (s.planifieEntree env cree off e).sLastDay = s.sLastDay := by
  have hremplace : (s.remplaceLanceur e.ucNumeroPlanif).sLastDay = s.sLastDay := by
    unfold CMainTask.remplaceLanceur
    split <;> rfl
  unfold CMainTask.planifieEntree
  split
  · rfl
  · split
    · exact hremplace
    · split <;> rfl

theorem sLastDay_replanifie (s : CMainTask) :
    (replanifie env s).sLastDay = env.tmYday (env.time s.maintenant / 86400) :=
  Folds.foldl_invariant
    (I := fun r : CMainTask => r.sLastDay = env.tmYday (env.time s.maintenant / 86400))
    (fun r e _ hr => by rw [sLastDay_planifieEntree, hr]) rfl

@[simp] theorem maintenant_replanifie (s : CMainTask) :
    (replanifie env s).maintenant = s.maintenant :=
  CMainTask.maintenant_iInitPlanification toujours _

theorem sLastDay_expire {cree : ℕ → Bool} (s : CMainTask) (t : TimerTache) :
    (s.expire env cree t).sLastDay = s.sLastDay := by
  show (s.rappelle env cree t.timer.hObjetAttache).sLastDay = _
  unfold CMainTask.rappelle
  split
  · show (s.iStartProfil env cree _).2.sLastDay = _
    unfold CMainTask.iStartProfil
    split
    · refine Folds.foldl_invariant
        (I := fun r : CMainTask => r.sLastDay = s.sLastDay) (fun r e _ hr => ?_) rfl
      split <;> exact hr
    · rfl
  · show (s.iStopProfil _ _).2.sLastDay = _
    unfold CMainTask.iStopProfil
    split <;> rfl
  · rfl

/-- The machine after a test that leaves the task in the state `s`. -/
def apresTic (env : Env) (m : Ideal) (s : CMainTask) : Ideal :=
  { m with tache := s, prochainTic := m.prochainTic + env.parSeconde }

variable (env) in
theorem bienForme_replanifie {s : CMainTask} (h : BienForme s) :
    BienForme (replanifie env s) := by
  exact (h.jour _).iInitPlanification _

section Replanification

variable {s : CMainTask} {e : DefPlanificationProfil} {x : Option ℤ}

/-- A planning before the window arms the launcher for the start of the window. -/
theorem replanifie_differe (hz : env.zone = .fixe z)
    (hl : (env.stPlanifProfil.map (·.ucNumeroPlanif)).Nodup) (he : e ∈ env.stPlanifProfil)
    (hv : PlanValide e) (h : BienForme s) (hA : s.Attend e.ucNumeroPlanif x)
    (hoff : env.lecture z s.maintenant % 86400 < e.stPlanif.tDebut) :
    (replanifie env s).Attend e.ucNumeroPlanif (some (s.maintenant +
      (e.stPlanif.tDebut - env.lecture z s.maintenant % 86400) * env.parSeconde)) := by
  have hmid := CMainTask.tOffsetMidnight_eq hz
    { s with sLastDay := env.tmYday (env.time s.maintenant / 86400) }
  have hdf := hv.debut_lt_fin
  have hf := hv.fin_le
  rw [← hmid] at hoff ⊢
  refine CMainTask.Attend.differe (h.jour _) hl he hv.planif_ne_zero (hA.congr rfl) hoff ?_
  rw [hmid]
  omega

theorem replanifie_immediat (hz : env.zone = .fixe z)
    (hl : (env.stPlanifProfil.map (·.ucNumeroPlanif)).Nodup) (he : e ∈ env.stPlanifProfil)
    (hv : PlanValide e) (h : BienForme s) (hA : s.Attend e.ucNumeroPlanif none)
    (hoff : e.stPlanif.tDebut ≤ env.lecture z s.maintenant % 86400)
    (hfin : env.lecture z s.maintenant % 86400 < e.tFin) :
    (replanifie env s).Attend e.ucNumeroPlanif (some (s.maintenant + env.duree 100)) := by
  have hmid := CMainTask.tOffsetMidnight_eq hz
    { s with sLastDay := env.tmYday (env.time s.maintenant / 86400) }
  rw [← hmid] at hoff hfin
  exact CMainTask.Attend.immediat (h.jour _) hl he hv.planif_ne_zero (hA.congr rfl) hoff hfin

theorem replanifie_rien (hz : env.zone = .fixe z)
    (hl : (env.stPlanifProfil.map (·.ucNumeroPlanif)).Nodup) (he : e ∈ env.stPlanifProfil)
    (hv : PlanValide e) (h : BienForme s) (hA : s.Attend e.ucNumeroPlanif x)
    (hfin : e.tFin ≤ env.lecture z s.maintenant % 86400) :
    (replanifie env s).Attend e.ucNumeroPlanif x := by
  have hmid := CMainTask.tOffsetMidnight_eq hz
    { s with sLastDay := env.tmYday (env.time s.maintenant / 86400) }
  have hdf := hv.debut_lt_fin
  rw [← hmid] at hfin
  exact hA.congr (CMainTask.vueLanceur_rien (h.jour _) hl he (by omega) hfin)

/-- The launchers of the plan after a planning: at most one new one, and some of
those that were armed. -/
theorem lanceurs_replanifie (hz : env.zone = .fixe z)
    (hl : (env.stPlanifProfil.map (·.ucNumeroPlanif)).Nodup) (he : e ∈ env.stPlanifProfil)
    (hv : PlanValide e) (h : BienForme s) :
    ∃ l, (∀ u ∈ l, u ∈ s.lanceurs e.ucNumeroPlanif) ∧
      (e.tFin ≤ env.lecture z s.maintenant % 86400 ∧
          (replanifie env s).lanceurs e.ucNumeroPlanif = l ∨
        ∃ t, (replanifie env s).lanceurs e.ucNumeroPlanif = t :: l ∧
          (env.lecture z s.maintenant % 86400 < e.stPlanif.tDebut ∧
              t.echeance = s.maintenant +
                (e.stPlanif.tDebut - env.lecture z s.maintenant % 86400) * env.parSeconde ∨
            e.stPlanif.tDebut ≤ env.lecture z s.maintenant % 86400 ∧
              env.lecture z s.maintenant % 86400 < e.tFin ∧
              t.echeance = s.maintenant + env.duree 100)) := by
  have hmid := CMainTask.tOffsetMidnight_eq hz
    { s with sLastDay := env.tmYday (env.time s.maintenant / 86400) }
  have hdf := hv.debut_lt_fin
  have hf := hv.fin_le
  rw [← hmid]
  rcases lt_or_ge (CMainTask.tOffsetMidnight env
    { s with sLastDay := env.tmYday (env.time s.maintenant / 86400) }) e.stPlanif.tDebut with
    hoff | hoff
  · obtain ⟨t, hview, hech⟩ := CMainTask.vueLanceur_differe env (h.jour _) hl he
      hv.planif_ne_zero hoff (by rw [hmid]; omega)
    exact ⟨_, fun u hu => List.mem_of_mem_filter hu,
      .inr ⟨t, (CMainTask.vueLanceur_eq_iff.mp hview).1, .inl ⟨hoff, hech⟩⟩⟩
  · rcases lt_or_ge (CMainTask.tOffsetMidnight env
      { s with sLastDay := env.tmYday (env.time s.maintenant / 86400) }) e.tFin with hfin | hfin
    · obtain ⟨t, hview, hech⟩ := CMainTask.vueLanceur_immediat env (h.jour _) hl he
        hv.planif_ne_zero hoff hfin
      exact ⟨_, fun u hu => hu,
        .inr ⟨t, (CMainTask.vueLanceur_eq_iff.mp hview).1, .inr ⟨hoff, hfin, hech⟩⟩⟩
    · have hview := CMainTask.vueLanceur_rien (h.jour _) hl he hoff hfin
      exact ⟨_, fun u hu => hu, .inl ⟨hfin, (CMainTask.vueLanceur_eq_iff.mp hview).1⟩⟩

variable (env) in
theorem vueArret_replanifie (h : BienForme s) (p : UInt8) :
    (replanifie env s).vueArret p = s.vueArret p := by
  exact CMainTask.vueArret_iInitPlanification (h.jour _) p _

end Replanification

def apresExpire (env : Env) (m : Ideal) (t : TimerTache) : Ideal :=
  { m with
    tache := m.tache.expire env toujours t
    lancements := ((lancement t).map fun n => (m.tache.maintenant, n)).toList ++ m.lancements }

/-! ### The days that have been planned for -/

/-- A day has been planned for: its planning instant has passed, or it is the day
of the first test and its planning instant is still to come. -/
def Planifie (env : Env) (z t0 : ℤ) (m : Ideal) (N : ℤ) : Prop :=
  86400 * N + z % 86400 ≤ env.lecture z m.prochainTic - 1 ∨
    N = env.lecture z t0 / 86400 ∧ env.lecture z t0 % 86400 < z % 86400

theorem Planifie.tic (hu : 0 < env.parSeconde) {N : ℤ} (h : Planifie env z t0 m N)
    (s : CMainTask) : Planifie env z t0 (m.apresTic env s) N := by
  have hlec := Env.lecture_tic hu z m.prochainTic
  rcases h with h | h
  · left
    dsimp only [apresTic]
    omega
  · exact .inr h

theorem Planifie.tic_instant (hu : 0 < env.parSeconde)
    (hinst : m = depart t0 ∨ env.time m.prochainTic % 86400 = 0) (s : CMainTask) :
    Planifie env z t0 (m.apresTic env s) (env.lecture z m.prochainTic / 86400) := by
  have hlec := Env.lecture_tic hu z m.prochainTic
  have hζ : env.lecture z m.prochainTic = env.time m.prochainTic + z := rfl
  rcases hinst with rfl | hmid
  · by_cases ho : env.lecture z t0 % 86400 < z % 86400
    · exact .inr ⟨rfl, ho⟩
    · left
      simp only [depart, apresTic] at hlec ⊢
      omega
  · left
    dsimp only [apresTic]
    omega

/-! ### The instants at which a test plans -/

/-- A test plans when it is the first or the first of its UTC day, and otherwise
does nothing. -/
theorem testeJour_cases (hu : 0 < env.parSeconde) (hcal : Calendrier env)
    (h : Cadence env t0 m) (hnow : m.tache.maintenant = m.prochainTic) :
    ((m = depart t0 ∨ env.time m.prochainTic % 86400 = 0) ∧
      m.tache.testeJour env toujours = replanifie env m.tache) ∨
    ((∃ k : ℕ, m.prochainTic = t0 + (k + 1) * env.parSeconde) ∧
      env.time m.prochainTic % 86400 ≠ 0 ∧
      env.time m.prochainTic / 86400 = env.time (m.prochainTic - env.parSeconde) / 86400 ∧
      m.tache.testeJour env toujours = m.tache) := by
  have hplan : env.tmYday (env.time m.tache.maintenant / 86400) ≠ m.tache.sLastDay →
      m.tache.testeJour env toujours = replanifie env m.tache := by
    intro hne
    rw [CMainTask.testeJour]
    exact if_pos hne
  rcases h with hdep | ⟨hk, -, -, hday⟩
  · refine .inl ⟨.inl hdep, hplan ?_⟩
    have := hcal.nonneg (env.time m.tache.maintenant / 86400)
    rw [hdep] at this ⊢
    show _ ≠ (-1 : ℤ)
    omega
  · have hprev : env.time (m.prochainTic - env.parSeconde) = env.time m.prochainTic - 1 := by
      have := Env.time_add hu m.prochainTic (-1)
      rw [show m.prochainTic - env.parSeconde = m.prochainTic + -1 * env.parSeconde by omega, this]
      omega
    by_cases hmid : env.time m.prochainTic % 86400 = 0
    · refine .inl ⟨.inr hmid, hplan ?_⟩
      rw [hnow, hday, hprev]
      have hsucc : env.time m.prochainTic / 86400 =
          (env.time m.prochainTic - 1) / 86400 + 1 := by omega
      rw [hsucc]
      exact hcal.change _
    · have hsame : env.time m.prochainTic / 86400 =
          env.time (m.prochainTic - env.parSeconde) / 86400 := by
        rw [hprev]
        omega
      refine .inr ⟨hk, hmid, hsame, ?_⟩
      rw [CMainTask.testeJour]
      exact if_neg (by rw [hnow, hday, hsame]; simp)

theorem Cadence.step (hu : 0 < env.parSeconde) (hcal : Calendrier env) {e : EvtIdeal}
    (h : Cadence env t0 m) (hs : m.step env e = some m') : Cadence env t0 m' := by
  rcases step_cases hs with ⟨rfl, hnow, rfl⟩ | ⟨t, ht, rfl, hst, hdue, rfl⟩ |
    ⟨rfl, hlt, -, rfl⟩
  · right
    have hk : ∃ k : ℕ, m.prochainTic + env.parSeconde = t0 + (k + 1) * env.parSeconde := by
      rcases h with rfl | ⟨⟨k, hk⟩, -⟩
      · exact ⟨0, by simp [depart]⟩
      · refine ⟨k + 1, ?_⟩
        rw [hk]
        push_cast
        ring
    have hback : m.prochainTic + env.parSeconde - env.parSeconde = m.prochainTic := by omega
    refine ⟨hk, ?_⟩
    dsimp only
    rw [hback]
    rcases testeJour_cases hu hcal h hnow with ⟨-, heq⟩ | ⟨hk', -, hsame, heq⟩
    · rw [heq, maintenant_replanifie, sLastDay_replanifie, hnow]
      exact ⟨le_rfl, by omega, rfl⟩
    · rw [heq, hnow, hsame]
      rcases h with rfl | ⟨-, -, -, hday⟩
      · obtain ⟨k, hk'⟩ := hk'
        simp only [depart] at hk'
        have : (0 : ℤ) < (k + 1) * env.parSeconde := by positivity
        omega
      · exact ⟨le_rfl, by omega, hday⟩
  · rcases h with rfl | ⟨hk, hlo, hhi, hday⟩
    · simp [depart, CMainTask.construit] at ht
    · refine .inr ⟨hk, ?_⟩
      exact ⟨by simpa using hlo, by simpa using hhi, (sLastDay_expire _ t).trans hday⟩
  · rcases h with rfl | ⟨hk, hlo, hhi, hday⟩
    · simp [depart, CMainTask.construit] at hlt
    · exact .inr ⟨hk, by dsimp only; omega, by dsimp only; omega, hday⟩

end Ideal

end GestAqua
