import GestAqua.Planning.Cadence

/-!
Launches on the days of the local zone.

Planning takes place when the day of `gmtime` changes, which in a zone with
offset `z` is at `z % 86400` seconds after local midnight; the offsets of the
table are compared with the local time of day. A plan whose window begins before
the planning instant is launched at the planning instant, or not at all.
`RepriseALHeure` is a requirement on the zone, the plan and the first test under
which every launch after the first day is on time.
-/

namespace GestAqua

namespace Ideal

variable {env : Env} {z t0 : ℤ} {e : DefPlanificationProfil} {m m' : Ideal}

/-- The launches of a plan on a local day, by the local clock. -/
def lancementsDuJour (env : Env) (z : ℤ) (n : UInt8) (N : ℤ) (m : Ideal) : List ℤ :=
  (m.lancements.filter fun l => l.2 = n ∧ env.lecture z l.1 / 86400 = N).map
    fun l => env.lecture z l.1

def armesDuJour (env : Env) (z : ℤ) (n : UInt8) (N : ℤ) (m : Ideal) : List TimerTache :=
  (m.tache.lanceurs n).filter fun t => env.lecture z t.echeance / 86400 = N

/-- On the local day `N` the plan is launched at the start of its window, up to
one second of latency, once and at no other time. -/
structure ALHeure (env : Env) (z : ℤ) (e : DefPlanificationProfil) (m : Ideal) (N : ℤ) :
    Prop where
  heure : ∀ r ∈ lancementsDuJour env z e.ucNumeroPlanif N m,
    86400 * N + e.stPlanif.tDebut ≤ r ∧ r ≤ 86400 * N + e.stPlanif.tDebut + 1
  unique : (lancementsDuJour env z e.ucNumeroPlanif N m).length ≤ 1
  lance : 86400 * N + e.stPlanif.tDebut + 1 < env.lecture z m.tache.maintenant →
    lancementsDuJour env z e.ucNumeroPlanif N m ≠ []

/-- The planning instant of the zone is not after the start of the window, but
for a latency of one second; and an immediate launch in the last second of a day
stays in it. -/
structure RepriseALHeure (env : Env) (z t0 : ℤ) (e : DefPlanificationProfil) : Prop where
  debut : z % 86400 ≤ e.stPlanif.tDebut ∨
    z % 86400 = e.stPlanif.tDebut + 1 ∧ z % 86400 < e.tFin ∧
      t0 % env.parSeconde + env.duree 100 < env.parSeconde
  minuit : (env.lecture z t0 % 86400 = 86399 ∧ e.tFin = 86400) ∨ z % 86400 = 86399 →
    t0 % env.parSeconde + env.duree 100 < env.parSeconde

/-- What a run keeps about the launches of one plan: a day after the first that
has been planned for has either one launch or one launcher, a day that has not
been planned for has none. -/
structure Ponctuel (env : Env) (z t0 : ℤ) (e : DefPlanificationProfil) (m : Ideal) :
    Prop where
  forme : BienForme m.tache
  cadence : m.Cadence env t0
  lanceur : ∀ t ∈ m.tache.lanceurs e.ucNumeroPlanif, m.tache.maintenant ≤ t.echeance ∧
    (env.lecture z t.echeance % 86400 = e.stPlanif.tDebut ∨ t.echeance < m.prochainTic) ∧
    Planifie env z t0 m (env.lecture z t.echeance / 86400) ∧
    (env.lecture z t0 / 86400 < env.lecture z t.echeance / 86400 →
      e.stPlanif.tDebut ≤ env.lecture z t.echeance % 86400 ∧
        env.lecture z t.echeance % 86400 ≤ e.stPlanif.tDebut + 1)
  heure : ∀ N, env.lecture z t0 / 86400 < N →
    ∀ r ∈ lancementsDuJour env z e.ucNumeroPlanif N m,
      86400 * N + e.stPlanif.tDebut ≤ r ∧ r ≤ 86400 * N + e.stPlanif.tDebut + 1
  prevu : ∀ N, env.lecture z t0 / 86400 < N →
    86400 * N + z % 86400 ≤ env.lecture z m.prochainTic - 1 →
    (lancementsDuJour env z e.ucNumeroPlanif N m = [] ∧
        ∃ t, armesDuJour env z e.ucNumeroPlanif N m = [t]) ∨
      ((∃ r, lancementsDuJour env z e.ucNumeroPlanif N m = [r]) ∧
        armesDuJour env z e.ucNumeroPlanif N m = [])
  imprevu : ∀ N, env.lecture z t0 / 86400 < N →
    env.lecture z m.prochainTic - 1 < 86400 * N + z % 86400 →
    lancementsDuJour env z e.ucNumeroPlanif N m = [] ∧
      armesDuJour env z e.ucNumeroPlanif N m = []

/-! ### The log -/

theorem lancement_eq_some {t : TimerTache} {n : UInt8} (hst : t.timer.bStarted = true) :
    lancement t = some n ↔ t.lanceurDe n = true := by
  rw [TimerTache.lanceurDe_iff]
  unfold lancement
  split <;> simp_all

variable (env) in
theorem lancementsDuJour_expire {t : TimerTache} (hst : t.timer.bStarted = true) (n : UInt8)
    (N : ℤ) :
    lancementsDuJour env z n N (m.apresExpire env t) =
      if t.lanceurDe n = true ∧ env.lecture z m.tache.maintenant / 86400 = N then
        env.lecture z m.tache.maintenant :: lancementsDuJour env z n N m
      else lancementsDuJour env z n N m := by
  have hlog := lancement_eq_some (n := n) hst
  simp only [lancementsDuJour, apresExpire]
  cases hl : lancement t with
  | none =>
      have hn : t.lanceurDe n ≠ true := fun h => by simp [hlog.mpr h] at hl
      simp [hn]
  | some k =>
      rw [hl, Option.some.injEq] at hlog
      by_cases hk : k = n <;>
        by_cases hN : env.lecture z m.tache.maintenant / 86400 = N <;>
        simp [← hlog, hk, hN]

variable (env) in
theorem armesDuJour_expire (h : BienForme m.tache) {n : UInt8} {t : TimerTache}
    (ht : t ∈ m.tache.lanceurs n) (N : ℤ) :
    armesDuJour env z n N (m.apresExpire env t) =
      (armesDuJour env z n N m).filter (·.adresse ≠ t.adresse) := by
  rw [armesDuJour, apresExpire, CMainTask.lanceurs_expire h ht, armesDuJour, List.filter_filter,
    List.filter_filter]
  exact List.filter_congr fun u _ => Bool.and_comm _ _

/-! ### One step -/

theorem Ponctuel.congr (h : Ponctuel env z t0 e m) (hforme : BienForme m'.tache)
    (hcad : m'.Cadence env t0) (htic : m'.prochainTic = m.prochainTic)
    (hlan : m'.tache.lanceurs e.ucNumeroPlanif = m.tache.lanceurs e.ucNumeroPlanif)
    (hnow : ∀ t ∈ m.tache.lanceurs e.ucNumeroPlanif, m'.tache.maintenant ≤ t.echeance)
    (hlog : ∀ N, lancementsDuJour env z e.ucNumeroPlanif N m' =
      lancementsDuJour env z e.ucNumeroPlanif N m) : Ponctuel env z t0 e m' := by
  have harm : ∀ N, armesDuJour env z e.ucNumeroPlanif N m' =
      armesDuJour env z e.ucNumeroPlanif N m := fun N => by rw [armesDuJour, hlan, armesDuJour]
  refine ⟨hforme, hcad, fun t ht => ?_, ?_, ?_, ?_⟩
  · rw [hlan] at ht
    refine ⟨hnow t ht, ?_⟩
    rw [Planifie, htic]
    exact (h.lanceur t ht).2
  · simpa only [hlog] using h.heure
  · simpa only [hlog, harm, htic] using h.prevu
  · simpa only [hlog, harm, htic] using h.imprevu

theorem Ponctuel.tic_rien (hu : 0 < env.parSeconde) (h : Ponctuel env z t0 e m)
    (hmid : env.time m.prochainTic % 86400 ≠ 0)
    (hcad : Cadence env t0 (m.apresTic env m.tache)) :
    Ponctuel env z t0 e (m.apresTic env m.tache) := by
  have hlec := Env.lecture_tic hu z m.prochainTic
  have hζ : env.lecture z m.prochainTic = env.time m.prochainTic + z := rfl
  refine ⟨h.forme, hcad, fun t ht => ?_, h.heure, fun N hN hP => h.prevu N hN ?_,
    fun N hN hP => h.imprevu N hN ?_⟩
  · obtain ⟨h1, h2, h3, h4⟩ := h.lanceur t ht
    refine ⟨h1, h2.imp id fun h2 => ?_, h3.tic hu m.tache, h4⟩
    dsimp only [apresTic]
    omega
  · dsimp only [apresTic] at hP
    omega
  · dsimp only [apresTic] at hP
    omega

/-- At a planning instant after the first, the launchers that are still armed
belong to the first day. -/
theorem Ponctuel.tic_lanceur (hu : 0 < env.parSeconde) (hv : PlanValide e)
    (h : Ponctuel env z t0 e m) (hnow : m.tache.maintenant = m.prochainTic)
    (hmid : env.time m.prochainTic % 86400 = 0) {t : TimerTache}
    (ht : t ∈ m.tache.lanceurs e.ucNumeroPlanif) :
    env.lecture z t.echeance / 86400 = env.lecture z t0 / 86400 := by
  obtain ⟨hle, hdeb, hjour, -⟩ := h.lanceur t ht
  have hT : env.lecture z m.prochainTic ≤ env.lecture z t.echeance :=
    Env.lecture_mono hu z (hnow ▸ hle)
  have := hv.fin_le
  have := hv.debut_lt_fin
  have hζ : env.lecture z m.prochainTic = env.time m.prochainTic + z := rfl
  rcases hjour with hj | ⟨hj, -⟩ <;> omega

theorem RepriseALHeure.nouveau (hu : 0 < env.parSeconde) (hv : PlanValide e)
    (hr : RepriseALHeure env z t0 e) (hcad : m.Cadence env t0)
    (hinst : m = depart t0 ∨ env.time m.prochainTic % 86400 = 0) {x : ℤ}
    (hx : env.lecture z m.prochainTic % 86400 < e.stPlanif.tDebut ∧
        x = m.prochainTic +
          (e.stPlanif.tDebut - env.lecture z m.prochainTic % 86400) * env.parSeconde ∨
      e.stPlanif.tDebut ≤ env.lecture z m.prochainTic % 86400 ∧
        env.lecture z m.prochainTic % 86400 < e.tFin ∧ x = m.prochainTic + env.duree 100) :
    m.prochainTic ≤ x ∧
      (env.lecture z x % 86400 = e.stPlanif.tDebut ∨ x < m.prochainTic + env.parSeconde) ∧
      env.lecture z x / 86400 = env.lecture z m.prochainTic / 86400 ∧
      (env.lecture z t0 / 86400 < env.lecture z x / 86400 →
        e.stPlanif.tDebut ≤ env.lecture z x % 86400 ∧
          env.lecture z x % 86400 ≤ e.stPlanif.tDebut + 1) := by
  have hdf := hv.debut_lt_fin
  have hf := hv.fin_le
  have hζ : env.lecture z m.prochainTic = env.time m.prochainTic + z := rfl
  rcases hx with ⟨hoff, rfl⟩ | ⟨hoff, hfin, rfl⟩
  · have hlec := Env.lecture_add hu z m.prochainTic
      (e.stPlanif.tDebut - env.lecture z m.prochainTic % 86400)
    have : 0 ≤ (e.stPlanif.tDebut - env.lecture z m.prochainTic % 86400) *
        env.parSeconde := by
      have : 0 ≤ e.stPlanif.tDebut - env.lecture z m.prochainTic % 86400 := by omega
      positivity
    rw [hlec]
    refine ⟨by omega, .inl (by omega), by omega, fun _ => by omega⟩
  · have h100 := env.duree_nonneg 100
    have hlt := Env.duree_immediat_lt env hu
    have hle := Env.lecture_immediat_le hu z m.prochainTic
    have hge : env.lecture z m.prochainTic ≤ env.lecture z (m.prochainTic + env.duree 100) :=
      Env.lecture_mono hu z (by omega)
    have hcross := fun hc => Env.lecture_immediat hu z hcad.phase hc
    have hdebut := hr.debut
    have hminuit := hr.minuit
    rcases hinst with rfl | hmid
    · have h0 : env.lecture z (depart t0).prochainTic = env.lecture z t0 := rfl
      refine ⟨by omega, .inr (by omega), ?_, ?_⟩
      · by_cases hlast : env.lecture z t0 % 86400 = 86399
        · rw [hcross (hminuit (.inl ⟨hlast, by omega⟩))]
        · omega
      · intro hN
        exfalso
        by_cases hlast : env.lecture z t0 % 86400 = 86399
        · rw [hcross (hminuit (.inl ⟨hlast, by omega⟩))] at hN
          omega
        · omega
    · rcases hdebut with hd | ⟨hd, -, hphase⟩
      · by_cases hlast : z % 86400 = 86399
        · have := hcross (hminuit (.inr hlast))
          refine ⟨by omega, .inr (by omega), by omega, fun _ => by omega⟩
        · refine ⟨by omega, .inr (by omega), by omega, fun _ => by omega⟩
      · have := hcross hphase
        refine ⟨by omega, .inr (by omega), by omega, fun _ => by omega⟩

/-- At a planning instant, what is armed for the plan belongs to the first day. -/
theorem Ponctuel.sans_lendemain (hu : 0 < env.parSeconde) (hv : PlanValide e)
    (h : Ponctuel env z t0 e m) (hnow : m.tache.maintenant = m.prochainTic)
    (hinst : m = depart t0 ∨ env.time m.prochainTic % 86400 = 0) {N : ℤ}
    (hN : env.lecture z t0 / 86400 < N) {l : List TimerTache}
    (hsub : ∀ u ∈ l, u ∈ m.tache.lanceurs e.ucNumeroPlanif) :
    l.filter (fun u => env.lecture z u.echeance / 86400 = N) = [] := by
  refine List.filter_eq_nil_iff.mpr fun u hu' => ?_
  have hjour : env.lecture z u.echeance / 86400 = env.lecture z t0 / 86400 := by
    rcases hinst with hdep | hmid
    · exact absurd hdep (ne_depart t0 (CMainTask.mem_lanceurs.mp (hsub u hu')).1)
    · exact h.tic_lanceur hu hv hnow hmid (hsub u hu')
  simp only [decide_eq_true_eq]
  omega

theorem Ponctuel.tic_planifie (hu : 0 < env.parSeconde) (hz : env.zone = .fixe z)
    (hl : (env.stPlanifProfil.map (·.ucNumeroPlanif)).Nodup) (he : e ∈ env.stPlanifProfil)
    (hv : PlanValide e) (hr : RepriseALHeure env z t0 e) (h : Ponctuel env z t0 e m)
    (hnow : m.tache.maintenant = m.prochainTic)
    (hinst : m = depart t0 ∨ env.time m.prochainTic % 86400 = 0)
    (hcad : Cadence env t0 (m.apresTic env (replanifie env m.tache))) :
    Ponctuel env z t0 e (m.apresTic env (replanifie env m.tache)) := by
  have hdf := hv.debut_lt_fin
  have hlec := Env.lecture_tic hu z m.prochainTic
  have hζ : env.lecture z m.prochainTic = env.time m.prochainTic + z := rfl
  have hdebut := hr.debut
  have hvide : ∀ N, env.lecture z t0 / 86400 < N →
      ∀ l : List TimerTache, (∀ u ∈ l, u ∈ m.tache.lanceurs e.ucNumeroPlanif) →
      l.filter (fun u => env.lecture z u.echeance / 86400 = N) = [] :=
    fun _ hN _ hsub => h.sans_lendemain hu hv hnow hinst hN hsub
  have hnow' : (m.apresTic env (replanifie env m.tache)).tache.maintenant = m.prochainTic :=
    (maintenant_replanifie _).trans hnow
  have hplanifie : ∀ u ∈ m.tache.lanceurs e.ucNumeroPlanif,
      (m.apresTic env (replanifie env m.tache)).tache.maintenant ≤ u.echeance ∧
      (env.lecture z u.echeance % 86400 = e.stPlanif.tDebut ∨
        u.echeance < m.prochainTic + env.parSeconde) ∧
      Planifie env z t0 (m.apresTic env (replanifie env m.tache))
        (env.lecture z u.echeance / 86400) ∧
      (env.lecture z t0 / 86400 < env.lecture z u.echeance / 86400 →
        e.stPlanif.tDebut ≤ env.lecture z u.echeance % 86400 ∧
          env.lecture z u.echeance % 86400 ≤ e.stPlanif.tDebut + 1) := by
    intro u hu'
    obtain ⟨h1, h2, h3, h4⟩ := h.lanceur u hu'
    exact ⟨by rw [hnow', ← hnow]; exact h1, h2.imp id (by omega), h3.tic hu _, h4⟩
  have hjour : Planifie env z t0 (m.apresTic env (replanifie env m.tache))
      (env.lecture z m.prochainTic / 86400) := .tic_instant hu hinst _
  obtain ⟨l, hsub, ⟨hfin, hlan⟩ | ⟨t, hlan, ht⟩⟩ :=
    lanceurs_replanifie hz hl he hv h.forme
  · -- the window is over, which only the first test can find
    rw [hnow] at hfin
    have hdep : m = depart t0 := hinst.resolve_right fun hmid => by omega
    have harm : ∀ N, env.lecture z t0 / 86400 < N → armesDuJour env z e.ucNumeroPlanif N
        (m.apresTic env (replanifie env m.tache)) = [] := by
      intro N hN
      rw [armesDuJour, apresTic, hlan]
      exact hvide N hN l hsub
    refine ⟨bienForme_replanifie env h.forme, hcad, fun u hu' => ?_, h.heure,
      fun N hN hP => ?_, fun N hN hP => ⟨(h.imprevu N hN ?_).1, harm N hN⟩⟩
    · rw [apresTic, hlan] at hu'
      exact hplanifie u (hsub u hu')
    · dsimp only [apresTic] at hP
      have h0 : env.lecture z m.prochainTic = env.lecture z t0 := by rw [hdep]; rfl
      omega
    · dsimp only [apresTic] at hP
      omega
  · obtain ⟨hle, hx, hday, hheure⟩ := hr.nouveau hu hv h.cadence hinst (by simpa [hnow] using ht)
    have harm : ∀ N, env.lecture z t0 / 86400 < N → armesDuJour env z e.ucNumeroPlanif N
        (m.apresTic env (replanifie env m.tache)) =
          if env.lecture z m.prochainTic / 86400 = N then [t] else [] := by
      intro N hN
      rw [armesDuJour, apresTic, hlan, List.filter_cons, hvide N hN l hsub, hday]
      simp
    refine ⟨bienForme_replanifie env h.forme, hcad, fun u hu' => ?_, h.heure,
      fun N hN hP => ?_, fun N hN hP => ?_⟩
    · rw [apresTic, hlan] at hu'
      rcases List.mem_cons.mp hu' with rfl | hu'
      · exact ⟨hnow'.trans_le hle, hx, hday ▸ hjour, hheure⟩
      · exact hplanifie u (hsub u hu')
    · rw [harm N hN]
      dsimp only [apresTic] at hP
      have hmid : env.time m.prochainTic % 86400 = 0 := by
        refine hinst.resolve_left fun hdep => ?_
        have h0 : env.lecture z m.prochainTic = env.lecture z t0 := by rw [hdep]; rfl
        omega
      by_cases hN' : env.lecture z m.prochainTic / 86400 = N
      · rw [if_pos hN']
        exact .inl ⟨(h.imprevu N hN (by omega)).1, t, rfl⟩
      · rw [if_neg hN']
        rcases h.prevu N hN (by omega) with ⟨-, u, hu'⟩ | ⟨hlog, -⟩
        · have hmem := hvide N hN _ fun _ h => h
          rw [armesDuJour, hmem] at hu'
          cases hu'
        · exact .inr ⟨hlog, rfl⟩
    · rw [harm N hN]
      dsimp only [apresTic] at hP
      have hN' : env.lecture z m.prochainTic / 86400 ≠ N := by
        rcases hinst with hdep | hmid
        · have h0 : env.lecture z m.prochainTic = env.lecture z t0 := by rw [hdep]; rfl
          omega
        · omega
      rw [if_neg hN']
      exact ⟨(h.imprevu N hN (by omega)).1, rfl⟩

theorem Ponctuel.lance (h : Ponctuel env z t0 e m) {t : TimerTache}
    (ht : t ∈ m.tache.lanceurs e.ucNumeroPlanif) (hdue : t.echeance ≤ m.tache.maintenant)
    (hcad : Cadence env t0 (m.apresExpire env t)) : Ponctuel env z t0 e (m.apresExpire env t) := by
  obtain ⟨hmem, hlan⟩ := CMainTask.mem_lanceurs.mp ht
  have hst := (TimerTache.lanceurDe_iff.mp hlan).1
  obtain ⟨hle, -, hjour, hheure⟩ := h.lanceur t ht
  have hnow : m.tache.maintenant = t.echeance := by omega
  have hlog := fun N => lancementsDuJour_expire env (z := z) (m := m) hst
    e.ucNumeroPlanif N
  have harm := fun N => armesDuJour_expire env (z := z) h.forme ht N
  simp only [hlan, true_and, hnow] at hlog
  -- on another day the launcher is not among those that are due
  have hautre : ∀ N, env.lecture z t.echeance / 86400 ≠ N →
      (armesDuJour env z e.ucNumeroPlanif N m).filter (·.adresse ≠ t.adresse) =
        armesDuJour env z e.ucNumeroPlanif N m := by
    intro N hN
    refine List.filter_eq_self.mpr fun u hu => ?_
    obtain ⟨hu, huN⟩ := List.mem_filter.mp hu
    have hne : u.adresse ≠ t.adresse := by
      intro heq
      rw [h.forme.adresse_inj u (CMainTask.mem_lanceurs.mp hu).1 t hmem heq] at huN
      exact hN (by simpa using huN)
    simpa using hne
  refine ⟨h.forme.expire t, hcad, fun u hu => ?_, fun N hN r hr => ?_, fun N hN hP => ?_,
    fun N hN hP => ?_⟩
  · rw [apresExpire, CMainTask.lanceurs_expire h.forme ht] at hu
    show (m.tache.expire env toujours t).maintenant ≤ u.echeance ∧ _
    rw [CMainTask.maintenant_expire]
    exact h.lanceur u (List.mem_of_mem_filter hu)
  · rw [hlog N] at hr
    split at hr
    · rename_i hday
      rcases List.mem_cons.mp hr with rfl | hr
      · have := hheure (by omega)
        omega
      · exact h.heure N hN r hr
    · exact h.heure N hN r hr
  · rw [hlog N, harm N]
    by_cases hday : env.lecture z t.echeance / 86400 = N
    · have hin : t ∈ armesDuJour env z e.ucNumeroPlanif N m :=
        List.mem_filter.mpr ⟨ht, by simpa using hday⟩
      rcases h.prevu N hN hP with ⟨hvide, u, hu⟩ | ⟨-, hvide⟩
      · rw [hu] at hin ⊢
        obtain rfl := List.mem_singleton.mp hin
        refine .inr ⟨⟨env.lecture z t.echeance, ?_⟩, by simp⟩
        rw [if_pos hday, hvide]
      · simp [hvide] at hin
    · rw [hautre N hday, if_neg hday]
      exact h.prevu N hN hP
  · have hnone := h.imprevu N hN hP
    have hday : env.lecture z t.echeance / 86400 ≠ N := by
      intro hday
      have hin : t ∈ armesDuJour env z e.ucNumeroPlanif N m :=
        List.mem_filter.mpr ⟨ht, by simpa using hday⟩
      simp [hnone.2] at hin
    rw [hlog N, harm N, hautre N hday, if_neg hday]
    exact hnone

theorem Ponctuel.step (hu : 0 < env.parSeconde) (hcal : Calendrier env)
    (hz : env.zone = .fixe z) (hl : (env.stPlanifProfil.map (·.ucNumeroPlanif)).Nodup)
    (he : e ∈ env.stPlanifProfil) (hv : PlanValide e) (hr : RepriseALHeure env z t0 e)
    {ev : EvtIdeal} (h : Ponctuel env z t0 e m) (hs : m.step env ev = some m') :
    Ponctuel env z t0 e m' := by
  have hcad := h.cadence.step hu hcal hs
  rcases step_cases hs with ⟨rfl, hnow, rfl⟩ | ⟨t, ht, rfl, hst, hdue, rfl⟩ |
    ⟨rfl, -, hcalme, rfl⟩
  · rcases testeJour_cases hu hcal h.cadence hnow with ⟨hinst, heq⟩ | ⟨-, hmid, -, heq⟩
    · rw [heq] at hcad ⊢
      exact h.tic_planifie hu hz hl he hv hr hnow hinst hcad
    · rw [heq] at hcad ⊢
      exact h.tic_rien hu hmid hcad
  · by_cases hlan : t.lanceurDe e.ucNumeroPlanif = true
    · exact h.lance (CMainTask.mem_lanceurs.mpr ⟨ht, hlan⟩) hdue hcad
    · refine h.congr (h.forme.expire t) hcad rfl ?_ (fun u hu => ?_) fun N => ?_
      · exact (CMainTask.vueLanceur_eq_iff.mp (CMainTask.vueLanceur_expire_of_not env
          h.forme ht hst (by simpa using hlan))).1
      · show (m.tache.expire env toujours t).maintenant ≤ u.echeance
        rw [CMainTask.maintenant_expire]
        exact (h.lanceur u hu).1
      · exact (lancementsDuJour_expire env hst _ N).trans (if_neg fun h => hlan h.1)
  · refine h.congr { h.forme with } hcad rfl rfl (fun u hu => ?_) fun N => rfl
    obtain ⟨hmem, hlan⟩ := CMainTask.mem_lanceurs.mp hu
    exact hcalme u hmem (TimerTache.lanceurDe_iff.mp hlan).1

theorem Ponctuel.depart : Ponctuel env z t0 e (.depart t0) where
  forme := .construit t0
  cadence := .inl rfl
  lanceur := by simp [Ideal.depart, CMainTask.construit, CMainTask.lanceurs]
  heure := by simp [Ideal.depart, lancementsDuJour]
  prevu N hN hP := by
    have h0 : env.lecture z (Ideal.depart t0).prochainTic = env.lecture z t0 := rfl
    omega
  imprevu N _ _ := by
    simp [Ideal.depart, CMainTask.construit, CMainTask.lanceurs, lancementsDuJour, armesDuJour]

/-! ### Every local day -/

/-- On every local day after the first, every plan is launched at the start of
its window, once, when the planning instant of the zone allows it. -/
theorem a_l_heure (env : Env) (z t0 : ℤ) (hu : 0 < env.parSeconde) (hcal : Calendrier env)
    (hz : env.zone = .fixe z) (hl : (env.stPlanifProfil.map (·.ucNumeroPlanif)).Nodup)
    (m : Ideal) (hm : Atteint env t0 m) (e : DefPlanificationProfil)
    (he : e ∈ env.stPlanifProfil) (hv : PlanValide e) (hr : RepriseALHeure env z t0 e) (N : ℤ)
    (hN : env.lecture z t0 / 86400 < N) : ALHeure env z e m N := by
  have h := hm.invariant (I := Ponctuel env z t0 e) .depart
    fun m ev m' h hs => h.step hu hcal hz hl he hv hr hs
  have hdebut := hr.debut
  refine ⟨h.heure N hN, ?_, fun hpasse => ?_⟩
  · by_cases hP : 86400 * N + z % 86400 ≤ env.lecture z m.prochainTic - 1
    · rcases h.prevu N hN hP with ⟨hlog, -⟩ | ⟨⟨r, hlog⟩, -⟩ <;> simp [hlog]
    · simp [(h.imprevu N hN (by omega)).1]
  · have hle := Env.lecture_mono hu z h.cadence.maintenant_le
    rcases h.prevu N hN (by omega) with ⟨-, t, hlan⟩ | ⟨⟨r, hlog⟩, -⟩
    · -- the launcher would still be due in the past
      have hin : t ∈ armesDuJour env z e.ucNumeroPlanif N m := hlan ▸ List.mem_singleton_self t
      obtain ⟨ht, hday⟩ := List.mem_filter.mp hin
      obtain ⟨hle', -, -, hheure⟩ := h.lanceur t ht
      have hmono := Env.lecture_mono hu z hle'
      rw [decide_eq_true_eq] at hday
      have := hheure (by omega)
      omega
    · simp [hlog]

/-- In UTC a window from midnight to 2, for a task that starts one second before
midnight. -/
theorem a_l_heure_minuit :
    ALHeure (.zoneFixe 1 0 [.planifie 1 1 0 7200]) 0 (.planifie 1 1 0 7200)
      ((Execution.exec (step (.zoneFixe 1 0 [.planifie 1 1 0 7200])) (depart 86399)
        [.tic, .avance, .tic, .expire 2, .avance, .tic, .avance]).get rfl) 1 :=
  a_l_heure (.zoneFixe 1 0 [.planifie 1 1 0 7200]) 0 86399 (by decide)
    (Env.calendrier_zoneFixe _ _ _) rfl (List.nodup_singleton _) _
    ⟨_, (Option.some_get _).symm⟩ (.planifie 1 1 0 7200) (List.mem_singleton_self _)
    ⟨by decide, by decide, by decide, by decide⟩ ⟨by decide, by decide⟩ 1 (by decide)

/-- The same window in a zone one hour east of UTC: at midnight nothing is
planned before the day of `gmtime` changes, at 1, and the launch is missed. -/
theorem lancement_manque_minuit :
    PlanValide (.planifie 1 1 0 7200) ∧
      ¬ ALHeure (.zoneFixe 1 3600 [.planifie 1 1 0 7200]) 3600 (.planifie 1 1 0 7200)
        ((Execution.exec (step (.zoneFixe 1 3600 [.planifie 1 1 0 7200])) (depart 82799)
          [.tic, .avance, .tic, .avance, .tic, .avance]).get rfl) 1 :=
  ⟨⟨by decide, by decide, by decide, by decide⟩, fun h => h.lance (by decide) (by decide)⟩

end Ideal

end GestAqua
