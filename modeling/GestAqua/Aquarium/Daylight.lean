import GestAqua.Aquarium.Suns
import GestAqua.Soleil.Parameters
import GestAqua.Soleil.Segments

/-!
The light of a day.

A plan whose profile has a sun with a curve that fills the window of the plan, in a zone
with a constant offset. From the first tick of its sun on, the ratio of the modulation
is the one that `SetRapportCyclique` keeps for the value of the curve at the last tick,
and the last tick is at most one interval old.
-/

namespace GestAqua

/-- The light that a sun asks for at an offset of the day: the value of the segment that
contains it, at the time since the beginning of the ephemeris in hours. -/
def ParamSoleil.valeurA (p : ParamSoleil) (t : ℤ) : Option ℚ :=
  (p.stCourbeSolaire.lSegment.find? (·.contient t)).bind
    (·.valeur (((t - p.stEphemeride.tDebut : ℤ) : ℚ) / 3600))

theorem ParamSoleil.valeurA_eq {p : ParamSoleil} (hl : CourbeValide p.stCourbeSolaire.lSegment)
    {t : ℤ} {g : SegmentSolaire} (hg : g ∈ p.stCourbeSolaire.lSegment)
    (hc : g.contient t = true) :
    p.valeurA t = g.valeur (((t - p.stEphemeride.tDebut : ℤ) : ℚ) / 3600) := by
  obtain ⟨g', hg'⟩ := Option.isSome_iff_exists.mp
    (List.find?_isSome.mpr ⟨g, hg, hc⟩ :
      (p.stCourbeSolaire.lSegment.find? (·.contient t)).isSome = true)
  obtain rfl := contient_unique hl.triee (List.mem_of_find?_eq_some hg') hg
    (List.find?_some hg') hc
  rw [valeurA, hg']
  rfl

theorem CSoleil.TickJuste.valeurA {s : CSoleil} {t : ℤ} (h : s.TickJuste t)
    (hl : CourbeValide s.segments) {g : SegmentSolaire} (hg : g ∈ s.segments)
    (hc : g.contient t = true) :
    ∃ y, s.stParam.valeurA t = some y ∧ (s.iGererCourbe t).2 = some y := by
  obtain ⟨dA, dB, hA⟩ := hl.affine g hg
  refine ⟨_, ?_, h.dans g hg hc dA dB hA⟩
  rw [ParamSoleil.valeurA_eq hl hg hc, SegmentSolaire.valeur, hA]

/-- The profile of the plan has a sun, whose curve fills the window of the plan; no
segment has a zero interval. -/
structure CourbePlan (inst : Installation) (e : DefPlanificationProfil) (p : ParamSoleil) :
    Prop where
  entree : (TacheProfil.entrees e.ucNumeroProfil inst.stParamProfil).getLast?.map
    (·.stParamSoleil) = some p
  valide : p.ucValide ≠ 0
  courbe : CourbeValide p.stCourbeSolaire.lSegment
  couvre : ∀ t, e.stPlanif.tDebut ≤ t → t < e.tFin →
    ∃ g ∈ p.stCourbeSolaire.lSegment, g.contient t = true
  intervalle : ∀ g ∈ p.stCourbeSolaire.lSegment, 0 < g.usIntervalleX

theorem CourbePlan.allume {inst : Installation} {e : DefPlanificationProfil} {p : ParamSoleil}
    (hp : CourbePlan inst e p) (hn : e.ucNumeroProfil ≠ 0) (now : ℤ) {i : CProfil}
    (hi : i.ucNumeroProfil = e.ucNumeroProfil) :
    Eclairage.allume inst now i =
      some ⟨i.adresse, .construit p inst.dX, none, now + inst.env.parSeconde⟩ := by
  obtain ⟨x, hx, rfl⟩ := Option.map_eq_some_iff.mp hp.entree
  rw [Eclairage.allume, hi, TacheProfil.pSoleil_entre_construit hn inst.stParam hx,
    if_pos ⟨Option.some_ne_none _, hp.valide⟩, Option.map_some]
  simp [CSoleil.construit]

/-- What a run keeps of the sun of the plan on the day `N`. -/
structure SuitJour (env : Env) (z : ℤ) (e : DefPlanificationProfil) (p : ParamSoleil)
    (N now : ℤ) (x : Eclairage) : Prop where
  stParam : x.soleil.stParam = p
  suivi : Journee.Suivi p.stCourbeSolaire.lSegment ⟨x.soleil, x.dernier⟩
  intervalle : x.soleil.usIntervalleX = 1 ∨
    ∃ g ∈ p.stCourbeSolaire.lSegment, x.soleil.usIntervalleX = g.usIntervalleX
  avenir : now ≤ x.echeance
  proche : x.echeance ≤ now + x.soleil.usIntervalleX * env.parSeconde
  neuf : x.dernier = none → x.soleil.usIntervalleX = 1 ∧
    x.soleil.gestionCourbeSolaire.dRapportCyclique = 1
  tic : ∀ t₀, x.dernier = some t₀ →
    env.lecture z x.echeance = 86400 * N + t₀ + x.soleil.usIntervalleX ∧
      86400 * N + t₀ ≤ env.lecture z now ∧
      (t₀ < e.tFin → ∃ y, p.valeurA t₀ = some y ∧
        x.soleil.gestionCourbeSolaire.dRapportCyclique = CPwmGpio.rapportRetenu y)

namespace SuitJour

variable {inst : Installation} {env : Env} {z N now : ℤ} {e : DefPlanificationProfil}
  {p : ParamSoleil} {x : Eclairage}

theorem neuve (N : ℤ) (a : ℕ) :
    SuitJour inst.env z e p N now ⟨a, .construit p inst.dX, none, now + inst.env.parSeconde⟩ where
  stParam := rfl
  suivi := .depart rfl
  intervalle := .inl rfl
  avenir := by simp
  proche := by simp [CSoleil.construit]
  neuf _ := by
    refine ⟨rfl, ?_⟩
    show CPwmGpio.rapportRetenu 1 = 1
    decide +kernel
  tic := by simp

theorem intervalle_pos (h : SuitJour inst.env z e p N now x) (hp : CourbePlan inst e p) :
    0 < x.soleil.usIntervalleX := by
  rcases h.intervalle with h1 | ⟨g, hg, h1⟩
  · omega
  · rw [h1]
    exact hp.intervalle g hg

theorem attend (h : SuitJour env z e p N now x) (hu : 0 < env.parSeconde) {now' : ℤ}
    (hle : now ≤ now') (hav : now' ≤ x.echeance) : SuitJour env z e p N now' x :=
  { h with
    avenir := hav
    proche := h.proche.trans (by omega)
    tic := fun t₀ h0 => by
      obtain ⟨hech, hlec, hrap⟩ := h.tic t₀ h0
      exact ⟨hech, hlec.trans (Env.lecture_mono hu z hle), hrap⟩ }

theorem gere {s : CMainTask} (h : SuitJour inst.env z e p N s.maintenant x)
    (hu : 0 < inst.env.parSeconde) (hz : inst.env.zone = .fixe z) (hp : CourbePlan inst e p)
    (hd0 : 0 ≤ e.stPlanif.tDebut) (hfin : e.tFin < 86400) (hdue : x.echeance ≤ s.maintenant)
    (hdeb : 86400 * N + e.stPlanif.tDebut ≤ inst.env.lecture z s.maintenant)
    (hle : inst.env.lecture z s.maintenant ≤ 86400 * N + e.tFin) :
    SuitJour inst.env z e p N s.maintenant (x.gere inst.env s) := by
  have hnow : x.echeance = s.maintenant := le_antisymm hdue h.avenir
  have hpos := h.intervalle_pos hp
  obtain ⟨o, ho⟩ : ∃ o, o = s.tOffsetMidnight inst.env := ⟨_, rfl⟩
  have hlec : inst.env.lecture z s.maintenant = 86400 * N + o := by
    rw [ho, CMainTask.tOffsetMidnight_eq hz]
    omega
  have hstep : Journee.step ⟨x.soleil, x.dernier⟩ o =
      some ⟨(x.soleil.iGererCourbe o).1, some o⟩ := by
    refine if_pos ⟨by omega, by omega, ?_⟩
    cases hd : x.dernier with
    | none => rfl
    | some t₀ =>
        have hech := (h.tic t₀ hd).1
        rw [hnow] at hech
        simp only [Option.all_some, decide_eq_true_eq]
        omega
  have hl : CourbeValide x.soleil.segments := by
    rw [CSoleil.segments, h.stParam]
    exact hp.courbe
  -- the selected segment is not over, since the tick comes when it was expected
  have hjuste : x.soleil.TickJuste o := by
    refine (h.suivi.tickJuste_iff hp.courbe hstep).mpr fun g hg => .inl ?_
    obtain ⟨t₀, h0, -, hint, hf⟩ := h.suivi.selection g hg
    have hech := (h.tic t₀ h0).1
    rw [hnow] at hech
    have hint : x.soleil.usIntervalleX = g.usIntervalleX := hint
    omega
  have hx : x.gere inst.env s =
      ⟨x.pProfil, (x.soleil.iGererCourbe o).1, some o,
        s.maintenant + (x.soleil.iGererCourbe o).1.usIntervalleX * inst.env.parSeconde⟩ := by
    rw [ho]
    rfl
  rw [hx]
  exact
    { stParam := (x.soleil.iGererCourbe_stParam o).trans h.stParam
      suivi := h.suivi.step hstep
      intervalle := by
        show (x.soleil.iGererCourbe o).1.usIntervalleX = 1 ∨
          ∃ g ∈ p.stCourbeSolaire.lSegment, (x.soleil.iGererCourbe o).1.usIntervalleX = _
        rw [CSoleil.iGererCourbe_intervalle]
        rcases h.suivi.index.utilise_cases o with ⟨-, -, -, hs⟩ | ⟨g, hg, -, -, -, hint⟩ |
          ⟨g, -, -, hint⟩
        · rw [hs]
          exact h.intervalle
        · refine .inr ⟨g, ?_, hint⟩
          rw [← h.stParam]
          exact hg
        · rw [hint]
          exact h.intervalle
      avenir := by
        show s.maintenant ≤ s.maintenant + _
        exact Int.le_add_of_nonneg_right (by positivity)
      proche := le_rfl
      neuf := by simp
      tic := fun t₀ h0 => by
        obtain rfl : o = t₀ := Option.some.inj h0
        refine ⟨?_, hlec.ge, fun hof => ?_⟩
        · show inst.env.lecture z (s.maintenant + _ * inst.env.parSeconde) = _
          rw [Env.lecture_add hu, hlec]
        · obtain ⟨g, hg, hc⟩ := hp.couvre o (by omega) hof
          obtain ⟨y, hy, hrap⟩ := hjuste.valeurA hl
            (by rw [CSoleil.segments, h.stParam]; exact hg) hc
          refine ⟨y, h.stParam ▸ hy, ?_⟩
          show (x.soleil.iGererCourbe o).1.gestionCourbeSolaire.dRapportCyclique = _
          rw [CSoleil.iGererCourbe_gestion hrap]
          rfl }

end SuitJour

/-! ### From one step to the next -/

namespace Ideal

variable {env : Env} {z t0 : ℤ} {e : DefPlanificationProfil} {m m' : Ideal}

theorem Suivi.reste (hpl : (env.stPlanifProfil.map (·.ucNumeroPlanif)).Nodup)
    (hpr : (env.stPlanifProfil.map (·.ucNumeroProfil)).Nodup) (he : e ∈ env.stPlanifProfil)
    (hp : e.ucNumeroProfil ≠ 0) (hu : 0 < env.parSeconde) {ev : EvtIdeal} {E E' : Option ℤ}
    {y y' : ℤ} (h : Suivi env z t0 e m E (some y)) (h' : Suivi env z t0 e m' E' (some y'))
    (hs : m.step env ev = some m') :
    m'.tache.actifs e.ucNumeroProfil = m.tache.actifs e.ucNumeroProfil ∧ y' = y := by
  have hvue : m'.tache.vueArret e.ucNumeroProfil = m.tache.vueArret e.ucNumeroProfil := by
    refine (h.vueArret_step hpl hpr he hu hs).resolve_right ?_
    rintro ⟨t, ht, -, heq⟩
    have hF := h.tourne.expire env h.forme hp ht
    obtain ⟨u, i, q, hv, -⟩ := h'.tourne
    rw [heq] at hv
    exact absurd (hF.symm.trans hv) (by simp)
  refine ⟨congrArg VueArret.actifs hvue, ?_⟩
  obtain ⟨t, ht, rfl⟩ := h'.tourne.mem
  rw [show m'.tache.arrets e.ucNumeroProfil = m.tache.arrets e.ucNumeroProfil from
    congrArg VueArret.arrets hvue] at ht
  exact (Option.some.inj (h.tourne.echeance ht)).symm

end Ideal

namespace Aquarium

variable {inst : Installation} {z t0 : ℤ} {e : DefPlanificationProfil} {p : ParamSoleil}
  {m m' : Aquarium} {E F : Option ℤ}

/-- What a run keeps about the plan: the state of its launcher and of its stop timer, and
while its profile is running one sun that follows the curve. -/
structure Eclaire (inst : Installation) (z t0 : ℤ) (e : DefPlanificationProfil)
    (p : ParamSoleil) (m : Aquarium) (E F : Option ℤ) : Prop where
  rattache : Rattache m
  suivi : Ideal.Suivi inst.env z t0 e m.ideal E F
  soleil : ∀ y, F = some y → ∀ N, inst.env.lecture z y = 86400 * N + e.tFin →
    ∃ i x, m.ideal.tache.actifs e.ucNumeroProfil = [i] ∧
      m.soleils.filter (·.pProfil = i.adresse) = [x] ∧
      SuitJour inst.env z e p N m.ideal.tache.maintenant x

/-- What is asked of the tables and of the zone: the numbers are distinct, the window of
the plan lies within one day and ends before midnight, no planning meets an instance of
it, and the profile has a sun whose curve fills the window. -/
structure PlanEclaire (inst : Installation) (z t0 : ℤ) (e : DefPlanificationProfil)
    (p : ParamSoleil) : Prop where
  horloge : 0 < inst.env.parSeconde
  calendrier : Calendrier inst.env
  zone : inst.env.zone = .fixe z
  planifs : (inst.env.stPlanifProfil.map (·.ucNumeroPlanif)).Nodup
  profils : (inst.env.stPlanifProfil.map (·.ucNumeroProfil)).Nodup
  membre : e ∈ inst.env.stPlanifProfil
  plan : PlanValide e
  profil_ne_zero : e.ucNumeroProfil ≠ 0
  fin_lt : e.tFin < 86400
  sansDoublon : Ideal.SansDoublon inst.env z t0 e
  reprise : z % 86400 < e.tFin
  courbe : CourbePlan inst e p

theorem Eclaire.depart : Eclaire inst z t0 e p (.depart t0) none none where
  rattache := ⟨.construit t0, .nil, by simp [Aquarium.depart]⟩
  suivi := .depart
  soleil := by simp

theorem maintenant_step {ev : EvtIdeal} {r r' : Ideal} (hs : r.step inst.env ev = some r') :
    r'.tache.maintenant = r.tache.maintenant ∨
      ev = .avance ∧ r'.tache.maintenant = r.tache.maintenant + 1 := by
  rcases Ideal.step_cases hs with ⟨-, -, rfl⟩ | ⟨t, -, -, -, -, rfl⟩ | ⟨rfl, -, -, rfl⟩
  · exact .inl (CMainTask.maintenant_testeJour _)
  · exact .inl (CMainTask.maintenant_expire _ t)
  · exact .inr ⟨rfl, rfl⟩

theorem Eclaire.tache (hc : PlanEclaire inst z t0 e p) (h : Eclaire inst z t0 e p m E F)
    {ev : EvtIdeal} {r : Ideal} (hs : m.ideal.step inst.env ev = some r)
    (hav : ev = .avance → ∀ x ∈ m.soleils, m.ideal.tache.maintenant < x.echeance)
    (hrat : Rattache ⟨r, suit inst m.ideal.tache r.tache m.soleils⟩) :
    ∃ E' F', Eclaire inst z t0 e p ⟨r, suit inst m.ideal.tache r.tache m.soleils⟩ E' F' := by
  obtain ⟨E', F', h'⟩ := h.suivi.step_plan hc.horloge hc.calendrier hc.zone hc.planifs
    hc.profils hc.membre hc.plan hc.profil_ne_zero hc.sansDoublon hc.reprise hs
  refine ⟨E', F', hrat, h', ?_⟩
  rintro y' rfl N hN
  obtain ⟨t, i', q, hvue, -⟩ := h'.tourne
  have hact' : r.tache.actifs e.ucNumeroProfil = [i'] := (CMainTask.vueArret_eq_iff.mp hvue).2.1
  obtain ⟨hi', hnum⟩ := CMainTask.mem_actifs.mp (hact' ▸ List.mem_singleton_self i')
  by_cases hi : i' ∈ m.ideal.tache.profils
  · -- the instance was running already
    have hmem := CMainTask.mem_actifs.mpr ⟨hi, hnum⟩
    cases F with
    | none =>
        have hvide := (CMainTask.vueArret_eq_iff.mp h.suivi.tourne).2.1
        rw [hvide] at hmem
        exact absurd hmem List.not_mem_nil
    | some y =>
        obtain ⟨hact, rfl⟩ := h.suivi.reste hc.planifs hc.profils hc.membre hc.profil_ne_zero
          hc.horloge h' hs
        obtain ⟨i, x, hi₁, hx, hjour⟩ := h.soleil y' rfl N hN
        obtain rfl : i' = i := by
          rw [hi₁] at hmem
          exact List.mem_singleton.mp hmem
        refine ⟨i', x, hact', (seul_suit_garde h.rattache hs hi hi').trans hx, ?_⟩
        have hxm : x ∈ m.soleils :=
          List.mem_of_mem_filter (hx ▸ List.mem_singleton_self x)
        show SuitJour inst.env z e p N r.tache.maintenant x
        rcases maintenant_step hs with hnow | ⟨hev, hnow⟩
        · exact hjour.attend hc.horloge hnow.ge (hnow.trans_le hjour.avenir)
        · have := hav hev x hxm
          exact hjour.attend hc.horloge (by omega) (by omega)
  · refine ⟨i', _, hact', ?_, .neuve N i'.adresse⟩
    rw [seul_suit_neuf h.rattache hs hi hi', hc.courbe.allume hc.profil_ne_zero _ hnum]
    rfl

theorem Eclaire.gere (hc : PlanEclaire inst z t0 e p) (h : Eclaire inst z t0 e p m E F) (a : ℕ)
    {m' : Aquarium} (hm' : m' = { m with
      soleils := m.soleils.map fun x =>
        if m.echu a x then x.gere inst.env m.ideal.tache else x })
    (hrat : Rattache m') : Eclaire inst z t0 e p m' E F := by
  subst hm'
  refine ⟨hrat, h.suivi, ?_⟩
  rintro y rfl N hN
  obtain ⟨i, x, hi, hx, hjour⟩ := h.soleil y rfl N hN
  refine ⟨i, if m.echu a x then x.gere inst.env m.ideal.tache else x, hi, ?_, ?_⟩
  · have hpprofil : ∀ w : Eclairage,
        (if m.echu a w then w.gere inst.env m.ideal.tache else w).pProfil = w.pProfil := by
      intro w
      split <;> rfl
    rw [List.filter_map, show ((fun w : Eclairage => decide (w.pProfil = i.adresse)) ∘ fun w =>
      if m.echu a w then w.gere inst.env m.ideal.tache else w) =
        fun w => decide (w.pProfil = i.adresse) from funext fun w => by simp [hpprofil], hx]
    rfl
  · split
    · rename_i hdu
      obtain ⟨-, hdu⟩ := Bool.and_eq_true_iff.mp hdu
      obtain ⟨hle, N', hN', hdeb, -⟩ := h.suivi.arret y rfl
      obtain rfl : N' = N := by omega
      have := Env.lecture_mono hc.horloge z hle
      exact hjour.gere hc.horloge hc.zone hc.courbe hc.plan.debut_nonneg hc.fin_lt
        (of_decide_eq_true hdu) hdeb (this.trans hN.le)
    · exact hjour

theorem Atteint.eclaire (hc : PlanEclaire inst z t0 e p) (hm : Atteint inst t0 m) :
    ∃ E F, Eclaire inst z t0 e p m E F := by
  refine (hm.invariant (I := fun m => Atteint inst t0 m ∧ ∃ E F, Eclaire inst z t0 e p m E F)
    ⟨⟨[], rfl⟩, none, none, .depart⟩ fun m ev m' ⟨⟨es, hes⟩, E, F, h⟩ hs => ?_).2
  have hm' : Atteint inst t0 m' := ⟨es ++ [ev], Execution.exec_concat hes hs⟩
  have hrat := h.rattache.step hm'.ideal hs
  refine ⟨hm', ?_⟩
  rcases step_cases hs with ⟨ev, r, -, hr, hav, rfl⟩ | ⟨a, -, hsol⟩
  · exact h.tache hc hr hav hrat
  · exact ⟨E, F, h.gere hc a hsol hrat⟩

/-! ### The light -/

/-- The sun has the ratio of its constructor and its first tick comes within a second, or
it has the ratio that is kept for the light asked for at its last tick, which is at most
one interval old. -/
structure SuitCourbe (env : Env) (p : ParamSoleil) (now off : ℤ) (x : Eclairage) : Prop where
  rapport :
    (x.dernier = none ∧ x.echeance ≤ now + env.parSeconde ∧
        x.soleil.gestionCourbeSolaire.dRapportCyclique = 1) ∨
      ∃ t₀ y, x.dernier = some t₀ ∧ t₀ ≤ off ∧ off ≤ t₀ + x.soleil.usIntervalleX ∧
        p.valeurA t₀ = some y ∧
        x.soleil.gestionCourbeSolaire.dRapportCyclique = CPwmGpio.rapportRetenu y
  intervalle : x.soleil.usIntervalleX = 1 ∨
    ∃ g ∈ p.stCourbeSolaire.lSegment, x.soleil.usIntervalleX = g.usIntervalleX

/-- Inside the window the sun of a running instance follows the curve. -/
theorem Eclaire.suitCourbe (hc : PlanEclaire inst z t0 e p) (h : Eclaire inst z t0 e p m E F)
    (hoff : inst.env.lecture z m.ideal.tache.maintenant % 86400 < e.tFin) :
    ∀ i ∈ m.ideal.tache.actifs e.ucNumeroProfil, ∃ x,
      m.soleils.filter (·.pProfil = i.adresse) = [x] ∧
        SuitCourbe inst.env p m.ideal.tache.maintenant
          (inst.env.lecture z m.ideal.tache.maintenant % 86400) x := by
  intro j hj
  cases F with
  | none =>
      rw [(CMainTask.vueArret_eq_iff.mp h.suivi.tourne).2.1] at hj
      exact absurd hj List.not_mem_nil
  | some y =>
      obtain ⟨hle, N, hN, hdeb, -⟩ := h.suivi.arret y rfl
      obtain ⟨i, x, hi, hx, hjour⟩ := h.soleil y rfl N hN
      obtain rfl : j = i := by
        rw [hi] at hj
        exact List.mem_singleton.mp hj
      have hlec := Env.lecture_mono hc.horloge z hle
      have hd0 := hc.plan.debut_nonneg
      have hfin := hc.fin_lt
      refine ⟨x, hx, ?_, hjour.intervalle⟩
      cases hd : x.dernier with
      | none =>
          obtain ⟨hint, hrap⟩ := hjour.neuf hd
          refine .inl ⟨rfl, ?_, hrap⟩
          have := hjour.proche
          rw [hint] at this
          simpa using this
      | some t₀ =>
          obtain ⟨hech, hpasse, hrap⟩ := hjour.tic t₀ hd
          have hav := Env.lecture_mono hc.horloge z hjour.avenir
          obtain ⟨v, hv, hr⟩ := hrap (by omega)
          exact .inr ⟨t₀, v, rfl, by omega, by omega, hv, hr⟩

/-! ### The shipped tables -/

/-- The first plan of the shipped table. -/
def planJour : DefPlanificationProfil := .planifie 1 1 28800 43200

theorem courbePlan_livree : CourbePlan .livree planJour paramSoleilProfil01 where
  entree := rfl
  valide := by decide
  courbe := Journee.courbeValide_paramSoleilProfil01
  couvre t hdeb hfin := enchaine_couvre hdeb hfin
  intervalle := by decide +kernel

/-- The second plan of the shipped table crosses midnight, which does not disturb the
first. -/
theorem planEclaire_livree (t0 : ℤ) : PlanEclaire .livree 0 t0 planJour paramSoleilProfil01 where
  horloge := by decide
  calendrier := Env.calendrier_zoneFixe _ _ _
  zone := rfl
  planifs := by decide
  profils := by decide
  membre := List.mem_cons_self
  plan := ⟨by decide, by decide, by decide, by decide⟩
  profil_ne_zero := by decide
  fin_lt := by decide
  sansDoublon := Ideal.sansDoublon_utc rfl (by decide)
  reprise := by decide
  courbe := courbePlan_livree

/-! ### In every run -/

/-- In every state of a run, before the end of the window, the profile of the plan has at
most one running instance, and this has one sun, which follows the curve. -/
theorem lumiere_en_fenetre (inst : Installation) (z t0 : ℤ) (e : DefPlanificationProfil)
    (p : ParamSoleil) (hc : PlanEclaire inst z t0 e p) (m : Aquarium) (hm : Atteint inst t0 m)
    (hoff : inst.env.lecture z m.ideal.tache.maintenant % 86400 < e.tFin) :
    (m.ideal.tache.actifs e.ucNumeroProfil).length ≤ 1 ∧
      ∀ i ∈ m.ideal.tache.actifs e.ucNumeroProfil, ∃ x,
        m.soleils.filter (·.pProfil = i.adresse) = [x] ∧
          SuitCourbe inst.env p m.ideal.tache.maintenant
            (inst.env.lecture z m.ideal.tache.maintenant % 86400) x := by
  obtain ⟨E, F, h⟩ := hm.eclaire hc
  exact ⟨(Ideal.length_of_tourne h.suivi.tourne).1, h.suitCourbe hc hoff⟩

/-- The shipped program, started at nine: before its first tick the sun has the ratio of
its constructor. -/
theorem lumiere_neuf_heures :
    let r := (Execution.exec (step .livree) (.depart 32400) [.tache .tic, .tache (.expire 2)]).get
      rfl
    (r.ideal.tache.actifs 1).length ≤ 1 ∧ ∀ i ∈ r.ideal.tache.actifs 1, ∃ x,
      r.soleils.filter (·.pProfil = i.adresse) = [x] ∧
        SuitCourbe Installation.livree.env paramSoleilProfil01 32400 32400 x :=
  lumiere_en_fenetre .livree 0 32400 planJour paramSoleilProfil01 (planEclaire_livree 32400) _
    ⟨[.tache .tic, .tache (.expire 2)], (Option.some_get _).symm⟩ (by decide)

/-- When local time is UTC the light refines the schedule: in a quiet state inside the
window there is one sun for the profile of the plan, which follows the curve, and outside
the window every sun belongs to another profile. -/
theorem lumiere_utc (inst : Installation) (t0 : ℤ) (e : DefPlanificationProfil)
    (p : ParamSoleil) (hu : inst.env.parSeconde = 1) (hc : PlanEclaire inst 0 t0 e p)
    (m : Aquarium) (hm : Atteint inst t0 m) (hcalme : m.calme = true) :
    if EnFenetre e m.ideal.tache.maintenant then
      ∃ i x, m.ideal.tache.actifs e.ucNumeroProfil = [i] ∧
        m.soleils.filter (·.pProfil = i.adresse) = [x] ∧
          SuitCourbe inst.env p m.ideal.tache.maintenant (m.ideal.tache.maintenant % 86400) x
    else
      ∀ x ∈ m.soleils, ∃ i ∈ m.ideal.tache.profils, i.adresse = x.pProfil ∧
        i.ucNumeroProfil ≠ e.ucNumeroProfil := by
  obtain ⟨E, F, h⟩ := hm.eclaire hc
  have hlec : inst.env.lecture 0 m.ideal.tache.maintenant = m.ideal.tache.maintenant := by
    simp [Env.lecture, Env.time, hu]
  have hiff := h.suivi.calme hu hc.plan hc.fin_lt (Bool.and_eq_true_iff.mp hcalme).1
  split
  · rename_i hin
    obtain ⟨y, rfl⟩ := Option.ne_none_iff_exists'.mp (hiff.mpr hin)
    obtain ⟨t, i, q, hvue, -⟩ := h.suivi.tourne
    have hact := (CMainTask.vueArret_eq_iff.mp hvue).2.1
    obtain ⟨x, hx, hsuit⟩ := h.suitCourbe hc (hlec.symm ▸ hin.2) i (by simp [hact])
    exact ⟨i, x, hact, hx, by rwa [hlec] at hsuit⟩
  · rename_i hhors
    have hF : F = none := not_not.mp (mt hiff.mp hhors)
    subst hF
    have hact := (CMainTask.vueArret_eq_iff.mp h.suivi.tourne).2.1
    intro x hx
    obtain ⟨i, hi, hadr⟩ := h.rattache.profil x hx
    refine ⟨i, hi, hadr, fun hnum => ?_⟩
    have hmem := CMainTask.mem_actifs.mpr ⟨hi, hnum⟩
    rw [hact] at hmem
    exact List.not_mem_nil hmem

/-- The shipped program, started at nine: one second later its sun has had a tick. -/
theorem lumiere_utc_neuf_heures :
    let r := (Execution.exec (step .livree) (.depart 32400)
      [.tache .tic, .tache (.expire 2), .tache .avance, .tache .tic, .soleil 5]).get rfl
    ∃ i x, r.ideal.tache.actifs 1 = [i] ∧ r.soleils.filter (·.pProfil = i.adresse) = [x] ∧
      SuitCourbe Installation.livree.env paramSoleilProfil01 32401 32401 x :=
  lumiere_utc .livree 32400 planJour paramSoleilProfil01 rfl (planEclaire_livree 32400) _
    ⟨[.tache .tic, .tache (.expire 2), .tache .avance, .tache .tic, .soleil 5],
      (Option.some_get _).symm⟩ rfl

end Aquarium

end GestAqua
