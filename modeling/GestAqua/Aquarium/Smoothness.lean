import GestAqua.Aquarium.Daylight
import GestAqua.Base.Polyline

/-!
How far the light is from the curve between two ticks.

A curve whose segments are joined is a polyline, so from one tick to the next the light
that is asked for changes by no more than the steepest slope times the interval, also
across the end of a segment. Inside the window the ratio of the modulation is never
further from the light that is asked for now, apart from the values that
`SetRapportCyclique` replaces.
-/

namespace GestAqua

def SegmentSolaire.ligne (tEphemeride : ℤ) (g : SegmentSolaire) : Polyline.Segment ℚ :=
  match g.stSegment with
  | .affine dA dB =>
    ⟨g.stParamTemps.tDebut, g.tFin, dA / 3600, dB - dA * tEphemeride / 3600⟩
  | _ => ⟨g.stParamTemps.tDebut, g.tFin, 0, 0⟩

theorem SegmentSolaire.ligne_over {g : SegmentSolaire} {tEphemeride t : ℤ}
    (h : g.contient t = true) : (g.ligne tEphemeride).Over t := by
  obtain ⟨hdeb, hfin⟩ := contient_iff.mp h
  have hleft : (g.stParamTemps.tDebut : ℚ) ≤ t := by exact_mod_cast hdeb
  have hright : (t : ℚ) < g.tFin := by exact_mod_cast hfin
  unfold ligne
  split <;> exact ⟨hleft, hright⟩

theorem SegmentSolaire.valeur_ligne {g : SegmentSolaire} {tEphemeride t : ℤ} {y : ℚ}
    (h : g.valeur (((t - tEphemeride : ℤ) : ℚ) / 3600) = some y) :
    y = (g.ligne tEphemeride).height t := by
  cases hg : g.stSegment with
  | affine dA dB =>
      simp only [valeur, hg, Option.some.injEq] at h
      simp only [ligne, hg, Polyline.Segment.height, ← h]
      push_cast
      ring
  | _ => simp [valeur, hg] at h

namespace ParamSoleil

variable {p : ParamSoleil} {L : ℚ}

/-- The curve has no jump, and changes by at most `L` per second. -/
def Lisse (p : ParamSoleil) (L : ℚ) : Prop :=
  Polyline.Chain L (p.stCourbeSolaire.lSegment.map (·.ligne p.stEphemeride.tDebut))

theorem Lisse.ecart_le (h : p.Lisse L) {t t' : ℤ} {y y' : ℚ} (hle : t ≤ t')
    (hy : p.valeurA t = some y) (hy' : p.valeurA t' = some y') : |y' - y| ≤ L * (t' - t) := by
  obtain ⟨g, hg, hval⟩ := Option.bind_eq_some_iff.mp hy
  obtain ⟨g', hg', hval'⟩ := Option.bind_eq_some_iff.mp hy'
  rw [SegmentSolaire.valeur_ligne hval, SegmentSolaire.valeur_ligne hval']
  exact Polyline.Chain.rise_le h (List.mem_map_of_mem (List.mem_of_find?_eq_some hg))
    (List.mem_map_of_mem (List.mem_of_find?_eq_some hg'))
    (SegmentSolaire.ligne_over (List.find?_some hg))
    (SegmentSolaire.ligne_over (by simpa using List.find?_some hg')) (by exact_mod_cast hle)

theorem lisse_paramSoleilProfil01 : paramSoleilProfil01.Lisse (1 / 96) where
  joined := by decide +kernel
  ordered := by decide +kernel
  slope := by decide +kernel

end ParamSoleil

namespace Aquarium

variable {inst : Installation} {z t0 : ℤ} {e : DefPlanificationProfil} {p : ParamSoleil}
  {m : Aquarium} {E F : Option ℤ}

theorem Eclaire.debut_le (hc : PlanEclaire inst z t0 e p) (h : Eclaire inst z t0 e p m E F)
    {i : CProfil} (hi : i ∈ m.ideal.tache.actifs e.ucNumeroProfil) :
    e.stPlanif.tDebut ≤ inst.env.lecture z m.ideal.tache.maintenant % 86400 := by
  cases F with
  | none =>
      rw [(CMainTask.vueArret_eq_iff.mp h.suivi.tourne).2.1] at hi
      exact absurd hi List.not_mem_nil
  | some y =>
      obtain ⟨hle, N, hN, hdeb, -⟩ := h.suivi.arret y rfl
      have hlec := Env.lecture_mono hc.horloge z hle
      have hfin := hc.fin_lt
      omega

/-- What the sun of a running instance has set is as far from the light asked for now as
the curve can have moved since its last tick. -/
theorem ecart_lumiere (inst : Installation) (z t0 : ℤ) (e : DefPlanificationProfil)
    (p : ParamSoleil) (hc : PlanEclaire inst z t0 e p) (L : ℚ) (hL : p.Lisse L) (m : Aquarium)
    (hm : Atteint inst t0 m)
    (hoff : inst.env.lecture z m.ideal.tache.maintenant % 86400 < e.tFin) :
    ∀ i ∈ m.ideal.tache.actifs e.ucNumeroProfil, ∃ x y,
      m.soleils.filter (·.pProfil = i.adresse) = [x] ∧
      p.valeurA (inst.env.lecture z m.ideal.tache.maintenant % 86400) = some y ∧
      ∀ t₀, x.dernier = some t₀ → ∃ y₀, p.valeurA t₀ = some y₀ ∧
        |y - y₀| ≤ L * x.soleil.usIntervalleX ∧
        (0 < y₀ → y₀ < 100 →
          |y - x.soleil.gestionCourbeSolaire.dRapportCyclique| ≤ L * x.soleil.usIntervalleX) := by
  intro i hi
  obtain ⟨E, F, h⟩ := hm.eclaire hc
  obtain ⟨x, hx, hsuit⟩ := h.suitCourbe hc hoff i hi
  obtain ⟨g, hg, hcont⟩ := hc.courbe.couvre _ (h.debut_le hc hi) hoff
  obtain ⟨dA, dB, haff⟩ := hc.courbe.courbe.affine g hg
  have hy := ParamSoleil.valeurA_eq hc.courbe.courbe hg hcont
  rw [SegmentSolaire.valeur, haff] at hy
  refine ⟨x, _, hx, hy, fun t₀ h0 => ?_⟩
  rcases hsuit.rapport with ⟨hnone, -⟩ | ⟨t₁, y₀, h1, hle, hint, hy₀, hrap⟩
  · cases hnone.symm.trans h0
  · obtain rfl : t₁ = t₀ := Option.some.inj (h1.symm.trans h0)
    have hLnn : 0 ≤ L := (abs_nonneg _).trans
      (Polyline.Chain.slope hL (g.ligne p.stEphemeride.tDebut) (List.mem_map_of_mem hg))
    have hecart := hL.ecart_le hle hy₀ hy
    have hborne : (((inst.env.lecture z m.ideal.tache.maintenant % 86400 : ℤ) : ℚ) - (t₁ : ℤ)) ≤
        x.soleil.usIntervalleX := by
      have : inst.env.lecture z m.ideal.tache.maintenant % 86400 - t₁ ≤
          x.soleil.usIntervalleX := by omega
      exact_mod_cast this
    have hfin := hecart.trans (mul_le_mul_of_nonneg_left hborne hLnn)
    refine ⟨y₀, hy₀, hfin, fun hpos hlt => ?_⟩
    rw [hrap, CPwmGpio.rapportRetenu, if_pos ⟨hpos, hlt⟩]
    exact hfin

/-- The shipped curve moves by a ninety-sixth of a percent per second at most. One second
after nine its sun has had its first tick. -/
theorem ecart_lumiere_neuf_heures :
    let r := (Execution.exec (step .livree) (.depart 32400)
      [.tache .tic, .tache (.expire 2), .tache .avance, .tache .tic, .soleil 5]).get rfl
    ∀ i ∈ r.ideal.tache.actifs 1, ∃ x y,
      r.soleils.filter (·.pProfil = i.adresse) = [x] ∧
      paramSoleilProfil01.valeurA 32401 = some y ∧
      ∀ t₀, x.dernier = some t₀ → ∃ y₀, paramSoleilProfil01.valeurA t₀ = some y₀ ∧
        |y - y₀| ≤ 1 / 96 * x.soleil.usIntervalleX ∧
        (0 < y₀ → y₀ < 100 →
          |y - x.soleil.gestionCourbeSolaire.dRapportCyclique| ≤
            1 / 96 * x.soleil.usIntervalleX) :=
  ecart_lumiere .livree 0 32400 planJour paramSoleilProfil01 (planEclaire_livree 32400) (1 / 96)
    ParamSoleil.lisse_paramSoleilProfil01 _
    ⟨[.tache .tic, .tache (.expire 2), .tache .avance, .tache .tic, .soleil 5],
      (Option.some_get _).symm⟩ (by decide)

end Aquarium

end GestAqua
