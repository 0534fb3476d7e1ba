import GestAqua.Soleil.Segments

/-!
A curve that crosses midnight.

The segments of such a curve run past 86400, while `tGetOffsetFromMidnight`
starts again from zero. The ticks are taken here at instants of the clock, in a
zone with a constant offset, and compared with the time elapsed since the last
beginning of the ephemeris.
-/

namespace GestAqua

structure Nuit where
  soleil : CSoleil
  dernier : Option ℤ

namespace CSoleil

def offset (z t : ℤ) : ℤ := tGetOffsetFromMidnight (.fixe z) t

/-- The time elapsed at an instant since the most recent beginning of the
ephemeris. -/
def ecoule (z t : ℤ) (s : CSoleil) : ℤ := (t + z - s.stParam.stEphemeride.tDebut) % 86400

/-- The ephemeris is in progress at an instant. -/
def EnCours (z t : ℤ) (s : CSoleil) : Prop := s.ecoule z t < s.stParam.stEphemeride.tPeriod

instance (z t : ℤ) (s : CSoleil) : Decidable (s.EnCours z t) := inferInstanceAs (Decidable (_ < _))

/-- What is asked of a tick: while the ephemeris is in progress, the segment that
contains the elapsed time is used, and evaluated at that time in hours; otherwise
no segment stays selected. -/
structure TickNocturne (z t : ℤ) (s : CSoleil) : Prop where
  dedans : s.EnCours z t → ∃ g, s.utilise (offset z t) = some g ∧
    g.contient (s.stParam.stEphemeride.tDebut + s.ecoule z t) = true ∧
    (s.iGererCourbe (offset z t)).1.dX = (s.ecoule z t : ℚ) / 3600 ∧
    (s.iGererCourbe (offset z t)).2 = g.valeur ((s.ecoule z t : ℚ) / 3600)
  dehors : ¬ s.EnCours z t → (s.iGererCourbe (offset z t)).1.sIndexlSegment = -1

def AvantMinuit (z t : ℤ) (s : CSoleil) : Prop :=
  s.EnCours z t → s.stParam.stEphemeride.tDebut ≤ offset z t

instance (z t : ℤ) (s : CSoleil) : Decidable (s.AvantMinuit z t) :=
  inferInstanceAs (Decidable (_ → _))

end CSoleil

namespace Nuit

open CSoleil

/-- A tick is expected: the first one while the ephemeris is in progress, each of
the others exactly one interval after the last. -/
def attendu (z : ℤ) (m : Nuit) (t : ℤ) : Bool :=
  match m.dernier with
  | some t₀ => decide (t = t₀ + m.soleil.usIntervalleX)
  | none => decide (m.soleil.EnCours z t)

def step (z : ℤ) (m : Nuit) (t : ℤ) : Option Nuit :=
  if attendu z m t then some ⟨(m.soleil.iGererCourbe (offset z t)).1, some t⟩ else none

variable {z t : ℤ} {m m' : Nuit}

theorem step_cases (h : m.step z t = some m') :
    (∀ t₀, m.dernier = some t₀ → t = t₀ + m.soleil.usIntervalleX) ∧
      m' = ⟨(m.soleil.iGererCourbe (offset z t)).1, some t⟩ := by
  unfold step at h
  split at h
  · rename_i hg
    refine ⟨fun t₀ h0 => ?_, by simpa using h.symm⟩
    simpa [attendu, h0] using hg
  · simp at h

/-- What the ticks keep as long as they come before midnight: a segment that
stays selected contains the elapsed time of the tick that is expected next. -/
structure Veille (z : ℤ) (pParam : ParamSoleil) (m : Nuit) : Prop where
  param : m.soleil.stParam = pParam
  index : m.soleil.IndexValide
  suivant : ∀ g, m.soleil.segment = some g → ∃ t₀, m.dernier = some t₀ ∧
    m.soleil.usIntervalleX = g.usIntervalleX ∧
    m.soleil.EnCours z (t₀ + m.soleil.usIntervalleX) ∧
    g.contient (m.soleil.stParam.stEphemeride.tDebut +
      m.soleil.ecoule z (t₀ + m.soleil.usIntervalleX)) = true

/-- An ephemeris of at most a day that crosses midnight, covered by a chain of
affine segments. -/
structure CourbeNocturne (pParam : ParamSoleil) (l : List (ℤ × ℕ × ℚ × ℚ)) : Prop where
  debut_nonneg : 0 ≤ pParam.stEphemeride.tDebut
  debut_lt : pParam.stEphemeride.tDebut < 86400
  periode_pos : 0 < pParam.stEphemeride.tPeriod
  periode_le : pParam.stEphemeride.tPeriod ≤ 86400
  minuit : 86400 < pParam.stEphemeride.tDebut + pParam.stEphemeride.tPeriod
  chaine : pParam.stCourbeSolaire.lSegment = enchaine pParam.stEphemeride.tDebut l
  positive : ∀ x ∈ l, 0 < x.1
  couvre : periodeTotale l = pParam.stEphemeride.tPeriod

theorem offset_ecoule {pParam : ParamSoleil} {l : List (ℤ × ℕ × ℚ × ℚ)}
    (hc : CourbeNocturne pParam l) {s : CSoleil} (hp : s.stParam = pParam) (z t : ℤ) :
    0 ≤ offset z t ∧ offset z t < 86400 ∧ 0 ≤ s.ecoule z t ∧ s.ecoule z t < 86400 ∧
      (s.stParam.stEphemeride.tDebut ≤ offset z t →
        offset z t = s.stParam.stEphemeride.tDebut + s.ecoule z t) ∧
      (offset z t < s.stParam.stEphemeride.tDebut →
        offset z t + 86400 = s.stParam.stEphemeride.tDebut + s.ecoule z t) := by
  obtain ⟨h0, h1, -⟩ := hc
  rw [offset, tGetOffsetFromMidnight_eq, heureLocale_fixe, ecoule, hp]
  omega

variable {pParam : ParamSoleil} {l : List (ℤ × ℕ × ℚ × ℚ)}

theorem segments_eq (hc : CourbeNocturne pParam l) {s : CSoleil} (hp : s.stParam = pParam) :
    s.segments = enchaine s.stParam.stEphemeride.tDebut l := by
  rw [segments, hp, hc.chaine]

theorem Veille.utilise (hc : CourbeNocturne pParam l) (h : Veille z pParam m)
    (hs : m.step z t = some m') (hcours : m.soleil.EnCours z t)
    (hav : m.soleil.stParam.stEphemeride.tDebut ≤ offset z t) :
    ∃ g ∈ m.soleil.segments, m.soleil.utilise (offset z t) = some g ∧
      g.contient (offset z t) = true ∧
      (m.soleil.selectionne (offset z t)).usIntervalleX = g.usIntervalleX := by
  obtain ⟨h0, h1, he0, he1, hoff, -⟩ := offset_ecoule hc h.param z t
  have hegal := hoff hav
  rcases h.index.utilise_cases (offset z t) with ⟨-, hno, -, -⟩ | ⟨g, hg, -, hcont, hu, hint⟩ |
    ⟨g, hseg, hu, hint⟩
  · -- the chain covers the ephemeris
    have htot : offset z t < m.soleil.stParam.stEphemeride.tDebut + periodeTotale l := by
      rw [EnCours] at hcours
      rw [hc.couvre, ← h.param]
      omega
    obtain ⟨g, hg, hcont⟩ := enchaine_couvre hav htot
    rw [← segments_eq hc h.param] at hg
    simp [hno g hg] at hcont
  · exact ⟨g, hg, hu, hcont, hint⟩
  · obtain ⟨t₀, h0, hint', -, hcont⟩ := h.suivant g hseg
    rw [← (step_cases hs).1 t₀ h0, ← hegal] at hcont
    exact ⟨g, segment_mem hseg, hu, hcont, hint.trans hint'⟩

theorem Veille.utilise_none (hc : CourbeNocturne pParam l) (h : Veille z pParam m)
    (hs : m.step z t = some m') (hcours : ¬ m.soleil.EnCours z t) :
    m.soleil.sIndexlSegment = -1 ∧ m.soleil.utilise (offset z t) = none ∧
      m.soleil.selectionne (offset z t) = m.soleil := by
  obtain ⟨h0, h1, he0, he1, hoff, -⟩ := offset_ecoule hc h.param z t
  rcases h.index.utilise_cases (offset z t) with ⟨hi, -, hu, hsel⟩ | ⟨g, hg, -, hcont, -, -⟩ |
    ⟨g, hseg, -, -⟩
  · exact ⟨hi, hu, hsel⟩
  · -- a segment that contains the offset is part of the ephemeris
    rw [segments_eq hc h.param] at hg
    obtain ⟨-, -, hdeb, hfin⟩ := enchaine_bornes hc.positive hg
    obtain ⟨hlo, hhi⟩ := SegmentSolaire.contient_iff.mp hcont
    have hegal := hoff (by omega)
    rw [hc.couvre, ← h.param] at hfin
    rw [EnCours] at hcours
    omega
  · obtain ⟨t₀, ht₀, -, hsuiv, -⟩ := h.suivant g hseg
    rw [← (step_cases hs).1 t₀ ht₀] at hsuiv
    exact absurd hsuiv hcours

/-- A tick is right when it comes before midnight or after the end, and only
then: past midnight the abscissa is negative. -/
theorem Veille.tickNocturne_iff (hc : CourbeNocturne pParam l) (h : Veille z pParam m)
    (hs : m.step z t = some m') : m.soleil.TickNocturne z t ↔ m.soleil.AvantMinuit z t := by
  obtain ⟨h0, h1, he0, he1, hoff, -⟩ := offset_ecoule hc h.param z t
  constructor
  · intro hj hcours
    obtain ⟨g, -, -, hdX, -⟩ := hj.dedans hcours
    rw [iGererCourbe_dX, abscisse, div_left_inj' (by norm_num), Int.cast_inj] at hdX
    omega
  · intro hav
    refine ⟨fun hcours => ?_, fun hcours => ?_⟩
    · have hegal := hoff (hav hcours)
      have hx : m.soleil.abscisse (offset z t) = (m.soleil.ecoule z t : ℚ) / 3600 := by
        rw [abscisse, hegal, add_sub_cancel_left]
      obtain ⟨g, -, hu, hcont, -⟩ := h.utilise hc hs hcours (hav hcours)
      refine ⟨g, hu, by rwa [← hegal], by rw [iGererCourbe_dX, hx], ?_⟩
      rw [iGererCourbe_rapport, hu, hx]
      rfl
    · obtain ⟨hi, hu, hsel⟩ := h.utilise_none hc hs hcours
      rw [iGererCourbe_index_of_none hu, hsel, hi]

theorem Veille.step (hc : CourbeNocturne pParam l) (h : Veille z pParam m)
    (hav : m.soleil.AvantMinuit z t) (hs : m.step z t = some m') : Veille z pParam m' := by
  obtain ⟨h0, h1, he0, he1, hoff, -⟩ := offset_ecoule hc h.param z t
  obtain ⟨-, rfl⟩ := step_cases hs
  refine ⟨(iGererCourbe_stParam _ _).trans h.param, h.index.iGererCourbe, fun g hg => ?_⟩
  rcases h.index.segment_apres (offset z t) with hi | ⟨g', hu, hg', hfin⟩
  · rw [segment_of_none hi] at hg
    simp at hg
  · obtain rfl : g' = g := by simpa [hg'] using hg
    by_cases hcours : m.soleil.EnCours z t
    · obtain ⟨g, hmem, hu', hcont, hint⟩ := h.utilise hc hs hcours (hav hcours)
      obtain rfl : g' = g := by simpa [hu] using hu'
      have hegal := hoff (hav hcours)
      -- the next tick is expected in the same segment, hence in the same ephemeris
      rw [segments_eq hc h.param] at hmem
      obtain ⟨-, -, hdeb, hborne⟩ := enchaine_bornes hc.positive hmem
      obtain ⟨hlo, hhi⟩ := SegmentSolaire.contient_iff.mp hcont
      have hperiode := hc.periode_le
      rw [hc.couvre, ← h.param] at hborne
      rw [← h.param] at hperiode
      have hsuiv : m.soleil.ecoule z (t + g'.usIntervalleX) =
          m.soleil.ecoule z t + g'.usIntervalleX := by
        rw [ecoule] at he0 he1 hegal ⊢
        omega
      refine ⟨t, rfl, ?_⟩
      rw [iGererCourbe_intervalle, hint]
      refine ⟨rfl, ?_, ?_⟩
      · show CSoleil.ecoule z _ _ < _
        rw [ecoule, iGererCourbe_stParam, ← ecoule, hsuiv]
        omega
      · rw [SegmentSolaire.contient_iff, ecoule, iGererCourbe_stParam, ← ecoule, hsuiv]
        omega
    · obtain ⟨-, hnone, -⟩ := h.utilise_none hc hs hcours
      simp [hu] at hnone

theorem Veille.depart (dX : ℚ) : Veille z pParam ⟨.construit pParam dX, none⟩ where
  param := rfl
  index := .inl rfl
  suivant g hg := by simp [CSoleil.segment, construit] at hg

/-- Every tick is evaluated on the elapsed time exactly when no tick of the
ephemeris comes after midnight. -/
theorem ticks_nocturnes_iff (hc : CourbeNocturne pParam l) (z : ℤ) (dX : ℚ) {ticks : List ℤ}
    (h : Execution.exec (step z) ⟨.construit pParam dX, none⟩ ticks = some m) :
    Execution.Meets (step z) (fun m t => m.soleil.TickNocturne z t)
        ⟨.construit pParam dX, none⟩ ticks ↔
      Execution.Meets (step z) (fun m t => m.soleil.AvantMinuit z t)
        ⟨.construit pParam dX, none⟩ ticks :=
  Execution.meets_iff (I := Veille z pParam) (fun _ _ _ hI hG hs => hI.step hc hG hs)
    (fun _ _ _ hI hs => hI.tickNocturne_iff hc hs) (.depart dX) h

/-- A sun from twenty-two hours to two, in two segments that meet at midnight;
the interval of the first one is given. -/
def paramNuit (usIntervalleX : ℕ) : ParamSoleil where
  ucValide := 1
  ucAzimut := 100
  stEphemeride := { eType := .soleil, tDebut := 22 * heure, tPeriod := 4 * heure, tRelance := 0 }
  stCourbeSolaire := ⟨enchaine (22 * heure)
    [(2 * heure, usIntervalleX, 10, 5), (2 * heure, 60, -10, 45)]⟩

theorem courbeNocturne_paramNuit (usIntervalleX : ℕ) :
    CourbeNocturne (paramNuit usIntervalleX)
      [(2 * heure, usIntervalleX, 10, 5), (2 * heure, 60, -10, 45)] where
  debut_nonneg := by simp [paramNuit]
  debut_lt := by simp [paramNuit]
  periode_pos := by simp [paramNuit]
  periode_le := by simp [paramNuit]
  minuit := by simp [paramNuit]
  chaine := rfl
  positive := by simp
  couvre := by simp [periodeTotale, paramNuit]

/-- With an interval of four hours, the tick after the one of twenty-three hours
comes when the ephemeris is over. -/
theorem ticks_nocturnes_quatre_heures :
    Execution.Meets (step 0) (fun m t => m.soleil.TickNocturne 0 t)
      ⟨.construit (paramNuit 14400) 0, none⟩ [82800, 97200] :=
  (ticks_nocturnes_iff (courbeNocturne_paramNuit 14400) 0 0
    (Option.some_get (by decide +kernel)).symm).mpr (by decide +kernel)

/-- With an interval of one minute, the tick of midnight is in the second segment
and finds none: its offset is zero, and the segment begins at 86400. -/
theorem tick_minuit_sans_segment :
    ¬ Execution.Meets (step 0) (fun m t => m.soleil.TickNocturne 0 t)
      ⟨.construit (paramNuit 60) 0, none⟩ [86340, 86400] := by
  intro h
  let s : CSoleil := .construit (paramNuit 60) 0
  have hs : step 0 ⟨s, none⟩ 86340 = some ⟨(s.iGererCourbe (offset 0 86340)).1, some 86340⟩ :=
    if_pos (by decide)
  have hj := ((Execution.meets_cons_of_step hs).mp h).2.1
  obtain ⟨g, hu, -⟩ := hj.dedans (by decide)
  have hnone : (s.iGererCourbe (offset 0 86340)).1.utilise (offset 0 86400) = none := by decide
  simp [hnone] at hu

end Nuit

end GestAqua
