import GestAqua.Base.Execution
import GestAqua.Soleil.Calls
import Mathlib.Algebra.Order.BigOperators.Group.List

/-!
The ticks of the sun over one day.

`CSoleil::Thread` calls `iGererCourbe` each time its `select` times out, one
interval after the last call or later. The selected segment is kept from one call
to the next by a prediction of when that will be, so a call that comes late may
use a segment that is over. The ticks of a day are related here to the segments
that contain them.
-/

namespace GestAqua

structure Journee where
  soleil : CSoleil
  dernier : Option ℤ

namespace Journee

/-- A tick at an offset of the day: after the last one, by at least the current
interval. -/
def step (m : Journee) (t : ℤ) : Option Journee :=
  if 0 ≤ t ∧ t < 86400 ∧
      m.dernier.all (fun t₀ => decide (t₀ < t ∧ t₀ + m.soleil.usIntervalleX ≤ t)) = true then
    some ⟨(m.soleil.iGererCourbe t).1, some t⟩
  else none

theorem step_cases {m m' : Journee} {t : ℤ} (h : m.step t = some m') :
    (∀ t₀, m.dernier = some t₀ → t₀ < t ∧ t₀ + m.soleil.usIntervalleX ≤ t) ∧
      m' = ⟨(m.soleil.iGererCourbe t).1, some t⟩ := by
  unfold step at h
  split at h
  · rename_i hg
    refine ⟨fun t₀ h0 => ?_, by simpa using h.symm⟩
    simpa [h0] using hg.2.2
  · simp at h

end Journee

/-- A curve of affine segments in order, none empty, inside the day. -/
structure CourbeValide (l : List SegmentSolaire) : Prop where
  affine : ∀ g ∈ l, ∃ dA dB, g.stSegment = .affine dA dB
  triee : l.Pairwise fun g g' => g.tFin ≤ g'.stParamTemps.tDebut
  positive : ∀ g ∈ l, 0 < g.stParamTemps.tPeriod
  jour : ∀ g ∈ l, 0 ≤ g.stParamTemps.tDebut ∧ g.tFin ≤ 86400

theorem contient_unique {l : List SegmentSolaire}
    (h : l.Pairwise fun g g' => g.tFin ≤ g'.stParamTemps.tDebut) {t : ℤ} {g g' : SegmentSolaire}
    (hg : g ∈ l) (hg' : g' ∈ l) (hc : g.contient t = true) (hc' : g'.contient t = true) :
    g = g' := by
  induction l with
  | nil => simp at hg
  | cons a l ih =>
      obtain ⟨ha, hl⟩ := List.pairwise_cons.mp h
      have hgt := SegmentSolaire.contient_iff.mp hc
      have hgt' := SegmentSolaire.contient_iff.mp hc'
      rcases List.mem_cons.mp hg with rfl | hgl <;> rcases List.mem_cons.mp hg' with rfl | hgl'
      · rfl
      · have := ha g' hgl'
        omega
      · have := ha g hgl
        omega
      · exact ih hl hgl hgl'

/-! ### Chained segments -/

def periodeTotale (l : List (ℤ × ℕ × ℚ × ℚ)) : ℤ := (l.map (·.1)).sum

section Chaine

variable {l : List (ℤ × ℕ × ℚ × ℚ)} {d : ℤ}

theorem periodeTotale_nonneg (h : ∀ x ∈ l, 0 < x.1) : 0 ≤ periodeTotale l :=
  List.sum_nonneg fun p hp => by
    obtain ⟨x, hx, rfl⟩ := List.mem_map.mp hp
    exact (h x hx).le

theorem enchaine_bornes (h : ∀ x ∈ l, 0 < x.1) {g : SegmentSolaire} (hg : g ∈ enchaine d l) :
    (∃ dA dB, g.stSegment = .affine dA dB) ∧ 0 < g.stParamTemps.tPeriod ∧
      d ≤ g.stParamTemps.tDebut ∧ g.tFin ≤ d + periodeTotale l := by
  induction l generalizing d with
  | nil => simp [enchaine] at hg
  | cons x l ih =>
      have hl : ∀ y ∈ l, 0 < y.1 := fun y hy => h y (List.mem_cons_of_mem x hy)
      have hx := h x List.mem_cons_self
      have hpos := periodeTotale_nonneg hl
      have htot : periodeTotale (x :: l) = x.1 + periodeTotale l := by simp [periodeTotale]
      rcases List.mem_cons.mp hg with rfl | hg
      · refine ⟨⟨_, _, rfl⟩, hx, le_rfl, ?_⟩
        rw [htot]
        show d + x.1 ≤ _
        omega
      · obtain ⟨haff, hp, hdeb, hfin⟩ := ih hl hg
        refine ⟨haff, hp, by omega, ?_⟩
        rw [htot]
        omega

theorem enchaine_triee (h : ∀ x ∈ l, 0 < x.1) :
    (enchaine d l).Pairwise fun g g' => g.tFin ≤ g'.stParamTemps.tDebut := by
  induction l generalizing d with
  | nil => exact .nil
  | cons x l ih =>
      have hl : ∀ y ∈ l, 0 < y.1 := fun y hy => h y (List.mem_cons_of_mem x hy)
      exact List.pairwise_cons.mpr ⟨fun g' hg' => (enchaine_bornes hl hg').2.2.1, ih hl⟩

theorem enchaine_couvre {u : ℤ} (hd : d ≤ u) (hu : u < d + periodeTotale l) :
    ∃ g ∈ enchaine d l, g.contient u = true := by
  induction l generalizing d with
  | nil =>
      simp [periodeTotale] at hu
      omega
  | cons x l ih =>
      have htot : periodeTotale (x :: l) = x.1 + periodeTotale l := by simp [periodeTotale]
      by_cases hx : u < d + x.1
      · exact ⟨_, List.mem_cons_self, SegmentSolaire.contient_iff.mpr ⟨hd, hx⟩⟩
      · obtain ⟨g, hg, hc⟩ := ih (d := d + x.1) (by omega) (by omega)
        exact ⟨g, List.mem_cons_of_mem _ hg, hc⟩

theorem courbeValide_enchaine (h : ∀ x ∈ l, 0 < x.1) (hd : 0 ≤ d)
    (hfin : d + periodeTotale l ≤ 86400) : CourbeValide (enchaine d l) where
  affine g hg := (enchaine_bornes h hg).1
  triee := enchaine_triee h
  positive g hg := (enchaine_bornes h hg).2.1
  jour g hg := by
    obtain ⟨-, -, hdeb, hf⟩ := enchaine_bornes h hg
    omega

end Chaine

namespace CSoleil

variable {s : CSoleil} {t : ℤ}

/-- What is asked of a tick: the ratio is the value of the segment that contains
the offset, at the time since the beginning of the ephemeris in hours; none is
written outside the segments; the index that is left is `-1` or that of a
segment. -/
structure TickJuste (s : CSoleil) (t : ℤ) : Prop where
  dans : ∀ g ∈ s.segments, g.contient t = true → ∀ dA dB, g.stSegment = .affine dA dB →
    (s.iGererCourbe t).2 =
      some (dA * (((t - s.stParam.stEphemeride.tDebut : ℤ) : ℚ) / 3600) + dB)
  hors : (∀ g ∈ s.segments, g.contient t = false) → (s.iGererCourbe t).2 = none
  index : (s.iGererCourbe t).1.sIndexlSegment = -1 ∨
    ∃ k < s.segments.length, (s.iGererCourbe t).1.sIndexlSegment = (k : ℕ)

/-- The segment that is still selected when a tick comes is not over yet, or the
tick is in another segment whose line has the same value there. -/
def EncoreValable (s : CSoleil) (t : ℤ) : Prop :=
  ∀ g, s.segment = some g → t < g.tFin ∨
    ∃ g' ∈ s.segments, g'.contient t = true ∧ g'.valeur (s.abscisse t) = g.valeur (s.abscisse t)

instance (s : CSoleil) (t : ℤ) : Decidable (s.EncoreValable t) :=
  match h : s.segment with
  | some g =>
    decidable_of_iff (t < g.tFin ∨ ∃ g' ∈ s.segments, g'.contient t = true ∧
      g'.valeur (s.abscisse t) = g.valeur (s.abscisse t)) (by simp [EncoreValable, h])
  | none => isTrue (by simp [EncoreValable, h])

theorem valeur_affine {l : List SegmentSolaire} (hl : CourbeValide l) {g : SegmentSolaire}
    (hg : g ∈ l) (dX : ℚ) : ∃ y, g.valeur dX = some y := by
  obtain ⟨dA, dB, h⟩ := hl.affine g hg
  exact ⟨dA * dX + dB, by rw [SegmentSolaire.valeur, h]⟩

theorem iGererCourbe_segments : (s.iGererCourbe t).1.segments = s.segments := by
  rw [segments, segments, iGererCourbe_stParam]

theorem IndexValide.index_apres (h : s.IndexValide) :
    (s.iGererCourbe t).1.sIndexlSegment = -1 ∨
      ∃ k < s.segments.length, (s.iGererCourbe t).1.sIndexlSegment = (k : ℕ) := by
  have hi := (h.iGererCourbe (t := t)).index
  rwa [iGererCourbe_segments] at hi

/-- A tick is right when it writes the value of a segment that contains it. -/
theorem tickJuste_of_dans (hl : CourbeValide s.segments) (h : s.IndexValide) {g : SegmentSolaire}
    (hg : g ∈ s.segments) (hc : g.contient t = true)
    (hy : (s.iGererCourbe t).2 = g.valeur (s.abscisse t)) : s.TickJuste t where
  dans g' hg' hc' dA dB hA := by
    obtain rfl := contient_unique hl.triee hg hg' hc hc'
    rw [hy, SegmentSolaire.valeur, hA]
    rfl
  hors hno := by simp [hno g hg] at hc
  index := h.index_apres

theorem tickJuste_of_hors (h : s.IndexValide) (hno : ∀ g ∈ s.segments, g.contient t = false)
    (hy : (s.iGererCourbe t).2 = none) : s.TickJuste t where
  dans g hg hc := by simp [hno g hg] at hc
  hors _ := hy
  index := h.index_apres

end CSoleil

namespace Journee

/-- What every sequence of ticks keeps of the selected segment: it had begun at
the last tick, its interval is the current one, and the next tick is expected
before its end. -/
structure Suivi (l : List SegmentSolaire) (m : Journee) : Prop where
  segments : m.soleil.segments = l
  index : m.soleil.IndexValide
  selection : ∀ g, m.soleil.segment = some g → ∃ t₀, m.dernier = some t₀ ∧
    g.stParamTemps.tDebut ≤ t₀ ∧ m.soleil.usIntervalleX = g.usIntervalleX ∧
    t₀ + g.usIntervalleX < g.tFin

variable {l : List SegmentSolaire} {m m' : Journee} {t : ℤ}

theorem Suivi.step (h : Suivi l m) (hs : m.step t = some m') : Suivi l m' := by
  obtain ⟨hdern, rfl⟩ := step_cases hs
  refine ⟨?_, h.index.iGererCourbe, fun g hg => ⟨t, rfl, ?_⟩⟩
  · rw [CSoleil.iGererCourbe_segments, h.segments]
  · rcases h.index.segment_apres t with hi | ⟨g', hu, hg', hfin⟩
    · rw [CSoleil.segment_of_none hi] at hg
      simp at hg
    · obtain rfl : g' = g := by simpa [hg'] using hg
      rw [CSoleil.iGererCourbe_intervalle]
      rcases h.index.utilise_cases t with ⟨-, -, hn, -⟩ | ⟨g, -, -, hc, hg, hint⟩ |
        ⟨g, hseg, hg, hint⟩
      · simp [hu] at hn
      · obtain rfl : g' = g := by simpa [hu] using hg
        exact ⟨(SegmentSolaire.contient_iff.mp hc).1, hint, hfin⟩
      · obtain rfl : g' = g := by simpa [hu] using hg
        obtain ⟨t₀, h0, hdeb, hint', -⟩ := h.selection g' hseg
        have := (hdern t₀ h0).1
        exact ⟨by omega, hint.trans hint', hfin⟩

/-- A tick is right when the selected segment is still good, and only then. -/
theorem Suivi.tickJuste_iff (hl : CourbeValide l) (h : Suivi l m) (hs : m.step t = some m') :
    m.soleil.TickJuste t ↔ m.soleil.EncoreValable t := by
  obtain ⟨hdern, -⟩ := step_cases hs
  rw [← h.segments] at hl
  have hrapport := m.soleil.iGererCourbe_rapport t
  constructor
  · intro hj g hg
    have hgl := CSoleil.segment_mem hg
    have hgy : (m.soleil.iGererCourbe t).2 = g.valeur (m.soleil.abscisse t) := by
      rw [hrapport, CSoleil.utilise_of_ne (CSoleil.ne_of_segment hg), hg, Option.bind_some]
    obtain ⟨y, hy⟩ := CSoleil.valeur_affine hl hgl (m.soleil.abscisse t)
    refine or_iff_not_imp_left.mpr fun _ => ?_
    by_contra hno
    -- no other segment gives this value, so a value is written where none is due
    have hhors : ∀ g' ∈ m.soleil.segments, g'.contient t = false := by
      intro g' hg'
      by_contra hc
      have hc : g'.contient t = true := by simpa using hc
      obtain ⟨dA, dB, hA⟩ := hl.affine g' hg'
      refine hno ⟨g', hg', hc, ?_⟩
      rw [← hgy, hj.dans g' hg' hc dA dB hA, SegmentSolaire.valeur, hA]
      rfl
    simp [hj.hors hhors, hy] at hgy
  · intro he
    rcases h.index.utilise_cases t with ⟨-, hno, hu, -⟩ | ⟨g, hg, -, hc, hu, -⟩ |
      ⟨g, hseg, hu, -⟩
    · exact CSoleil.tickJuste_of_hors h.index hno (by rw [hrapport, hu]; rfl)
    · exact CSoleil.tickJuste_of_dans hl h.index hg hc (by rw [hrapport, hu]; rfl)
    · rcases he g hseg with hfin | ⟨g', hg', hc', hval⟩
      · obtain ⟨t₀, h0, hdeb, -, -⟩ := h.selection g hseg
        have hlt := (hdern t₀ h0).1
        exact CSoleil.tickJuste_of_dans hl h.index (CSoleil.segment_mem hseg)
          (SegmentSolaire.contient_iff.mpr ⟨by omega, hfin⟩) (by rw [hrapport, hu]; rfl)
      · exact CSoleil.tickJuste_of_dans hl h.index hg' hc' (by rw [hrapport, hu, hval]; rfl)

theorem Suivi.depart {pParam : ParamSoleil} {dX : ℚ}
    (hp : pParam.stCourbeSolaire.lSegment = l) : Suivi l ⟨.construit pParam dX, none⟩ where
  segments := hp
  index := .inl rfl
  selection g hg := by simp [CSoleil.segment, CSoleil.construit] at hg

/-- Every tick of a day uses the segment that contains it exactly when no tick
finds the selected segment finished, or finds the same value in the segment it is
in. -/
theorem ticks_justes_iff {pParam : ParamSoleil} (dX : ℚ)
    (hl : CourbeValide pParam.stCourbeSolaire.lSegment) {ticks : List ℤ}
    (h : Execution.exec step ⟨.construit pParam dX, none⟩ ticks = some m) :
    Execution.Meets step (fun m t => m.soleil.TickJuste t) ⟨.construit pParam dX, none⟩ ticks ↔
      Execution.Meets step (fun m t => m.soleil.EncoreValable t) ⟨.construit pParam dX, none⟩
        ticks :=
  Execution.meets_iff (I := Suivi pParam.stCourbeSolaire.lSegment)
    (fun _ _ _ hI _ hs => hI.step hs) (fun _ _ _ hI hs => hI.tickJuste_iff hl hs) (.depart rfl) h

/-- Ticks that come exactly one interval after each other are all right. -/
theorem ticks_ponctuels_justes {pParam : ParamSoleil} (dX : ℚ)
    (hl : CourbeValide pParam.stCourbeSolaire.lSegment) {ticks : List ℤ}
    (h : Execution.exec step ⟨.construit pParam dX, none⟩ ticks = some m)
    (hp : Execution.Meets step
      (fun m t => ∀ t₀, m.dernier = some t₀ → t = t₀ + m.soleil.usIntervalleX)
      ⟨.construit pParam dX, none⟩ ticks) :
    Execution.Meets step (fun m t => m.soleil.TickJuste t) ⟨.construit pParam dX, none⟩ ticks := by
  refine Execution.meets_of_guarded (I := Suivi pParam.stCourbeSolaire.lSegment)
    (fun _ _ _ hI _ hs => hI.step hs) (fun m t m' hI hponctuel hs => ?_) (.depart rfl) hp h
  refine (hI.tickJuste_iff hl hs).mpr fun g hg => .inl ?_
  obtain ⟨t₀, h0, -, hint, hfin⟩ := hI.selection g hg
  rw [hponctuel t₀ h0, hint]
  exact hfin

theorem courbeValide_paramSoleilProfil01 :
    CourbeValide paramSoleilProfil01.stCourbeSolaire.lSegment := by
  exact courbeValide_enchaine (by decide +kernel) (by decide) (by decide +kernel)

/-- The last minutes before thirteen hours on the shipped curve, on time. -/
theorem ticks_justes_treize_heures :
    Execution.Meets step (fun m t => m.soleil.TickJuste t)
      ⟨.construit paramSoleilProfil01 0, none⟩ [46710, 46770, 46830] :=
  (ticks_justes_iff 0 courbeValide_paramSoleilProfil01
    (Option.some_get (by decide +kernel)).symm).mpr (by decide +kernel)

/-- A board that sleeps forty seconds too long before thirteen hours: the tick is
in the fourth segment of the shipped curve and is given the value of the third. -/
theorem tick_en_retard_treize_heures :
    ¬ Execution.Meets step (fun m t => m.soleil.TickJuste t)
      ⟨.construit paramSoleilProfil01 0, none⟩ [46710, 46810] := by
  intro h
  let s : CSoleil := .construit paramSoleilProfil01 0
  let g : SegmentSolaire := ⟨⟨.inconnu, 46800, 3600, 0⟩, 30, .affine 5 70⟩
  have hs : step ⟨s, none⟩ 46710 = some ⟨(s.iGererCourbe 46710).1, some 46710⟩ :=
    if_pos (by decide)
  have hj := ((Execution.meets_cons_of_step hs).mp h).2.1
  have hy := hj.dans g (by decide +kernel) (by decide) 5 70 rfl
  exact absurd hy (by decide +kernel)

end Journee

end GestAqua
