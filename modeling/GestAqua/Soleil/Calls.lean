import GestAqua.Source.Soleil
import Mathlib.Data.List.Basic
import Mathlib.Order.Defs.LinearOrder

/-!
What one call of `iGererCourbe` does, read off its two phases: the lookup, which
leaves a selected segment or none, and the use of that segment.
-/

namespace GestAqua.CSoleil

variable {s : CSoleil} {t : ℤ}

def segments (s : CSoleil) : List SegmentSolaire := s.stParam.stCourbeSolaire.lSegment

/-! ### The lookup -/

theorem segment_of_index {k : ℕ} (h : s.sIndexlSegment = k) : s.segment = s.segments[k]? := by
  simp [segment, segments, h]

theorem segment_of_none (h : s.sIndexlSegment = -1) : s.segment = none := by
  simp [segment, h]

theorem selectionne_of_ne (h : s.sIndexlSegment ≠ -1) :
    s.selectionne t = { s with dX := s.dX + 1 } := by
  rw [selectionne, if_neg h]

/-- Without a selected segment, the lookup finds one that contains the offset if
there is one. -/
theorem selectionne_cases (h : s.sIndexlSegment = -1) :
    (∀ g ∈ s.segments, g.contient t = false) ∧ s.selectionne t = s ∨
      ∃ k g, s.segments[k]? = some g ∧ g.contient t = true ∧ s.selectionne t =
        { s with sIndexlSegment := (k : ℕ), usIntervalleX := g.usIntervalleX, dX := 0 } := by
  rw [selectionne, if_pos h]
  cases hf : s.stParam.stCourbeSolaire.lSegment.zipIdx.find? fun g => g.1.contient t with
  | none =>
      left
      refine ⟨fun g hg => ?_, rfl⟩
      obtain ⟨k, hk⟩ := List.mem_iff_getElem?.mp hg
      simpa using List.find?_eq_none.mp hf (g, k) (List.mem_zipIdx_iff_getElem?.mpr hk)
  | some gk =>
      obtain ⟨g, k⟩ := gk
      exact .inr ⟨k, g, List.mem_zipIdx_iff_getElem?.mp (List.mem_of_find?_eq_some hf),
        by simpa using List.find?_some hf, rfl⟩

@[simp] theorem stParam_selectionne : (s.selectionne t).stParam = s.stParam := by
  unfold selectionne
  split
  · split <;> rfl
  · rfl

@[simp] theorem gestion_selectionne :
    (s.selectionne t).gestionCourbeSolaire = s.gestionCourbeSolaire := by
  unfold selectionne
  split
  · split <;> rfl
  · rfl

/-! ### The use of the selected segment -/

variable (s t) in
/-- The segment that a call at the offset uses. -/
def utilise : Option SegmentSolaire := (s.selectionne t).segment

theorem utilise_of_ne (h : s.sIndexlSegment ≠ -1) : s.utilise t = s.segment := by
  rw [utilise, selectionne_of_ne h]
  rfl

theorem abscisse_selectionne : (s.selectionne t).abscisse t = s.abscisse t := by
  rw [abscisse, abscisse, stParam_selectionne]

theorem iGererCourbe_of_utilise {g : SegmentSolaire} (h : s.utilise t = some g) :
    s.iGererCourbe t =
      (({ s.selectionne t with dX := s.abscisse t }.regle (g.valeur (s.abscisse t))).relache t g,
        g.valeur (s.abscisse t)) := by
  have hseg : ({ s.selectionne t with dX := s.abscisse t } : CSoleil).segment = some g := h
  simp only [iGererCourbe, abscisse_selectionne, hseg]

theorem iGererCourbe_of_none (h : s.utilise t = none) :
    s.iGererCourbe t = ({ s.selectionne t with dX := s.abscisse t }, none) := by
  have hseg : ({ s.selectionne t with dX := s.abscisse t } : CSoleil).segment = none := h
  simp only [iGererCourbe, abscisse_selectionne, hseg]

variable (s t) in
theorem iGererCourbe_rapport :
    (s.iGererCourbe t).2 = (s.utilise t).bind fun g => g.valeur (s.abscisse t) := by
  cases h : s.utilise t with
  | none => rw [iGererCourbe_of_none h]; rfl
  | some g => rw [iGererCourbe_of_utilise h]; rfl

@[simp] theorem relache_gestion (g : SegmentSolaire) (r : CSoleil) :
    (r.relache t g).gestionCourbeSolaire = r.gestionCourbeSolaire := by
  unfold relache
  split <;> rfl

@[simp] theorem relache_stParam (g : SegmentSolaire) (r : CSoleil) :
    (r.relache t g).stParam = r.stParam := by
  unfold relache
  split <;> rfl

@[simp] theorem relache_intervalle (g : SegmentSolaire) (r : CSoleil) :
    (r.relache t g).usIntervalleX = r.usIntervalleX := by
  unfold relache
  split <;> rfl

theorem iGererCourbe_gestion {y : ℚ} (h : (s.iGererCourbe t).2 = some y) :
    (s.iGererCourbe t).1.gestionCourbeSolaire = s.gestionCourbeSolaire.setRapportCyclique y := by
  cases hu : s.utilise t with
  | none => simp [iGererCourbe_of_none hu] at h
  | some g =>
      rw [iGererCourbe_of_utilise hu] at h ⊢
      simp only at h
      rw [relache_gestion, h]
      exact congrArg (·.setRapportCyclique y) gestion_selectionne

variable (s t) in
@[simp] theorem iGererCourbe_stParam : (s.iGererCourbe t).1.stParam = s.stParam := by
  cases hu : s.utilise t with
  | none =>
      rw [iGererCourbe_of_none hu]
      exact stParam_selectionne
  | some g =>
      rw [iGererCourbe_of_utilise hu, relache_stParam]
      exact stParam_selectionne

variable (s t) in
theorem iGererCourbe_intervalle :
    (s.iGererCourbe t).1.usIntervalleX = (s.selectionne t).usIntervalleX := by
  cases hu : s.utilise t with
  | none => rw [iGererCourbe_of_none hu]
  | some g =>
      rw [iGererCourbe_of_utilise hu, relache_intervalle]
      rfl

@[simp] theorem relache_dX (g : SegmentSolaire) (r : CSoleil) : (r.relache t g).dX = r.dX := by
  unfold relache
  split <;> rfl

variable (s t) in
theorem iGererCourbe_dX : (s.iGererCourbe t).1.dX = s.abscisse t := by
  cases hu : s.utilise t with
  | none => rw [iGererCourbe_of_none hu]
  | some g =>
      rw [iGererCourbe_of_utilise hu, relache_dX]
      rfl

theorem iGererCourbe_index_of_utilise {g : SegmentSolaire} (h : s.utilise t = some g) :
    (s.iGererCourbe t).1.sIndexlSegment =
      if t + g.usIntervalleX ≥ g.tFin then -1 else (s.selectionne t).sIndexlSegment := by
  rw [iGererCourbe_of_utilise h, relache]
  split <;> rfl

theorem iGererCourbe_index_of_none (h : s.utilise t = none) :
    (s.iGererCourbe t).1.sIndexlSegment = (s.selectionne t).sIndexlSegment := by
  rw [iGererCourbe_of_none h]

/-! ### From one call to the next -/

/-- The cached index is `-1` or refers to a segment. -/
def IndexValide (s : CSoleil) : Prop := s.sIndexlSegment = -1 ∨ ∃ g, s.segment = some g

theorem segment_mem {g : SegmentSolaire} (h : s.segment = some g) : g ∈ s.segments := by
  unfold segment at h
  split at h
  · exact List.mem_of_getElem? h
  · simp at h

theorem IndexValide.index (h : s.IndexValide) :
    s.sIndexlSegment = -1 ∨ ∃ k < s.segments.length, s.sIndexlSegment = (k : ℕ) := by
  refine h.imp_right ?_
  rintro ⟨g, hg⟩
  unfold segment at hg
  split at hg
  · rename_i h0
    exact ⟨_, (List.getElem?_eq_some_iff.mp hg).1, (Int.toNat_of_nonneg h0).symm⟩
  · simp at hg

theorem ne_of_segment {g : SegmentSolaire} (h : s.segment = some g) : s.sIndexlSegment ≠ -1 := by
  intro hi
  simp [segment_of_none hi] at h

variable (t) in
/-- The three things a call can do: find no segment, find one that contains the
offset, or use the one that was selected before. -/
theorem IndexValide.utilise_cases (h : s.IndexValide) :
    (s.sIndexlSegment = -1 ∧ (∀ g ∈ s.segments, g.contient t = false) ∧ s.utilise t = none ∧
        s.selectionne t = s) ∨
      (∃ g ∈ s.segments, s.sIndexlSegment = -1 ∧ g.contient t = true ∧ s.utilise t = some g ∧
        (s.selectionne t).usIntervalleX = g.usIntervalleX) ∨
      ∃ g, s.segment = some g ∧ s.utilise t = some g ∧
        (s.selectionne t).usIntervalleX = s.usIntervalleX := by
  rcases h with hi | ⟨g, hg⟩
  · rcases selectionne_cases (t := t) hi with ⟨hno, hs⟩ | ⟨k, g, hk, hc, hs⟩
    · exact .inl ⟨hi, hno, by rw [utilise, hs, segment_of_none hi], hs⟩
    · refine .inr (.inl ⟨g, List.mem_of_getElem? hk, hi, hc, ?_, by rw [hs]⟩)
      rw [utilise, hs, segment_of_index (k := k) rfl]
      exact hk
  · have hne := ne_of_segment hg
    exact .inr (.inr ⟨g, hg, by rw [utilise_of_ne hne, hg], by rw [selectionne_of_ne hne]⟩)

variable (t) in
/-- A call leaves no segment selected, or the one it used, when the next call is
expected before its end. -/
theorem IndexValide.segment_apres (h : s.IndexValide) :
    (s.iGererCourbe t).1.sIndexlSegment = -1 ∨
      ∃ g, s.utilise t = some g ∧ (s.iGererCourbe t).1.segment = some g ∧
        t + g.usIntervalleX < g.tFin := by
  cases hu : s.utilise t with
  | none =>
      left
      rw [iGererCourbe_index_of_none hu]
      rcases h.utilise_cases t with ⟨hi, -, -, hs⟩ | ⟨g, -, -, -, hg, -⟩ | ⟨g, -, hg, -⟩
      · rw [hs, hi]
      · simp [hu] at hg
      · simp [hu] at hg
  | some g =>
      by_cases hfin : t + g.usIntervalleX ≥ g.tFin
      · left
        rw [iGererCourbe_index_of_utilise hu, if_pos hfin]
      · right
        refine ⟨g, rfl, ?_, not_le.mp hfin⟩
        rw [← hu, utilise, segment, segment, iGererCourbe_index_of_utilise hu, if_neg hfin,
          iGererCourbe_stParam, stParam_selectionne]

theorem IndexValide.iGererCourbe (h : s.IndexValide) : (s.iGererCourbe t).1.IndexValide :=
  (h.segment_apres t).imp_right fun ⟨g, _, hg, _⟩ => ⟨g, hg⟩

end GestAqua.CSoleil
