import GestAqua.Soleil.Calls
import Mathlib.Algebra.Order.Floor.Semifield
import Mathlib.Tactic.Linarith
import Mathlib.Tactic.NormNum
import Mathlib.Tactic.Positivity

/-!
The high time that a point of the curve programs.

`SetRapportCyclique` falls back to 50 percent outside the open interval of its
guard, so the high time as a function of the value of the curve is the truncated
share of the period inside the interval and half of the period on both sides. Two
calls of `iGererCourbe` are compared here through their values.
-/

namespace GestAqua.CSoleil

def hautProgramme (P : ℕ) (y : ℚ) : ℕ := ⌊P * CPwmGpio.rapportRetenu y / 100⌋₊

/-- The high time is the share of the period, up to one microsecond, for the
values that are percentages. -/
def Precis (P : ℕ) (y : ℚ) (haut : ℕ) : Prop :=
  0 ≤ y → y ≤ 100 → |(haut : ℚ) - P * y / 100| ≤ 1

/-- The values that the guard of `SetRapportCyclique` replaces are in order with
the others: neither end of the percentage range is reached, and a value outside
the range is on the side of 50 percent on which its replacement is. Periods of at
most three microseconds leave more room. -/
structure SansRepli (P : ℕ) (y₁ y₂ : ℚ) : Prop where
  zero : y₁ = 0 ∨ y₂ = 0 → P ≤ 3
  cent : y₁ = 100 ∨ y₂ = 100 → P ≤ 2
  dessous : y₁ ≤ 0 → 0 < y₂ → y₂ < 100 → 100 * (P / 2 : ℕ) ≤ P * y₂
  dessus : 0 < y₁ → y₁ < 100 → 100 ≤ y₂ → P * y₁ < 100 * ((P / 2 : ℕ) + 1)

theorem haut_iGererCourbe {s : CSoleil} {t : ℤ} {y : ℚ} (h : (s.iGererCourbe t).2 = some y) :
    (s.iGererCourbe t).1.gestionCourbeSolaire.ui64UsecEtatHaut =
      hautProgramme s.gestionCourbeSolaire.ui64UsecPeriod y := by
  rw [iGererCourbe_gestion h]
  rfl

/-! ### One value -/

section Valeur

variable {P : ℕ} {y : ℚ}

theorem hautProgramme_dans (h0 : 0 < y) (h100 : y < 100) : hautProgramme P y = ⌊P * y / 100⌋₊ := by
  rw [hautProgramme, CPwmGpio.rapportRetenu, if_pos ⟨h0, h100⟩]

theorem hautProgramme_hors (h : y ≤ 0 ∨ 100 ≤ y) : hautProgramme P y = P / 2 := by
  have hguard : ¬ (0 < y ∧ y < 100) := by
    rintro ⟨h0, h100⟩
    rcases h with h | h <;> linarith
  rw [hautProgramme, CPwmGpio.rapportRetenu, if_neg hguard,
    show (P : ℚ) * 50 / 100 = (P : ℚ) / (2 : ℕ) by push_cast; ring, Nat.floor_div_eq_div]

theorem part_nonneg (h0 : 0 < y) : (0 : ℚ) ≤ P * y / 100 := by positivity

/-- Inside the guard the truncation loses less than one microsecond. -/
theorem precis_dans (h0 : 0 < y) (h100 : y < 100) : Precis P y (hautProgramme P y) := by
  intro _ _
  have hle := Nat.floor_le (part_nonneg (P := P) h0)
  have hlt := Nat.lt_floor_add_one ((P : ℚ) * y / 100)
  rw [hautProgramme_dans h0 h100, abs_le]
  constructor <;> linarith

theorem precis_zero : Precis P 0 (P / 2) ↔ P ≤ 3 := by
  have hmoitie : |((P / 2 : ℕ) : ℚ) - P * 0 / 100| ≤ 1 ↔ P / 2 ≤ 1 := by
    rw [mul_zero, zero_div, sub_zero, Nat.abs_cast]
    exact_mod_cast Iff.rfl
  constructor
  · intro h
    have := hmoitie.mp (h le_rfl (by norm_num))
    omega
  · intro h _ _
    exact hmoitie.mpr (by omega)

theorem precis_cent : Precis P 100 (P / 2) ↔ P ≤ 2 := by
  have hreste : (P : ℚ) = (P / 2 : ℕ) + (P - P / 2 : ℕ) := by
    exact_mod_cast (Nat.add_sub_cancel' (Nat.div_le_self P 2)).symm
  have hmoitie : |((P / 2 : ℕ) : ℚ) - P * 100 / 100| ≤ 1 ↔ P - P / 2 ≤ 1 := by
    rw [mul_div_cancel_right₀ _ (by norm_num), hreste, sub_add_cancel_left, abs_neg, Nat.abs_cast]
    exact_mod_cast Iff.rfl
  constructor
  · intro h
    have := hmoitie.mp (h (by norm_num) le_rfl)
    omega
  · intro h _ _
    exact hmoitie.mpr (by omega)

theorem precis_iff : Precis P y (hautProgramme P y) ↔ (y = 0 → P ≤ 3) ∧ (y = 100 → P ≤ 2) := by
  rcases lt_trichotomy y 0 with hneg | rfl | h0
  · exact iff_of_true (fun h => absurd h hneg.not_ge)
      ⟨fun h => absurd h hneg.ne, fun h => by linarith⟩
  · rw [hautProgramme_hors (.inl le_rfl), precis_zero]
    exact ⟨fun h => ⟨fun _ => h, fun h => by norm_num at h⟩, fun h => h.1 rfl⟩
  · rcases lt_trichotomy y 100 with h100 | rfl | h100
    · exact iff_of_true (precis_dans h0 h100)
        ⟨fun h => absurd h h0.ne', fun h => absurd h h100.ne⟩
    · rw [hautProgramme_hors (.inr le_rfl), precis_cent]
      exact ⟨fun h => ⟨fun h => by norm_num at h, fun _ => h⟩, fun h => h.2 rfl⟩
    · exact iff_of_true (fun _ h => absurd h h100.not_ge)
        ⟨fun h => absurd h h0.ne', fun h => absurd h h100.ne'⟩

end Valeur

/-! ### Two values -/

section Ordre

variable {P : ℕ} {y₁ y₂ : ℚ}

/-- The order of two high times, by the sides of the guard on which the values
are. -/
theorem hautProgramme_le_iff (hle : y₁ ≤ y₂) :
    hautProgramme P y₁ ≤ hautProgramme P y₂ ↔
      (y₁ ≤ 0 → 0 < y₂ → y₂ < 100 → 100 * (P / 2 : ℕ) ≤ P * y₂) ∧
        (0 < y₁ → y₁ < 100 → 100 ≤ y₂ → P * y₁ < 100 * ((P / 2 : ℕ) + 1)) := by
  by_cases h₁ : 0 < y₁ ∧ y₁ < 100
  · obtain ⟨h0, h100⟩ := h₁
    by_cases h₂ : y₂ < 100
    · -- both values are kept
      have hcroit : (P : ℚ) * y₁ / 100 ≤ P * y₂ / 100 := by gcongr
      rw [hautProgramme_dans h0 h100, hautProgramme_dans (h0.trans_le hle) h₂]
      exact iff_of_true (Nat.floor_le_floor hcroit)
        ⟨fun h => absurd h h0.not_ge, fun _ _ h => absurd h h₂.not_ge⟩
    · -- the greater one is replaced
      have hseuil : hautProgramme P y₁ ≤ P / 2 ↔ (P : ℚ) * y₁ < 100 * ((P / 2 : ℕ) + 1) := by
        rw [hautProgramme_dans h0 h100, ← Nat.lt_succ_iff, Nat.floor_lt (part_nonneg h0),
          div_lt_iff₀ (by norm_num), mul_comm (100 : ℚ), Nat.cast_succ]
      rw [hautProgramme_hors (.inr (not_lt.mp h₂)), hseuil]
      exact ⟨fun h => ⟨fun h => absurd h h0.not_ge, fun _ _ _ => h⟩,
        fun h => h.2 h0 h100 (not_lt.mp h₂)⟩
  · have hhors : y₁ ≤ 0 ∨ 100 ≤ y₁ := by
      by_contra hcon
      exact h₁ (by simpa using hcon)
    by_cases h₂ : 0 < y₂ ∧ y₂ < 100
    · -- the smaller one is replaced
      obtain ⟨h0, h100⟩ := h₂
      have hneg : y₁ ≤ 0 := hhors.resolve_right (by linarith)
      have hseuil : P / 2 ≤ hautProgramme P y₂ ↔ 100 * ((P / 2 : ℕ) : ℚ) ≤ P * y₂ := by
        rw [hautProgramme_dans h0 h100, Nat.le_floor_iff (part_nonneg h0),
          le_div_iff₀ (by norm_num), mul_comm (100 : ℚ)]
      rw [hautProgramme_hors hhors, hseuil]
      exact ⟨fun h => ⟨fun _ _ _ => h, fun h => absurd h hneg.not_gt⟩, fun h => h.1 hneg h0 h100⟩
    · have hhors₂ : y₂ ≤ 0 ∨ 100 ≤ y₂ := by
        by_contra hcon
        exact h₂ (by simpa using hcon)
      rw [hautProgramme_hors hhors, hautProgramme_hors hhors₂]
      exact iff_of_true le_rfl
        ⟨fun _ h h' => absurd ⟨h, h'⟩ h₂, fun h h' => absurd ⟨h, h'⟩ h₁⟩

end Ordre

/-- Two calls program high times in the order of their values, each the share of
the period that its value asks for, exactly for the values that do not fold. -/
theorem lumiere_fidele_iff {s₁ s₂ : CSoleil} {t₁ t₂ : ℤ} {y₁ y₂ : ℚ} {P : ℕ}
    (hP₁ : s₁.gestionCourbeSolaire.ui64UsecPeriod = P)
    (hP₂ : s₂.gestionCourbeSolaire.ui64UsecPeriod = P)
    (h₁ : (s₁.iGererCourbe t₁).2 = some y₁) (h₂ : (s₂.iGererCourbe t₂).2 = some y₂)
    (hle : y₁ ≤ y₂) :
    ((s₁.iGererCourbe t₁).1.gestionCourbeSolaire.ui64UsecEtatHaut ≤
        (s₂.iGererCourbe t₂).1.gestionCourbeSolaire.ui64UsecEtatHaut ∧
      Precis P y₁ (s₁.iGererCourbe t₁).1.gestionCourbeSolaire.ui64UsecEtatHaut ∧
      Precis P y₂ (s₂.iGererCourbe t₂).1.gestionCourbeSolaire.ui64UsecEtatHaut) ↔
      SansRepli P y₁ y₂ := by
  rw [haut_iGererCourbe h₁, haut_iGererCourbe h₂, hP₁, hP₂, hautProgramme_le_iff hle, precis_iff,
    precis_iff]
  constructor
  · rintro ⟨⟨hdessous, hdessus⟩, ⟨hz₁, hc₁⟩, hz₂, hc₂⟩
    exact ⟨fun h => h.elim hz₁ hz₂, fun h => h.elim hc₁ hc₂, hdessous, hdessus⟩
  · intro h
    exact ⟨⟨h.dessous, h.dessus⟩, ⟨fun hy => h.zero (.inl hy), fun hy => h.cent (.inl hy)⟩,
      fun hy => h.zero (.inr hy), fun hy => h.cent (.inr hy)⟩

/-- Over all values at once the law holds of no period of more than one
microsecond: just above zero the high time falls from half of the period to
nothing. -/
theorem hautProgramme_monotone_iff (P : ℕ) :
    (Monotone (hautProgramme P) ∧ ∀ y, Precis P y (hautProgramme P y)) ↔ P ≤ 1 := by
  constructor
  · rintro ⟨hmono, -⟩
    have hP : (0 : ℚ) < P + 1 := by positivity
    have hy : (1 : ℚ) / (P + 1) ≤ 1 := by
      rw [div_le_one hP]
      linarith [Nat.cast_nonneg (α := ℚ) P]
    have hpart : (P : ℚ) * (1 / (P + 1)) < 1 := by
      rw [mul_one_div, div_lt_one hP]
      linarith
    have hle := (hautProgramme_le_iff (P := P) (by positivity)).mp
      (hmono (show (0 : ℚ) ≤ 1 / (P + 1) by positivity))
    have hmoitie : (100 : ℚ) * (P / 2 : ℕ) < 100 * 1 := by
      linarith [hle.1 le_rfl (by positivity) (by linarith)]
    have hnul : P / 2 < 1 := by exact_mod_cast lt_of_mul_lt_mul_left hmoitie (by norm_num)
    omega
  · intro hP
    have hnul : P / 2 = 0 := by omega
    have hPq : (P : ℚ) ≤ 1 := by exact_mod_cast hP
    refine ⟨fun y₁ y₂ hle => (hautProgramme_le_iff hle).mpr ⟨fun _ h0 _ => ?_, fun h0 h _ => ?_⟩,
      fun y => precis_iff.mpr ⟨fun _ => by omega, fun _ => by omega⟩⟩
    · rw [hnul, Nat.cast_zero, mul_zero]
      positivity
    · rw [hnul, Nat.cast_zero, zero_add, mul_one]
      exact lt_of_le_of_lt (mul_le_of_le_one_left h0.le hPq) h

def soleilExpedie : CSoleil := construit paramSoleilProfil01 0

/-- On the shipped curve, the light at nine does not exceed the light at noon. -/
theorem lumiere_fidele_midi :
    ((soleilExpedie.iGererCourbe 32400).1.gestionCourbeSolaire.ui64UsecEtatHaut ≤
        (soleilExpedie.iGererCourbe 43200).1.gestionCourbeSolaire.ui64UsecEtatHaut ∧
      Precis 1000 50 (soleilExpedie.iGererCourbe 32400).1.gestionCourbeSolaire.ui64UsecEtatHaut ∧
      Precis 1000 (175 / 2)
        (soleilExpedie.iGererCourbe 43200).1.gestionCourbeSolaire.ui64UsecEtatHaut) :=
  (lumiere_fidele_iff (by decide +kernel) (by decide +kernel) (by decide +kernel)
    (by decide +kernel) (by norm_num)).mpr
    ⟨by norm_num, by norm_num, by norm_num, by norm_num⟩

/-- The shipped curve peaks at exactly 100 at fourteen hours: half a minute
before, 999 of the 1000 microseconds are high, and at the peak 500. -/
theorem lumiere_inversee_quatorze_heures :
    let s := (soleilExpedie.iGererCourbe 50370).1
    (soleilExpedie.iGererCourbe 50370).2 = some (2399 / 24) ∧
      (s.iGererCourbe 50400).2 = some 100 ∧
      (2399 / 24 : ℚ) ≤ 100 ∧
      ¬ s.gestionCourbeSolaire.ui64UsecEtatHaut ≤
        (s.iGererCourbe 50400).1.gestionCourbeSolaire.ui64UsecEtatHaut := by
  decide +kernel

end GestAqua.CSoleil
