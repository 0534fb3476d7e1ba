import GestAqua.Source.ParamAppli

/-!
Which changes of the parameters `pstInit` flags.

A flag is one bit, and the `int` of `memcmp` is put into it as it is: the flag takes
its lowest bit. Of two tables that differ the C library promises the sign of the
result, not its parity, so that a change whose comparison is even is lost.
`Signalable` is what one table and its flag need.
-/

namespace GestAqua

open Bytes

theorem setWidth_un_eq_one_iff (x : BitVec 32) : x.setWidth 1 = 1 ↔ x.toInt % 2 = 1 := by
  have hone : (1 : BitVec 1).toNat = 1 := rfl
  rw [← BitVec.toNat_inj, BitVec.toNat_setWidth, BitVec.toInt_eq_toNat_cond, hone]
  split <;> omega

theorem or_eq_one_iff (b b' : BitVec 1) : b ||| b' = 1 ↔ b = 1 ∨ b' = 1 := by
  revert b b'
  decide

theorem ouEgal_eq_one_iff (b : BitVec 1) (x : BitVec 32) :
    ouEgal b x = 1 ↔ b = 1 ∨ x.toInt % 2 = 1 := by
  have hor : ouEgal b x = b ||| x.setWidth 1 := by simp [ouEgal]
  rw [hor, or_eq_one_iff, setWidth_un_eq_one_iff]

@[simp] theorem ouEgal_zero (b : BitVec 1) : ouEgal b 0 = b := by
  revert b
  decide

/-- For one table and its flag: the table is loaded as it was, or the flag was set,
or the value of the comparison is odd. -/
def Signalable {k : ℕ} (memcmp : Memcmp) (drapeau : BitVec 1) (avant apres : Vector UInt8 k) :
    Prop :=
  apres = avant ∨ drapeau = 1 ∨ (memcmp.memcmp avant apres).toInt % 2 = 1

/-- An even comparison of tables that differ is what the flag misses. -/
theorem signalable_iff {k : ℕ} (memcmp : Memcmp) (drapeau : BitVec 1)
    (avant apres : Vector UInt8 k) :
    (ouEgal drapeau (memcmp.memcmp avant apres) = 1 ↔ drapeau = 1 ∨ apres ≠ avant) ↔
      Signalable memcmp drapeau avant apres := by
  have himpair : (memcmp.memcmp avant apres).toInt % 2 = 1 → apres ≠ avant := by
    rintro hodd rfl
    rw [(memcmp.eq_zero_iff apres apres).mpr rfl] at hodd
    exact absurd hodd (by decide)
  rw [ouEgal_eq_one_iff, Signalable]
  by_cases hd : drapeau = 1
  · simp [hd]
  · simp only [hd, false_or]
    constructor
    · intro h
      by_cases heq : apres = avant
      · exact .inl heq
      · exact .inr (h.mpr heq)
    · rintro (heq | hodd)
      · exact ⟨himpair, fun hne => absurd heq hne⟩
      · exact ⟨himpair, fun _ => hodd⟩

namespace CParametreApplication

variable {n p : ℕ}

theorem pstInit_snd (memcmp : Memcmp) (c : Contenu n p) (s : ParametreAppli n p) :
    (pstInit memcmp c s).2 =
      { stParamProfil := store c.profil s.stParamProfil
        stPlanifProfil := store c.planif s.stPlanifProfil
        stParamChange :=
          { bParamProfil := ouEgal s.stParamChange.bParamProfil
              (memcmp.memcmp s.stParamProfil (store c.profil s.stParamProfil))
            bParamPlanifProfil := ouEgal s.stParamChange.bParamPlanifProfil
              (memcmp.memcmp s.stPlanifProfil (store c.planif s.stPlanifProfil))
            bVide := s.stParamChange.bVide } } := rfl

/-- The same content loaded again is no change. -/
theorem pstInit_pstInit (memcmp : Memcmp) (c : Contenu n p) (s : ParametreAppli n p) :
    (pstInit memcmp c (pstInit memcmp c s).2).2 = (pstInit memcmp c s).2 := by
  have hmeme : ∀ {k : ℕ} (t : Vector UInt8 k), memcmp.memcmp t t = 0 :=
    fun t => (memcmp.eq_zero_iff t t).mpr rfl
  rw [pstInit_snd memcmp c s, pstInit_snd]
  simp only [store_store, hmeme, ouEgal_zero]

/-- A call of `pstInit` flags the changes: each flag is set if it was or if its
table is not the same, nothing else of the word changes, and the same content
loaded again changes nothing. -/
structure Signale (memcmp : Memcmp) (c : Contenu n p) (s : ParametreAppli n p) : Prop where
  profil : (pstInit memcmp c s).2.stParamChange.bParamProfil = 1 ↔
    s.stParamChange.bParamProfil = 1 ∨
      (pstInit memcmp c s).2.stParamProfil ≠ s.stParamProfil
  planif : (pstInit memcmp c s).2.stParamChange.bParamPlanifProfil = 1 ↔
    s.stParamChange.bParamPlanifProfil = 1 ∨
      (pstInit memcmp c s).2.stPlanifProfil ≠ s.stPlanifProfil
  vide : (pstInit memcmp c s).2.stParamChange.bVide = s.stParamChange.bVide
  encore : (pstInit memcmp c (pstInit memcmp c s).2).2 = (pstInit memcmp c s).2

variable {memcmp : Memcmp} {c : Contenu n p} {s : ParametreAppli n p}

theorem Signale.signalable (h : Signale memcmp c s) :
    Signalable memcmp s.stParamChange.bParamProfil s.stParamProfil
        (store c.profil s.stParamProfil) ∧
      Signalable memcmp s.stParamChange.bParamPlanifProfil s.stPlanifProfil
        (store c.planif s.stPlanifProfil) :=
  ⟨(signalable_iff _ _ _ _).mp h.profil, (signalable_iff _ _ _ _).mp h.planif⟩

theorem signale_of_signalable
    (hprofil : Signalable memcmp s.stParamChange.bParamProfil s.stParamProfil
      (store c.profil s.stParamProfil))
    (hplanif : Signalable memcmp s.stParamChange.bParamPlanifProfil s.stPlanifProfil
      (store c.planif s.stPlanifProfil)) : Signale memcmp c s where
  profil := (signalable_iff _ _ _ _).mpr hprofil
  planif := (signalable_iff _ _ _ _).mpr hplanif
  vide := rfl
  encore := pstInit_pstInit memcmp c s

variable (memcmp c s) in
/-- The changes of a call are flagged exactly when those of both tables can be. -/
theorem signale_iff :
    Signale memcmp c s ↔
      Signalable memcmp s.stParamChange.bParamProfil s.stParamProfil
          (store c.profil s.stParamProfil) ∧
        Signalable memcmp s.stParamChange.bParamPlanifProfil s.stPlanifProfil
          (store c.planif s.stPlanifProfil) :=
  ⟨fun h => h.signalable, fun h => signale_of_signalable h.1 h.2⟩

variable (c s) in
/-- With a `memcmp` that returns `-1`, `0` or `1` every change is flagged. -/
theorem signale_unit : Signale .unit c s := by
  have hunit : ∀ {k : ℕ} (drapeau : BitVec 1) (avant apres : Vector UInt8 k),
      Signalable .unit drapeau avant apres := by
    intro k drapeau avant apres
    by_cases h : apres = avant
    · exact .inl h
    · exact .inr (.inr (Memcmp.odd_unit (Ne.symm h)))
  exact signale_of_signalable (hunit _ _ _) (hunit _ _ _)

/-- The beginning of the tables of the source, with its sizes on 64 bits: the name
and the number of the first profile, the numbers of the two plans. -/
def contenuProfil01 : Contenu 4272 80 where
  profil := [(0, 80), (1, 114), (2, 111), (3, 102), (4, 105), (5, 108), (6, 48), (7, 49), (33, 1)]
  planif := [(0, 1), (1, 1), (40, 2), (41, 2)]

/-- The first load of the constructor: the tables are zero, the name begins with
`P`, which is 80, and `bParamProfil` stays 0. -/
theorem profil_perdu : ¬ Signale .difference contenuProfil01 zero := by
  have hdiff : firstDifference (zero (n := 4272) (p := 80)).stParamProfil.toList
      (store contenuProfil01.profil (zero (n := 4272) (p := 80)).stParamProfil).toList = -80 := by
    decide +kernel
  intro h
  rcases h.signalable.1 with heq | hd | hodd
  · rw [heq, firstDifference_self] at hdiff
    cases hdiff
  · cases hd
  · rw [Memcmp.toInt_difference, hdiff] at hodd
    cases hodd

end CParametreApplication

end GestAqua
