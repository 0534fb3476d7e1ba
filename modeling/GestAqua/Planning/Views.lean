import GestAqua.Planning.WellFormed

/-!
What each operation of the main task does to what it holds for one plan and for
one profile.

`vueLanceur n` is everything the state holds for the launch of plan `n`, and
`vueArret p` everything it holds for the running instances of profile `p`. Each
operation acts on one of these and leaves the others as they were; the loop of
`iInitPlanification` is, for one plan, the treatment of its own entry.
-/

namespace GestAqua

open TimerTache

/-- The armed launchers of a plan and its entry of `mLanceurProfil`. -/
structure VueLanceur where
  lanceurs : List TimerTache
  registre : Option ℕ

/-- The armed stop timers and the running instances of a profile, and its entry
of `mStopProfil`. -/
structure VueArret where
  arrets : List TimerTache
  actifs : List CProfil
  registre : Option ℕ

namespace CMainTask

variable {env : Env} {s : CMainTask}

def vueLanceur (n : UInt8) (s : CMainTask) : VueLanceur := ⟨s.lanceurs n, s.mLanceurProfil n⟩

def vueArret (p : UInt8) (s : CMainTask) : VueArret :=
  ⟨s.arrets p, s.actifs p, s.mStopProfil p⟩

theorem vueLanceur_eq_iff {n : UInt8} {l : List TimerTache} {r : Option ℕ} :
    s.vueLanceur n = ⟨l, r⟩ ↔ s.lanceurs n = l ∧ s.mLanceurProfil n = r := by
  rw [vueLanceur, VueLanceur.mk.injEq]

theorem vueArret_eq_iff {p : UInt8} {l : List TimerTache} {k : List CProfil} {r : Option ℕ} :
    s.vueArret p = ⟨l, k, r⟩ ↔ s.arrets p = l ∧ s.actifs p = k ∧ s.mStopProfil p = r := by
  rw [vueArret, VueArret.mk.injEq]

/-! ### The two branches of the planning loop -/

def nouveauLanceur (env : Env) (n : UInt8) (auto : Bool) (usec : ℕ) (s : CMainTask) :
    TimerTache :=
  arme env (s.suivant + 1) auto s.maintenant usec (.fctStartProfil ⟨s.suivant, n⟩)

theorem timers_creeLanceur (n : UInt8) (auto : Bool) {usec : ℕ} (hu : usec ≠ 0) :
    (s.creeLanceur env toujours n auto usec).timers =
      s.nouveauLanceur env n auto usec :: s.timers := by
  simp only [creeLanceur, toujours_eq, start_nouveau, if_neg hu]
  rfl

theorem timers_creeLanceur_zero (n : UInt8) (auto : Bool) :
    (s.creeLanceur env toujours n auto 0).timers = nouveau (s.suivant + 1) auto :: s.timers := by
  simp only [creeLanceur, toujours_eq, start_nouveau, if_pos]

theorem lanceurDe_nouveauLanceur (m n : UInt8) (auto : Bool) (usec : ℕ) :
    (s.nouveauLanceur env m auto usec).lanceurDe n = (m == n) := by
  simp [nouveauLanceur, arme, lanceurDe]

theorem vueLanceur_creeLanceur (n : UInt8) (auto : Bool) {usec : ℕ} (hu : usec ≠ 0) :
    (s.creeLanceur env toujours n auto usec).vueLanceur n =
      ⟨s.nouveauLanceur env n auto usec :: s.lanceurs n,
        some (s.nouveauLanceur env n auto usec).adresse⟩ := by
  have hreg : (s.creeLanceur env toujours n auto usec).mLanceurProfil n = some (s.suivant + 1) := by
    simp [creeLanceur]
  simp only [vueLanceur, lanceurs, timers_creeLanceur n auto hu, hreg]
  rw [List.filter_cons_of_pos (by simp [lanceurDe_nouveauLanceur])]
  rfl

theorem vueLanceur_creeLanceur_of_ne {m n : UInt8} (hmn : m ≠ n) (auto : Bool) (usec : ℕ) :
    (s.creeLanceur env toujours m auto usec).vueLanceur n = s.vueLanceur n := by
  have hreg : (s.creeLanceur env toujours m auto usec).mLanceurProfil n = s.mLanceurProfil n := by
    simp [creeLanceur, Ne.symm hmn]
  simp only [vueLanceur, hreg, VueLanceur.mk.injEq, and_true]
  by_cases hu : usec = 0
  · subst hu
    rw [lanceurs, timers_creeLanceur_zero,
      List.filter_cons_of_neg (by simp [nouveau, CTimer.init, lanceurDe])]
    rfl
  · rw [lanceurs, timers_creeLanceur m auto hu,
      List.filter_cons_of_neg (by simp [lanceurDe_nouveauLanceur, hmn])]
    rfl

theorem vueArret_creeLanceur (n p : UInt8) (auto : Bool) (usec : ℕ) :
    (s.creeLanceur env toujours n auto usec).vueArret p = s.vueArret p := by
  have harrets : (s.creeLanceur env toujours n auto usec).arrets p = s.arrets p := by
    by_cases hu : usec = 0
    · subst hu
      rw [arrets, timers_creeLanceur_zero,
        List.filter_cons_of_neg (by simp [nouveau, CTimer.init, arretDe])]
      rfl
    · rw [arrets, timers_creeLanceur n auto hu,
        List.filter_cons_of_neg (by simp [nouveauLanceur, arme, arretDe])]
      rfl
  simp only [vueArret, harrets]
  rfl

theorem vueLanceur_remplaceLanceur (n : UInt8) :
    (s.remplaceLanceur n).vueLanceur n =
      ⟨(s.lanceurs n).filter fun t => s.mLanceurProfil n ≠ some t.adresse, none⟩ := by
  unfold remplaceLanceur
  cases hm : s.mLanceurProfil n with
  | none => simp [vueLanceur, hm]
  | some a =>
      have hreg : ((s.stop a).effaceLanceur n).mLanceurProfil n = none := by
        simp [effaceLanceur]
      have hview : ((s.stop a).effaceLanceur n).lanceurs n =
          (s.lanceurs n).filter (·.adresse ≠ a) := lanceurs_stop n a s
      simp [vueLanceur, hreg, hview, eq_comm]

theorem vueLanceur_remplaceLanceur_of_ne (h : BienForme s) {m n : UInt8} (hmn : m ≠ n) :
    (s.remplaceLanceur m).vueLanceur n = s.vueLanceur n := by
  unfold remplaceLanceur
  cases hm : s.mLanceurProfil m with
  | none => rfl
  | some a =>
      have hreg : ((s.stop a).effaceLanceur m).mLanceurProfil n = s.mLanceurProfil n := by
        simp [effaceLanceur, stop, Ne.symm hmn]
      have hview : ((s.stop a).effaceLanceur m).lanceurs n = s.lanceurs n := by
        rw [show ((s.stop a).effaceLanceur m).lanceurs n = (s.stop a).lanceurs n from rfl,
          lanceurs_stop, List.filter_eq_self]
        intro t ht
        simpa using h.adresse_ne_of_lanceurDe hmn hm ht
      simp [vueLanceur, hreg, hview]

theorem vueArret_remplaceLanceur (h : BienForme s) (m p : UInt8) :
    (s.remplaceLanceur m).vueArret p = s.vueArret p := by
  unfold remplaceLanceur
  cases hm : s.mLanceurProfil m with
  | none => rfl
  | some a =>
      have hview : ((s.stop a).effaceLanceur m).arrets p = s.arrets p := by
        rw [show ((s.stop a).effaceLanceur m).arrets p = (s.stop a).arrets p from rfl,
          arrets_stop, List.filter_eq_self]
        intro t ht
        simpa using h.adresse_ne_of_arretDe hm ht
      simp only [vueArret, hview]
      rfl

@[simp] theorem maintenant_remplaceLanceur (n : UInt8) :
    (s.remplaceLanceur n).maintenant = s.maintenant := by
  unfold remplaceLanceur
  split <;> rfl

/-! ### The planning loop -/

theorem vueLanceur_planifieEntree_of_ne (h : BienForme s) {n : UInt8} (off : ℤ)
    {e : DefPlanificationProfil} (he : e.ucNumeroPlanif ≠ n) :
    (s.planifieEntree env toujours off e).vueLanceur n = s.vueLanceur n := by
  unfold planifieEntree
  split
  · rfl
  · split
    · rw [vueLanceur_creeLanceur_of_ne he, vueLanceur_remplaceLanceur_of_ne h he]
    · split
      · rw [vueLanceur_creeLanceur_of_ne he]
      · rfl

theorem vueArret_planifieEntree (h : BienForme s) (p : UInt8) (off : ℤ)
    (e : DefPlanificationProfil) :
    (s.planifieEntree env toujours off e).vueArret p = s.vueArret p := by
  unfold planifieEntree
  split
  · rfl
  · split
    · rw [vueArret_creeLanceur, vueArret_remplaceLanceur h]
    · split
      · rw [vueArret_creeLanceur]
      · rfl

@[simp] theorem maintenant_planifieEntree (cree : ℕ → Bool) (off : ℤ)
    (e : DefPlanificationProfil) :
    (s.planifieEntree env cree off e).maintenant = s.maintenant := by
  unfold planifieEntree
  split
  · rfl
  · split
    · exact maintenant_remplaceLanceur _
    · split <;> rfl

@[simp] theorem maintenant_iInitPlanification (cree : ℕ → Bool)
    (l : List DefPlanificationProfil) :
    (s.iInitPlanification env cree (some l)).2.maintenant = s.maintenant :=
  Folds.foldl_invariant (I := fun r : CMainTask => r.maintenant = s.maintenant)
    (fun _ _ _ hr => by rw [maintenant_planifieEntree, hr]) rfl

theorem vueArret_iInitPlanification (h : BienForme s) (p : UInt8)
    (l : List DefPlanificationProfil) :
    (s.iInitPlanification env toujours (some l)).2.vueArret p = s.vueArret p :=
  (Folds.foldl_invariant (I := fun r => BienForme r ∧ r.vueArret p = s.vueArret p)
    (fun _ e _ hr => ⟨hr.1.planifieEntree _ e, by
      rw [vueArret_planifieEntree hr.1, hr.2]⟩) ⟨h, rfl⟩).2

theorem vueLanceur_iInitPlanification_of_notMem (h : BienForme s) {n : UInt8}
    {l : List DefPlanificationProfil} (hn : ∀ e ∈ l, e.ucNumeroPlanif ≠ n) :
    (s.iInitPlanification env toujours (some l)).2.vueLanceur n = s.vueLanceur n :=
  (Folds.foldl_invariant (I := fun r => BienForme r ∧ r.vueLanceur n = s.vueLanceur n)
    (fun _ e he hr => ⟨hr.1.planifieEntree _ e, by
      rw [vueLanceur_planifieEntree_of_ne hr.1 _ (hn e he), hr.2]⟩) ⟨h, rfl⟩).2

variable (env) in
/-- For one plan, the planning loop is the treatment of its entry, in a state
that holds the same for this plan. -/
theorem vueLanceur_iInitPlanification (h : BienForme s) {l : List DefPlanificationProfil}
    (hl : (l.map (·.ucNumeroPlanif)).Nodup) {e : DefPlanificationProfil} (he : e ∈ l) :
    ∃ r, BienForme r ∧ r.maintenant = s.maintenant ∧
      r.vueLanceur e.ucNumeroPlanif = s.vueLanceur e.ucNumeroPlanif ∧
      (s.iInitPlanification env toujours (some l)).2.vueLanceur e.ucNumeroPlanif =
        (r.planifieEntree env toujours (s.tOffsetMidnight env) e).vueLanceur
          e.ucNumeroPlanif := by
  let P : CMainTask → Prop := fun r => BienForme r ∧ r.maintenant = s.maintenant ∧
    r.vueLanceur e.ucNumeroPlanif = s.vueLanceur e.ucNumeroPlanif
  let Q : CMainTask → Prop := fun u => BienForme u ∧ ∃ r, P r ∧
    u.vueLanceur e.ucNumeroPlanif =
      (r.planifieEntree env toujours (s.tOffsetMidnight env) e).vueLanceur e.ucNumeroPlanif
  have hQ : Q (s.iInitPlanification env toujours (some l)).2 := by
    refine Folds.foldl_at (P := P) (Q := Q) hl he ?_ ?_ ?_ ⟨h, rfl, rfl⟩
    · intro r x _ hx hr
      exact ⟨hr.1.planifieEntree _ x, by rw [maintenant_planifieEntree, hr.2.1],
        by rw [vueLanceur_planifieEntree_of_ne hr.1 _ hx, hr.2.2]⟩
    · rintro u x _ hx ⟨hu, r, hr, hview⟩
      exact ⟨hu.planifieEntree _ x, r, hr, by
        rw [vueLanceur_planifieEntree_of_ne hu _ hx, hview]⟩
    · intro r hr
      exact ⟨hr.1.planifieEntree _ e, r, hr, rfl⟩
  obtain ⟨-, r, ⟨hr, hnow, hsame⟩, hview⟩ := hQ
  exact ⟨r, hr, hnow, hsame, hview⟩

/-! ### The test for a change of day -/

@[simp] theorem maintenant_testeJour (cree : ℕ → Bool) :
    (s.testeJour env cree).maintenant = s.maintenant := by
  unfold testeJour
  dsimp only
  split
  · exact maintenant_iInitPlanification cree _
  · rfl

theorem vueArret_testeJour (h : BienForme s) (p : UInt8) :
    (s.testeJour env toujours).vueArret p = s.vueArret p := by
  unfold testeJour
  dsimp only
  split
  · exact vueArret_iInitPlanification (h.jour _) p _
  · rfl

theorem vueLanceur_testeJour_of_notMem (h : BienForme s) {n : UInt8}
    (hn : ∀ e ∈ env.stPlanifProfil, e.ucNumeroPlanif ≠ n) :
    (s.testeJour env toujours).vueLanceur n = s.vueLanceur n := by
  unfold testeJour
  dsimp only
  split
  · exact vueLanceur_iInitPlanification_of_notMem (h.jour _) hn
  · rfl

/-! ### Launching a profile -/

def nouvelArret (env : Env) (e : DefPlanificationProfil) (s : CMainTask) : TimerTache :=
  arme env (s.suivant + 2) false s.maintenant
    (uint64 ((e.stPlanif.tPeriod - (s.tOffsetMidnight env - e.stPlanif.tDebut)) * microSec))
    (.fctStopProfil ⟨s.suivant + 1, e.ucNumeroProfil, s.suivant⟩)

def nouveauProfil (e : DefPlanificationProfil) (s : CMainTask) : CProfil :=
  ⟨s.suivant, e.ucNumeroProfil, e.stPlanif.tDebut, e.stPlanif.tPeriod⟩

/-- The stop delay that `iStartProfil` computes is not zero. -/
def DelaiNonNul (env : Env) (e : DefPlanificationProfil) (s : CMainTask) : Prop :=
  uint64 ((e.stPlanif.tPeriod - (s.tOffsetMidnight env - e.stPlanif.tDebut)) * microSec) ≠ 0

instance (env : Env) (e : DefPlanificationProfil) (s : CMainTask) :
    Decidable (s.DelaiNonNul env e) :=
  inferInstanceAs (Decidable (_ ≠ _))

theorem timers_lanceProfil (e : DefPlanificationProfil) (h : s.DelaiNonNul env e) :
    (s.lanceProfil env toujours e).timers = s.nouvelArret env e :: s.timers := by
  simp only [lanceProfil, toujours_eq, start_nouveau, if_neg h]
  rfl

theorem timers_lanceProfil_zero (e : DefPlanificationProfil) (h : ¬ s.DelaiNonNul env e) :
    (s.lanceProfil env toujours e).timers = nouveau (s.suivant + 2) false :: s.timers := by
  simp only [lanceProfil, toujours_eq, start_nouveau, if_pos (not_not.mp h)]

theorem vueLanceur_lanceProfil (n : UInt8) (e : DefPlanificationProfil) :
    (s.lanceProfil env toujours e).vueLanceur n = s.vueLanceur n := by
  have hview : (s.lanceProfil env toujours e).lanceurs n = s.lanceurs n := by
    by_cases hu : s.DelaiNonNul env e
    · rw [lanceurs, timers_lanceProfil e hu,
        List.filter_cons_of_neg (by simp [nouvelArret, arme, lanceurDe])]
      rfl
    · rw [lanceurs, timers_lanceProfil_zero e hu,
        List.filter_cons_of_neg (by simp [nouveau, CTimer.init, lanceurDe])]
      rfl
  rw [vueLanceur, hview]
  rfl

theorem vueArret_lanceProfil_of_ne {p : UInt8} {e : DefPlanificationProfil}
    (he : e.ucNumeroProfil ≠ p) :
    (s.lanceProfil env toujours e).vueArret p = s.vueArret p := by
  have harrets : (s.lanceProfil env toujours e).arrets p = s.arrets p := by
    by_cases hu : s.DelaiNonNul env e
    · rw [arrets, timers_lanceProfil e hu,
        List.filter_cons_of_neg (by simp [nouvelArret, arme, arretDe, he])]
      rfl
    · rw [arrets, timers_lanceProfil_zero e hu,
        List.filter_cons_of_neg (by simp [nouveau, CTimer.init, arretDe])]
      rfl
  have hactifs : (s.lanceProfil env toujours e).actifs p = s.actifs p := by
    simp only [actifs, lanceProfil]
    split
    · rw [List.filter_cons_of_neg (by simpa using he)]
    · rfl
  have hreg : (s.lanceProfil env toujours e).mStopProfil p = s.mStopProfil p := by
    simp [lanceProfil, Ne.symm he]
  simp only [vueArret, harrets, hactifs, hreg]

/-- What a launch adds to its profile: a stop timer unless the delay is zero, an
instance unless the period is, and in any case an entry of the registry. -/
theorem vueArret_lanceProfil_eq (e : DefPlanificationProfil) :
    (s.lanceProfil env toujours e).vueArret e.ucNumeroProfil =
      ⟨if s.DelaiNonNul env e then s.nouvelArret env e :: s.arrets e.ucNumeroProfil
          else s.arrets e.ucNumeroProfil,
        if e.stPlanif.tPeriod ≠ 0 then s.nouveauProfil e :: s.actifs e.ucNumeroProfil
          else s.actifs e.ucNumeroProfil,
        some (s.suivant + 2)⟩ := by
  have harrets : (s.lanceProfil env toujours e).arrets e.ucNumeroProfil =
      if s.DelaiNonNul env e then s.nouvelArret env e :: s.arrets e.ucNumeroProfil
        else s.arrets e.ucNumeroProfil := by
    split
    · rename_i hu
      rw [arrets, timers_lanceProfil e hu,
        List.filter_cons_of_pos (by simp [nouvelArret, arme, arretDe])]
      rfl
    · rename_i hu
      rw [arrets, timers_lanceProfil_zero e hu,
        List.filter_cons_of_neg (by simp [nouveau, CTimer.init, arretDe])]
      rfl
  have hactifs : (s.lanceProfil env toujours e).actifs e.ucNumeroProfil =
      if e.stPlanif.tPeriod ≠ 0 then s.nouveauProfil e :: s.actifs e.ucNumeroProfil
        else s.actifs e.ucNumeroProfil := by
    by_cases hd : e.stPlanif.tPeriod = 0 <;> simp [actifs, lanceProfil, nouveauProfil, hd]
  have hreg : (s.lanceProfil env toujours e).mStopProfil e.ucNumeroProfil =
      some (s.suivant + 2) := by
    simp [lanceProfil]
  simp only [vueArret, harrets, hactifs, hreg]

theorem vueArret_lanceProfil {e : DefPlanificationProfil} (hu : s.DelaiNonNul env e)
    (hd : e.stPlanif.tPeriod ≠ 0) :
    (s.lanceProfil env toujours e).vueArret e.ucNumeroProfil =
      ⟨s.nouvelArret env e :: s.arrets e.ucNumeroProfil,
        s.nouveauProfil e :: s.actifs e.ucNumeroProfil,
        some (s.nouvelArret env e).adresse⟩ := by
  rw [vueArret_lanceProfil_eq, if_pos hu, if_pos hd]
  rfl

/-- With distinct plan numbers the loop of `iStartProfil` is the launch of one
entry. -/
theorem iStartProfil_eq (hl : (env.stPlanifProfil.map (·.ucNumeroPlanif)).Nodup)
    {e : DefPlanificationProfil} (he : e ∈ env.stPlanifProfil) (hn : e.ucNumeroPlanif ≠ 0) :
    (s.iStartProfil env toujours e.ucNumeroPlanif).2 =
      (s.effaceLanceur e.ucNumeroPlanif).lanceProfil env toujours e := by
  rw [iStartProfil, if_pos hn]
  exact Folds.foldl_select DefPlanificationProfil.ucNumeroPlanif hl he _

theorem vueLanceur_iStartProfil {n : UInt8} (hn : n ≠ 0) (m : UInt8) :
    (s.iStartProfil env toujours n).2.vueLanceur m = (s.effaceLanceur n).vueLanceur m := by
  rw [iStartProfil, if_pos hn]
  refine Folds.foldl_invariant
    (I := fun r : CMainTask => r.vueLanceur m = (s.effaceLanceur n).vueLanceur m)
    (fun r e _ hr => ?_) rfl
  split
  · rw [vueLanceur_lanceProfil, hr]
  · exact hr

@[simp] theorem maintenant_iStartProfil (cree : ℕ → Bool) (n : UInt8) :
    (s.iStartProfil env cree n).2.maintenant = s.maintenant := by
  unfold iStartProfil
  split
  · refine Folds.foldl_invariant (I := fun r : CMainTask => r.maintenant = s.maintenant)
      (fun r e _ hr => ?_) rfl
    split <;> exact hr
  · rfl

@[simp] theorem maintenant_iStopProfil (p : UInt8) (a : ℕ) :
    (s.iStopProfil p a).2.maintenant = s.maintenant := by
  unfold iStopProfil
  split <;> rfl

@[simp] theorem maintenant_expire (cree : ℕ → Bool) (t : TimerTache) :
    (s.expire env cree t).maintenant = s.maintenant := by
  show (s.rappelle env cree t.timer.hObjetAttache).maintenant = s.maintenant
  unfold rappelle
  split
  · exact maintenant_iStartProfil cree _
  · exact maintenant_iStopProfil _ _
  · rfl

/-! ### The expiry of a timer -/

theorem filter_adresse_of_not {q : TimerTache → Bool} (h : BienForme s) {t : TimerTache}
    (ht : t ∈ s.timers) (hq : q t = false) :
    (s.timers.filter q).filter (·.adresse ≠ t.adresse) = s.timers.filter q := by
  rw [List.filter_eq_self]
  intro u hu
  obtain ⟨hu, hqu⟩ := List.mem_filter.mp hu
  have hne : u.adresse ≠ t.adresse := by
    intro heq
    rw [h.adresse_inj u hu t ht heq, hq] at hqu
    exact Bool.false_ne_true hqu
  simpa using hne

theorem vueLanceur_finThread (h : BienForme s) {t : TimerTache} (ht : t ∈ s.timers) {n : UInt8}
    (hq : t.lanceurDe n = false) : (s.finThread t.adresse).vueLanceur n = s.vueLanceur n := by
  rw [vueLanceur, lanceurs_finThread, lanceurs, filter_adresse_of_not h ht hq]
  rfl

theorem vueArret_finThread (h : BienForme s) {t : TimerTache} (ht : t ∈ s.timers) {p : UInt8}
    (hq : t.arretDe p = false) : (s.finThread t.adresse).vueArret p = s.vueArret p := by
  rw [vueArret, arrets_finThread, arrets, filter_adresse_of_not h ht hq]
  rfl

variable (env) in
theorem mem_timers_rappelle {t : TimerTache} (ht : t ∈ s.timers) (r : Option Rappel) :
    t ∈ (s.rappelle env toujours r).timers := by
  unfold rappelle
  split
  · show t ∈ (s.iStartProfil env toujours _).2.timers
    unfold iStartProfil
    split
    · refine Folds.foldl_invariant (I := fun r : CMainTask => t ∈ r.timers)
        (fun r e _ hr => ?_) ht
      split
      · exact List.mem_cons_of_mem _ hr
      · exact hr
    · exact ht
  · show t ∈ (s.iStopProfil _ _).2.timers
    unfold iStopProfil
    split <;> exact ht
  · exact ht

variable (env) in
theorem expire_lanceur_eq (h : BienForme s) {t : TimerTache} (ht : t ∈ s.timers)
    {q : ParamCallbackStartProfil} (hq : t.timer.hObjetAttache = some (.fctStartProfil q)) :
    s.expire env toujours t = ((env.stPlanifProfil.foldl
      (fun r e => if e.ucNumeroPlanif = q.ucNumeroPlanif then r.lanceProfil env toujours e else r)
      (s.effaceLanceur q.ucNumeroPlanif)).supprime q.bloc).finThread t.adresse := by
  have hrap : s.rappelle env toujours t.timer.hObjetAttache =
      (s.iStartProfil env toujours q.ucNumeroPlanif).2.supprime q.bloc := by
    rw [hq]
    rfl
  rw [expire, hrap, iStartProfil, if_pos (h.planif_ne_zero t ht q hq)]

variable (env) in
/-- A launcher's expiry clears its plan's entry and removes it from the armed
launchers; the other plans are not concerned. -/
theorem vueLanceur_expire (h : BienForme s) {n : UInt8} {t : TimerTache}
    (ht : t ∈ s.lanceurs n) (m : UInt8) :
    (s.expire env toujours t).vueLanceur m =
      if m = n then ⟨(s.lanceurs n).filter (·.adresse ≠ t.adresse), none⟩
      else s.vueLanceur m := by
  obtain ⟨hmem, hlt⟩ := mem_lanceurs.mp ht
  obtain ⟨-, q, hq, rfl⟩ := lanceurDe_iff.mp hlt
  have hne := h.planif_ne_zero t hmem q hq
  have hview : (s.rappelle env toujours t.timer.hObjetAttache).vueLanceur m =
      (s.effaceLanceur q.ucNumeroPlanif).vueLanceur m := by
    rw [hq]
    exact vueLanceur_iStartProfil hne m
  by_cases hm : m = q.ucNumeroPlanif
  · subst hm
    obtain ⟨hlan, hreg⟩ := vueLanceur_eq_iff.mp hview
    rw [if_pos rfl, vueLanceur_eq_iff]
    constructor
    · rw [expire, lanceurs_finThread, hlan]
      rfl
    · exact hreg.trans (Function.update_self _ _ _)
  · have hqt : t.lanceurDe m = false := by
      by_contra hcon
      exact hm (lanceurDe_unique (by simpa using hcon) hlt)
    rw [if_neg hm, expire, vueLanceur_finThread (h.rappelle env _)
      (mem_timers_rappelle env hmem _) hqt, hview]
    exact vueLanceur_eq_iff.mpr ⟨rfl, Function.update_of_ne hm _ _⟩

theorem lanceurs_expire (h : BienForme s) {n : UInt8} {t : TimerTache} (ht : t ∈ s.lanceurs n) :
    (s.expire env toujours t).lanceurs n = (s.lanceurs n).filter (·.adresse ≠ t.adresse) := by
  have hview := vueLanceur_expire env h ht n
  rw [if_pos rfl] at hview
  exact (vueLanceur_eq_iff.mp hview).1

theorem vueLanceur_expire_arret (h : BienForme s) {p : UInt8} {t : TimerTache}
    (ht : t ∈ s.arrets p) (m : UInt8) :
    (s.expire env toujours t).vueLanceur m = s.vueLanceur m := by
  obtain ⟨hmem, hp⟩ := mem_arrets.mp ht
  obtain ⟨-, q, hq, rfl⟩ := arretDe_iff.mp hp
  have hqt : t.lanceurDe m = false := by simp [lanceurDe, hq]
  rw [expire, vueLanceur_finThread (h.rappelle env _) (mem_timers_rappelle env hmem _) hqt, hq]
  show (s.iStopProfil q.ucNumeroProfil q.pProfil).2.vueLanceur m = s.vueLanceur m
  unfold iStopProfil
  split <;> rfl

variable (env) in
theorem vueArret_expire_lanceur (h : BienForme s)
    (hl : (env.stPlanifProfil.map (·.ucNumeroPlanif)).Nodup) {e : DefPlanificationProfil}
    (he : e ∈ env.stPlanifProfil) {t : TimerTache} (ht : t ∈ s.lanceurs e.ucNumeroPlanif)
    (p : UInt8) :
    (s.expire env toujours t).vueArret p =
      ((s.effaceLanceur e.ucNumeroPlanif).lanceProfil env toujours e).vueArret p := by
  obtain ⟨ht, hlt⟩ := mem_lanceurs.mp ht
  obtain ⟨-, q, hq, hn⟩ := lanceurDe_iff.mp hlt
  have hne : e.ucNumeroPlanif ≠ 0 := hn ▸ h.planif_ne_zero t ht q hq
  rw [expire, vueArret_finThread (h.rappelle env _) (mem_timers_rappelle env ht _)
    (not_arretDe_of_lanceurDe hlt), hq]
  show (s.iStartProfil env toujours q.ucNumeroPlanif).2.vueArret p = _
  rw [hn, iStartProfil_eq hl he hne]

theorem vueArret_iStopProfil {k : UInt8} {a : ℕ} (hk : k ≠ 0) (ha : a ≠ 0) (p : UInt8) :
    (s.iStopProfil k a).2.vueArret p =
      ⟨s.arrets p, (s.actifs p).filter (·.adresse ≠ a),
        Function.update s.mStopProfil k none p⟩ := by
  have hact : (s.profils.filter (·.adresse ≠ a)).filter (·.ucNumeroProfil = p) =
      (s.actifs p).filter (·.adresse ≠ a) := by
    simp only [actifs, List.filter_filter]
    exact List.filter_congr fun i _ => Bool.and_comm _ _
  rw [iStopProfil, if_pos ⟨hk, ha⟩, ← hact]
  rfl

theorem vueArret_expire_arret_of_ne (h : BienForme s) {q : ParamCallbackStopProfil}
    {t : TimerTache} (ht : t ∈ s.timers)
    (hq : t.timer.hObjetAttache = some (.fctStopProfil q)) {p : UInt8}
    (hp : p ≠ q.ucNumeroProfil) :
    (s.expire env toujours t).vueArret p = s.vueArret p := by
  have hqt : t.arretDe p = false := by simp [arretDe, hq, Ne.symm hp]
  have hact : (s.actifs p).filter (·.adresse ≠ q.pProfil) = s.actifs p := by
    rw [List.filter_eq_self]
    intro i hi
    obtain ⟨hi, hip⟩ := mem_actifs.mp hi
    have hne : i.adresse ≠ q.pProfil :=
      fun hadr => hp (hip.symm.trans ((h.arret t ht q hq).2.2 i hi hadr))
    simpa using hne
  rw [expire, vueArret_finThread (h.rappelle env _) (mem_timers_rappelle env ht _) hqt, hq]
  show (s.iStopProfil q.ucNumeroProfil q.pProfil).2.vueArret p = s.vueArret p
  by_cases hk : q.ucNumeroProfil ≠ 0 ∧ q.pProfil ≠ 0
  · rw [vueArret_iStopProfil hk.1 hk.2, hact, Function.update_of_ne hp]
    rfl
  · rw [iStopProfil, if_neg hk]

variable (env) in
theorem vueArret_expire_arret (h : BienForme s) {q : ParamCallbackStopProfil} {t : TimerTache}
    (ht : t ∈ s.timers) (hq : t.timer.hObjetAttache = some (.fctStopProfil q))
    (hne : q.ucNumeroProfil ≠ 0) :
    (s.expire env toujours t).vueArret q.ucNumeroProfil =
      ⟨(s.arrets q.ucNumeroProfil).filter (·.adresse ≠ t.adresse),
        (s.actifs q.ucNumeroProfil).filter (·.adresse ≠ q.pProfil), none⟩ := by
  have hrap : (s.rappelle env toujours t.timer.hObjetAttache).vueArret q.ucNumeroProfil =
      ⟨s.arrets q.ucNumeroProfil,
        (s.actifs q.ucNumeroProfil).filter (·.adresse ≠ q.pProfil), none⟩ := by
    rw [hq]
    show (s.iStopProfil q.ucNumeroProfil q.pProfil).2.vueArret q.ucNumeroProfil = _
    rw [vueArret_iStopProfil hne (Nat.pos_iff_ne_zero.mp (h.arret t ht q hq).1),
      Function.update_self]
  obtain ⟨harr, hact, hreg⟩ := vueArret_eq_iff.mp hrap
  refine vueArret_eq_iff.mpr ⟨?_, hact, hreg⟩
  rw [expire, arrets_finThread, harr]

theorem vueArret_expire_lanceur_of_notMem (h : BienForme s) {n : UInt8}
    (hl : ∀ e ∈ env.stPlanifProfil, e.ucNumeroPlanif ≠ n) {t : TimerTache}
    (ht : t ∈ s.lanceurs n) (p : UInt8) :
    (s.expire env toujours t).vueArret p = s.vueArret p := by
  obtain ⟨hmem, hlt⟩ := mem_lanceurs.mp ht
  obtain ⟨-, q, hq, rfl⟩ := lanceurDe_iff.mp hlt
  rw [expire, vueArret_finThread (h.rappelle env _) (mem_timers_rappelle env hmem _)
    (not_arretDe_of_lanceurDe hlt), hq]
  show (s.iStartProfil env toujours q.ucNumeroPlanif).2.vueArret p = s.vueArret p
  rw [iStartProfil, if_pos (h.planif_ne_zero t hmem q hq),
    Folds.foldl_select_none DefPlanificationProfil.ucNumeroPlanif hl]
  rfl

theorem vues_expire_none (h : BienForme s) {t : TimerTache} (ht : t ∈ s.timers)
    (hq : t.timer.hObjetAttache = none) (n p : UInt8) :
    (s.expire env toujours t).vueLanceur n = s.vueLanceur n ∧
      (s.expire env toujours t).vueArret p = s.vueArret p := by
  have hl : t.lanceurDe n = false := by simp [lanceurDe, hq]
  have hp : t.arretDe p = false := by simp [arretDe, hq]
  have hs : s.expire env toujours t = s.finThread t.adresse := by
    rw [expire, hq]
    rfl
  rw [hs]
  exact ⟨vueLanceur_finThread h ht hl, vueArret_finThread h ht hp⟩

end CMainTask

end GestAqua
