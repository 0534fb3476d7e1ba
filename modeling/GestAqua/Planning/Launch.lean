import GestAqua.Planning.Cadence

/-!
What one call of `iStartProfil` leaves behind.

The loop makes, for every entry with the number that is looked for, a profile, a
parameter block and a stop timer, whether or not the threads can be created. Its
effect is given here as the list of these launches, in a state and with a creation
outcome that are arbitrary. Two questions are then asked of it: when the returned
code tells the truth, and when the stop timer ends the window on time.
-/

namespace GestAqua

open TimerTache

namespace TimerTache

variable {env : Env} {cree : Bool} {a usec : ℕ} {auto : Bool} {now : ℤ} {r : Rappel}

theorem start_nouveau_of_ne (h : usec ≠ 0) :
    (nouveau a auto).start env cree now usec r =
      ⟨a, ⟨cree, usec, some r, timeOneshot⟩, auto, now + env.duree usec⟩ := by
  simp [start, nouveau, CTimer.start, CTimer.init, h]

theorem start_nouveau_zero : (nouveau a auto).start env cree now 0 r = nouveau a auto := by
  simp [start, nouveau, CTimer.start, CTimer.init]

end TimerTache

/-- The launch of an entry: the address of its profile, which the parameter block
and the stop timer follow, and the entry. -/
structure Lancement where
  adresse : ℕ
  entree : DefPlanificationProfil
  deriving DecidableEq, Repr

/-- The launches that the loop makes of the entries it finds, from the first free
address. -/
def lancementsDe : ℕ → List DefPlanificationProfil → List Lancement
  | _, [] => []
  | a, e :: l => ⟨a, e⟩ :: lancementsDe (a + 3) l

namespace Lancement

def profil (x : Lancement) : CProfil :=
  ⟨x.adresse, x.entree.ucNumeroProfil, x.entree.stPlanif.tDebut, x.entree.stPlanif.tPeriod⟩

/-- `pTaskProfil->Start()` starts the profile's thread. -/
def demarre (cree : ℕ → Bool) (x : Lancement) : Bool :=
  decide (x.entree.stPlanif.tPeriod ≠ 0) && cree x.adresse

def reste (tOffsetMidnight : ℤ) (x : Lancement) : ℤ := x.entree.tFin - tOffsetMidnight

def pParam (x : Lancement) : ParamCallbackStopProfil :=
  ⟨x.adresse + 1, x.entree.ucNumeroProfil, x.adresse⟩

def stopTacheprofil (env : Env) (cree : ℕ → Bool) (maintenant tOffsetMidnight : ℤ)
    (x : Lancement) : TimerTache :=
  (nouveau (x.adresse + 2) false).start env (cree (x.adresse + 2)) maintenant
    (uint64 (x.reste tOffsetMidnight * microSec)) (.fctStopProfil x.pParam)

variable {env : Env} {cree : ℕ → Bool} {now off : ℤ} {x : Lancement}

theorem stopTacheprofil_of_ne (h : uint64 (x.reste off * microSec) ≠ 0) :
    x.stopTacheprofil env cree now off =
      ⟨x.adresse + 2, ⟨cree (x.adresse + 2), uint64 (x.reste off * microSec),
        some (.fctStopProfil x.pParam), timeOneshot⟩, false,
        now + env.duree (uint64 (x.reste off * microSec))⟩ :=
  start_nouveau_of_ne h

theorem ne_zero_of_arme (h : (x.stopTacheprofil env cree now off).timer.bStarted = true) :
    uint64 (x.reste off * microSec) ≠ 0 := by
  intro h0
  rw [stopTacheprofil, h0, start_nouveau_zero] at h
  simp [nouveau, CTimer.init] at h

end Lancement

theorem adresse_le {a : ℕ} {l : List DefPlanificationProfil} {x : Lancement}
    (hx : x ∈ lancementsDe a l) : a ≤ x.adresse := by
  induction l generalizing a with
  | nil => simp [lancementsDe] at hx
  | cons e l ih =>
      rcases List.mem_cons.mp hx with rfl | hx
      · exact le_rfl
      · have := ih hx
        omega

theorem lancementsDe_injective {a : ℕ} {l : List DefPlanificationProfil} {x y : Lancement}
    (hx : x ∈ lancementsDe a l) (hy : y ∈ lancementsDe a l) (h : x.adresse = y.adresse) :
    x = y := by
  induction l generalizing a with
  | nil => simp [lancementsDe] at hx
  | cons e l ih =>
      rcases List.mem_cons.mp hx with rfl | hx <;> rcases List.mem_cons.mp hy with rfl | hy
      · rfl
      · have := adresse_le hy
        simp only at h
        omega
      · have := adresse_le hx
        simp only at h
        omega
      · exact ih hx hy

namespace CMainTask

variable {env : Env} {cree : ℕ → Bool} {s : CMainTask} {n : UInt8}

/-- The entries that the loop of `iStartProfil` finds. -/
def entrees (env : Env) (n : UInt8) : List DefPlanificationProfil :=
  env.stPlanifProfil.filter (·.ucNumeroPlanif = n)

def lancements (env : Env) (n : UInt8) (s : CMainTask) : List Lancement :=
  lancementsDe s.suivant (entrees env n)

theorem iStartProfil_foldl (hn : n ≠ 0) :
    (s.iStartProfil env cree n).2 =
      (entrees env n).foldl (lanceProfil env cree) (s.effaceLanceur n) := by
  rw [iStartProfil, if_pos hn, entrees, List.foldl_filter]
  simp only [decide_eq_true_eq]

theorem timers_lanceProfil_eq (s : CMainTask) (e : DefPlanificationProfil) :
    (s.lanceProfil env cree e).timers =
      (Lancement.mk s.suivant e).stopTacheprofil env cree s.maintenant (s.tOffsetMidnight env) ::
        s.timers := by
  have hreste : (Lancement.mk s.suivant e).reste (s.tOffsetMidnight env) =
      e.stPlanif.tPeriod - (s.tOffsetMidnight env - e.stPlanif.tDebut) := by
    show e.stPlanif.tDebut + e.stPlanif.tPeriod - _ = _
    omega
  rw [Lancement.stopTacheprofil, hreste]
  rfl

theorem profils_lanceProfil_eq (s : CMainTask) (e : DefPlanificationProfil) :
    (s.lanceProfil env cree e).profils =
      if (Lancement.mk s.suivant e).demarre cree then
        (Lancement.mk s.suivant e).profil :: s.profils
      else s.profils := by
  simp only [lanceProfil, Lancement.demarre, Lancement.profil, Bool.and_eq_true,
    decide_eq_true_eq]

variable (env cree) in
theorem foldl_lanceProfil (l : List DefPlanificationProfil) (s : CMainTask) :
    (l.foldl (lanceProfil env cree) s).profils =
        (((lancementsDe s.suivant l).filter (Lancement.demarre cree)).map
          Lancement.profil).reverse ++ s.profils ∧
      (l.foldl (lanceProfil env cree) s).timers =
        ((lancementsDe s.suivant l).map (Lancement.stopTacheprofil env cree s.maintenant
          (s.tOffsetMidnight env))).reverse ++ s.timers := by
  induction l generalizing s with
  | nil => exact ⟨rfl, rfl⟩
  | cons e l ih =>
      obtain ⟨hprofils, htimers⟩ := ih (s.lanceProfil env cree e)
      have hsuiv : (s.lanceProfil env cree e).suivant = s.suivant + 3 := rfl
      have hnow : (s.lanceProfil env cree e).maintenant = s.maintenant := rfl
      have hoff : (s.lanceProfil env cree e).tOffsetMidnight env = s.tOffsetMidnight env := rfl
      rw [List.foldl_cons, hprofils, htimers, hsuiv, hnow, hoff, timers_lanceProfil_eq,
        profils_lanceProfil_eq, lancementsDe]
      refine ⟨?_, by simp⟩
      cases hd : (Lancement.mk s.suivant e).demarre cree <;> simp [hd]

/-! ### The returned code -/

/-- The whole job of `iStartProfil`: one profile started, and among the timers of
the call one that is armed for it, with the time left of its window, which is
positive, and a profile number that `iStopProfil` accepts. -/
def Abouti (env : Env) (s s' : CMainTask) : Prop :=
  ∃ p nouveaux t pParam, s'.profils = p :: s.profils ∧ s'.timers = nouveaux ++ s.timers ∧
    t ∈ nouveaux ∧ t.timer.bStarted = true ∧
    t.timer.hObjetAttache = some (.fctStopProfil pParam) ∧ pParam.pProfil = p.adresse ∧
    pParam.ucNumeroProfil ≠ 0 ∧ 0 < p.tDebut + p.tDuree - s.tOffsetMidnight env ∧
    (t.timer.ui64TpsUsec : ℤ) = (p.tDebut + p.tDuree - s.tOffsetMidnight env) * microSec

/-- One launch of the call starts its profile, and one only; its window is not
over, the delay fits in 64 bits, the thread of its stop timer can be created and
its profile number is not zero. -/
def Lancable (env : Env) (cree : ℕ → Bool) (n : UInt8) (s : CMainTask) : Prop :=
  ∃ x, (s.lancements env n).filter (Lancement.demarre cree) = [x] ∧
    0 < x.reste (s.tOffsetMidnight env) ∧
    x.reste (s.tOffsetMidnight env) * microSec < 2 ^ 64 ∧
    cree (x.adresse + 2) = true ∧ x.entree.ucNumeroProfil ≠ 0

/-- What the returned code promises: zero exactly when the whole job is done, and
otherwise nothing has changed. -/
def CodeJuste (env : Env) (s : CMainTask) (retour : ℤ × CMainTask) : Prop :=
  (retour.1 = 0 ↔ Abouti env s retour.2) ∧
    (retour.1 ≠ 0 → retour.2.profils = s.profils ∧ retour.2.timers = s.timers ∧
      retour.2.mStopProfil = s.mStopProfil)

/-- A call with a plan number does the whole job when one launch goes through. -/
theorem abouti_iff (hn : n ≠ 0) :
    Abouti env s (s.iStartProfil env cree n).2 ↔ Lancable env cree n s := by
  have hfold := foldl_lanceProfil env cree (entrees env n) (s.effaceLanceur n)
  rw [← iStartProfil_foldl hn] at hfold
  obtain ⟨hprofils, htimers⟩ := hfold
  constructor
  · rintro ⟨p, nouveaux, t, pParam, hp, ht, htm, hst, hatt, hpp, hne, hpos, husec⟩
    obtain ⟨x, hx, rfl⟩ : ∃ x, (s.lancements env n).filter (Lancement.demarre cree) = [x] ∧
        x.profil = p := by
      have hun := List.append_cancel_right (hprofils.symm.trans (hp.trans
        (List.singleton_append (x := p) (l := s.profils)).symm))
      rw [List.reverse_eq_iff, List.reverse_singleton, List.map_eq_singleton_iff] at hun
      exact hun
    -- the timer of the call that is armed for the profile is the one of its launch
    obtain ⟨y, hy, rfl⟩ : ∃ y ∈ s.lancements env n,
        y.stopTacheprofil env cree s.maintenant (s.tOffsetMidnight env) = t := by
      have hnouv := List.append_cancel_right (htimers.symm.trans ht)
      rw [← hnouv, List.mem_reverse, List.mem_map] at htm
      exact htm
    have hu := Lancement.ne_zero_of_arme hst
    rw [Lancement.stopTacheprofil_of_ne hu] at hst hatt husec
    obtain rfl : y.pParam = pParam := by simpa using hatt
    have hmem : x ∈ s.lancements env n := List.mem_of_mem_filter (hx ▸ List.mem_singleton_self x)
    obtain rfl := lancementsDe_injective hy hmem hpp
    refine ⟨y, hx, hpos, ?_, hst, hne⟩
    rw [← show _ = y.reste (s.tOffsetMidnight env) * microSec from husec]
    exact_mod_cast uint64_lt _
  · rintro ⟨x, hx, hpos, hlt, hc, hne⟩
    have hmem : x ∈ s.lancements env n := List.mem_of_mem_filter (hx ▸ List.mem_singleton_self x)
    have hpos' : 0 < x.reste (s.tOffsetMidnight env) * microSec := by
      rw [microSec_eq]
      omega
    have husec := uint64_eq hpos'.le hlt
    have hu : uint64 (x.reste (s.tOffsetMidnight env) * microSec) ≠ 0 := by omega
    refine ⟨x.profil, _, x.stopTacheprofil env cree s.maintenant (s.tOffsetMidnight env), x.pParam,
      ?_, htimers, List.mem_reverse.mpr (List.mem_map_of_mem hmem), ?_, ?_, rfl, hne, hpos, ?_⟩
    · rw [hprofils]
      exact congrArg (fun l => (List.map Lancement.profil l).reverse ++ s.profils) hx
    · rw [Lancement.stopTacheprofil_of_ne hu]
      exact hc
    · rw [Lancement.stopTacheprofil_of_ne hu]
    · rw [Lancement.stopTacheprofil_of_ne hu]
      show ((uint64 (x.reste (s.tOffsetMidnight env) * microSec) : ℕ) : ℤ) = _
      rw [husec, Int.toNat_of_nonneg hpos'.le]
      rfl

variable (env cree) in
/-- The code of `iStartProfil` is right when the call is made without a number, or
one launch goes through, and only then. -/
theorem codeJuste_iff (n : UInt8) (s : CMainTask) :
    CodeJuste env s (s.iStartProfil env cree n) ↔ n = 0 ∨ Lancable env cree n s := by
  by_cases hn : n = 0
  · have hrien : s.iStartProfil env cree n = (-1, s) := by simp [iStartProfil, hn]
    rw [hrien]
    refine iff_of_true ⟨iff_of_false (by simp) ?_, fun _ => ⟨rfl, rfl, rfl⟩⟩ (.inl hn)
    rintro ⟨p, nouveaux, t, pParam, hp, -⟩
    simp at hp
  · have hzero : (s.iStartProfil env cree n).1 = 0 := by simp [iStartProfil, hn]
    rw [CodeJuste, hzero, abouti_iff hn]
    simp [hn]

/-- The thread of the profile cannot be created: the launcher of the plan is
registered, zero is returned and no profile runs. -/
theorem code_zero_sans_profil :
    let env : Env := .zoneFixe 1 0 [.planifie 1 1 0 100]
    let s := ((construit 0).iInitPlanification env toujours (some env.stPlanifProfil)).2
    s.mLanceurProfil 1 ≠ none ∧ ¬ CodeJuste env s (s.iStartProfil env (fun _ => false) 1) := by
  refine ⟨by decide, fun h => ?_⟩
  obtain ⟨x, hx, -⟩ := (abouti_iff (by decide)).mp (h.1.mp rfl)
  have hvide : ∀ l : List Lancement, l.filter (Lancement.demarre fun _ => false) = [] := by
    intro l
    simp [Lancement.demarre]
  simp [hvide] at hx

/-! ### The end of a late launch -/

theorem bienForme_stepLibre {ev : EvtLibre} {s' : CMainTask} (h : BienForme s)
    (hs : s.stepLibre env ev = some s') : BienForme s' := by
  rcases stepLibre_cases hs with ⟨-, rfl⟩ | ⟨t, -, -, -, -, rfl⟩ | ⟨t, -, -, rfl⟩
  · exact h.iInitPlanification _
  · exact h.expire t
  · exact { h with }

variable (env) in
theorem stopTacheprofil_mem_expire (h : BienForme s) {t : TimerTache} (ht : t ∈ s.timers)
    {q : ParamCallbackStartProfil} (hq : t.timer.hObjetAttache = some (.fctStartProfil q))
    {x : Lancement} (hx : x ∈ s.lancements env q.ucNumeroPlanif) :
    x.stopTacheprofil env toujours s.maintenant (s.tOffsetMidnight env) ∈
      (s.expire env toujours t).timers := by
  have hn := h.planif_ne_zero t ht q hq
  have hmem : x.stopTacheprofil env toujours s.maintenant (s.tOffsetMidnight env) ∈
      (s.rappelle env toujours t.timer.hObjetAttache).timers := by
    rw [hq]
    show _ ∈ (s.iStartProfil env toujours q.ucNumeroPlanif).2.timers
    rw [iStartProfil_foldl hn, (foldl_lanceProfil _ _ _ _).2]
    exact List.mem_append_left _ (List.mem_reverse.mpr (List.mem_map_of_mem hx))
  have hadr : (x.stopTacheprofil env toujours s.maintenant (s.tOffsetMidnight env)).adresse =
      x.adresse + 2 := start_nouveau_adresse env _ false _ _ _
  have hlt := h.adresse_lt t ht
  have hle := adresse_le hx
  refine mem_surAdresse.mpr (.inl ⟨hmem, ?_⟩)
  rw [hadr]
  omega

/-- The launch ends with its occurrence: its stop timer is armed, and the local
time of the launch plus the delay of the timer is the end of the window that
began on the day `D`. -/
def FinALHeure (env : Env) (z D : ℤ) (s s' : CMainTask) (x : Lancement) : Prop :=
  x.stopTacheprofil env toujours s.maintenant (s.tOffsetMidnight env) ∈ s'.timers ∧
    (x.stopTacheprofil env toujours s.maintenant (s.tOffsetMidnight env)).timer.bStarted = true ∧
    env.lecture z s.maintenant * microSec +
        (x.stopTacheprofil env toujours s.maintenant
          (s.tOffsetMidnight env)).timer.ui64TpsUsec =
      (D * 86400 + x.entree.tFin) * microSec

/-- The callback of a launcher, at an instant of the occurrence of the day `D`,
ends the profile with the occurrence exactly when it runs before the midnight
that follows. -/
theorem fin_a_l_heure_iff {z t0 : ℤ} (hz : env.zone = .fixe z) {es : List EvtLibre}
    (hes : Execution.exec (stepLibre env) (.construit t0) es = some s) {t : TimerTache}
    (ht : s.echu t.adresse = some t) {q : ParamCallbackStartProfil}
    (hq : t.timer.hObjetAttache = some (.fctStartProfil q)) {x : Lancement}
    (hx : x ∈ s.lancements env q.ucNumeroPlanif) (hd : 0 ≤ x.entree.stPlanif.tDebut)
    (hd' : x.entree.stPlanif.tDebut < 86400) (hp : 0 < x.entree.stPlanif.tPeriod)
    (hp' : x.entree.stPlanif.tPeriod ≤ 86400) {D : ℤ}
    (hD : D * 86400 + x.entree.stPlanif.tDebut ≤ env.lecture z s.maintenant)
    (hD' : env.lecture z s.maintenant < D * 86400 + x.entree.tFin) :
    FinALHeure env z D s (s.expire env toujours t) x ↔
      env.lecture z s.maintenant < (D + 1) * 86400 := by
  have hforme : BienForme s :=
    Execution.exec_invariant (fun _ _ _ h hs => bienForme_stepLibre h hs) (.construit t0) hes
  have hmem := stopTacheprofil_mem_expire env hforme (echu_eq_some ht).1 hq hx
  have hoff := tOffsetMidnight_eq hz s
  have hfin : x.entree.tFin = x.entree.stPlanif.tDebut + x.entree.stPlanif.tPeriod := rfl
  have hreste : x.reste (s.tOffsetMidnight env) =
      x.entree.tFin - env.lecture z s.maintenant % 86400 := by rw [Lancement.reste, hoff]
  have hpos : 0 < x.reste (s.tOffsetMidnight env) := by omega
  have husec : uint64 (x.reste (s.tOffsetMidnight env) * microSec) =
      (x.reste (s.tOffsetMidnight env) * microSec).toNat := by
    rw [microSec_eq]
    exact uint64_eq (by omega) (by omega)
  have hu : uint64 (x.reste (s.tOffsetMidnight env) * microSec) ≠ 0 := by
    rw [husec, microSec_eq]
    omega
  rw [FinALHeure, and_iff_right hmem, Lancement.stopTacheprofil_of_ne hu, toujours_eq,
    and_iff_right rfl]
  show env.lecture z s.maintenant * microSec +
    ((uint64 (x.reste (s.tOffsetMidnight env) * microSec) : ℕ) : ℤ) = _ ↔ _
  rw [husec, microSec_eq, Int.toNat_of_nonneg (by omega), hreste]
  omega

/-- The second plan of the shipped table, launched at twenty hours. -/
theorem fin_a_l_heure_vingt_heures :
    let env : Env := .zoneFixe 1 0 sInitPlanification
    let s := ((construit 72000).iInitPlanification env toujours (some env.stPlanifProfil)).2
    FinALHeure env 0 0 s
      (s.expire env toujours (arme env 2 false 72000 100 (.fctStartProfil ⟨1, 2⟩)))
      ⟨3, .planifie 2 2 (20 * heure) (12 * heure)⟩ := by
  have hes : Execution.exec (stepLibre (.zoneFixe 1 0 sInitPlanification)) (.construit 72000)
      [.planifie] = some _ := rfl
  exact (fin_a_l_heure_iff (show (Env.zoneFixe 1 0 sInitPlanification).zone = .fixe 0 from rfl) hes
    (by decide) rfl (by decide) (by decide) (by decide) (by decide) (by decide) (by decide)
    (by decide)).mpr (by decide)

/-- The same plan, decided at 23:59:59 and launched a second later: the offset is
now zero, and the profile is stopped a day after the end of its window. -/
theorem fin_en_retard_minuit :
    let env : Env := .zoneFixe 1 0 sInitPlanification
    let s := { ((construit 86399).iInitPlanification env toujours
      (some env.stPlanifProfil)).2 with maintenant := 86400 }
    s.echu 2 = some (arme env 2 false 86399 100 (.fctStartProfil ⟨1, 2⟩)) ∧
      20 * heure ≤ env.lecture 0 s.maintenant ∧ env.lecture 0 s.maintenant < 32 * heure ∧
      ¬ FinALHeure env 0 0 s
        (s.expire env toujours (arme env 2 false 86399 100 (.fctStartProfil ⟨1, 2⟩)))
        ⟨3, .planifie 2 2 (20 * heure) (12 * heure)⟩ :=
  ⟨rfl, by decide, by decide, fun h => absurd h.2.2 (by decide)⟩

end CMainTask

end GestAqua
