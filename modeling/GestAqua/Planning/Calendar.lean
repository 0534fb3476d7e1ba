import GestAqua.Base.Gregorian
import GestAqua.Planning.Cadence
import Mathlib.Data.List.Destutter

/-!
Planning by the days of the real calendar.

`CMainTask::Thread` remembers the `tm_yday` of its last planning, without the year. In the
Gregorian calendar a day of the year comes back after 365 days at the earliest, so as long
as no two successive tests are that far apart, whatever the clock does, the days for which
the main task plans are those it tests, without their repetitions.
-/

namespace GestAqua

/-- The Gregorian calendar has the property that the planning of the ideal machine rests
on. -/
theorem calendrier_gregorien {env : Env} (h : env.tmYday = Gregorian.yday) : Calendrier env where
  nonneg d := by
    rw [h]
    exact Gregorian.yday_nonneg d
  change d := by
    rw [h, Ne, Gregorian.yday_inj (by simp)]
    omega

/-- The `short` of `sLastDay` holds every day of the year. -/
theorem entier_yday (d : ℤ) : entier 16 (Gregorian.yday d) = Gregorian.yday d := by
  have h0 := Gregorian.yday_nonneg d
  have hlt := Gregorian.yday_lt d
  have hlen : Gregorian.yearLength (Gregorian.year d) ≤ 366 := by
    unfold Gregorian.yearLength
    split <;> decide
  exact entier_eq (by omega) (by omega)

def Env.jourUtc (env : Env) (t : ℤ) : ℤ := env.time t / 86400

/-- `stTmCourant->tm_yday!=sLastDay`. -/
def CMainTask.changeJour (env : Env) (s : CMainTask) : Bool :=
  decide (env.tmYday (env.jourUtc s.maintenant) ≠ s.sLastDay)

/-- The main task, with the days that it has tested and those for which it has planned,
the last ones first. -/
structure Releve where
  tache : CMainTask
  testes : List ℤ
  planifies : List ℤ

/-- `teste t` is a test when the clock reads `t`, which need not be later than the last. -/
inductive EvtReleve
  | teste (t : ℤ)
  | expire (a : ℕ)
  deriving DecidableEq, Repr

namespace Releve

def depart (t0 : ℤ) : Releve where
  tache := .construit t0
  testes := []
  planifies := []

def step (env : Env) (cree : ℕ → Bool) (r : Releve) : EvtReleve → Option Releve
  | .teste t =>
    let s : CMainTask := { r.tache with maintenant := t }
    some {
      tache := s.testeJour env cree
      testes := env.jourUtc t :: r.testes
      planifies := if s.changeJour env then env.jourUtc t :: r.planifies else r.planifies }
  | .expire a => (r.tache.echu a).map fun t => { r with tache := r.tache.expire env cree t }

variable {env : Env} {cree : ℕ → Bool} {r r' : Releve}

theorem testeJour_of_change {s : CMainTask} (h : s.changeJour env = true) :
    s.testeJour env cree =
      ({ s with sLastDay := env.tmYday (env.jourUtc s.maintenant) }.iInitPlanification env cree
        (some env.stPlanifProfil)).2 :=
  if_pos (of_decide_eq_true h)

theorem sLastDay_testeJour (s : CMainTask) :
    (s.testeJour env cree).sLastDay = env.tmYday (env.jourUtc s.maintenant) := by
  by_cases h : s.changeJour env = true
  · rw [testeJour_of_change h]
    exact Folds.foldl_invariant
      (I := fun r : CMainTask => r.sLastDay = env.tmYday (env.jourUtc s.maintenant))
      (fun r e _ hr => by rw [Ideal.sLastDay_planifieEntree, hr]) rfl
  · have hsame := not_not.mp (of_decide_eq_false (Bool.not_eq_true _ ▸ h))
    have heq : s.testeJour env cree = s := if_neg (not_not.mpr hsame)
    rw [heq]
    exact hsame.symm

/-! ### Lists without their repetitions -/

theorem destutter_cons_ne (d : ℤ) (l : List ℤ) :
    (d :: l).destutter (· ≠ ·) =
      if l.head? = some d then l.destutter (· ≠ ·) else d :: l.destutter (· ≠ ·) := by
  cases l with
  | nil => rfl
  | cons a l =>
      rw [List.destutter_cons_cons, List.destutter_cons']
      by_cases h : d = a
      · subst h
        simp
      · simp [h, Ne.symm h]

theorem mem_destutter_ne {d : ℤ} {l : List ℤ} : d ∈ l.destutter (· ≠ ·) ↔ d ∈ l := by
  refine ⟨fun h => (List.destutter_sublist _ l).subset h, fun h => ?_⟩
  induction l with
  | nil => cases h
  | cons a l ih =>
      rw [destutter_cons_ne]
      split
      · rename_i ha
        rcases List.mem_cons.mp h with rfl | h
        · exact ih (List.mem_of_mem_head? ha)
        · exact ih h
      · rcases List.mem_cons.mp h with rfl | h
        · exact List.mem_cons_self
        · exact List.mem_cons_of_mem _ (ih h)

theorem pairwise_gt {l : List ℤ} (hge : l.Pairwise (· ≥ ·)) (hne : l.IsChain (· ≠ ·)) :
    l.Pairwise (· > ·) := by
  rw [← List.isChain_iff_pairwise]
  induction l with
  | nil => exact .nil
  | cons a l ih =>
      cases l with
      | nil => exact .singleton a
      | cons b l =>
          obtain ⟨hab, hne⟩ := List.isChain_cons_cons.mp hne
          obtain ⟨ha, hge⟩ := List.pairwise_cons.mp hge
          exact .cons_cons (lt_of_le_of_ne (ha b List.mem_cons_self) hab.symm) (ih hge hne)

/-! ### Over a run -/

def Rapproches (l : List ℤ) : Prop := l.IsChain fun d d' => |d - d'| < 365

/-- The day that is remembered is that of the last test, and what has been planned is what
has been tested, without the repetitions. -/
structure Suivi (env : Env) (r : Releve) : Prop where
  dernier : r.tache.sLastDay = (r.testes.head?.map env.tmYday).getD (-1)
  planifies : Rapproches r.testes → r.planifies = r.testes.destutter (· ≠ ·)

theorem Suivi.step (h : Suivi env r) (hg : env.tmYday = Gregorian.yday) {e : EvtReleve}
    (hs : r.step env cree e = some r') : Suivi env r' := by
  cases e with
  | expire a =>
      obtain ⟨t, -, rfl⟩ := Option.map_eq_some_iff.mp hs
      exact ⟨(Ideal.sLastDay_expire _ t).trans h.dernier, h.planifies⟩
  | teste t =>
      obtain rfl := Option.some.inj hs
      refine ⟨sLastDay_testeJour _, fun hr => ?_⟩
      have hlast : ({ r.tache with maintenant := t } : CMainTask).changeJour env = true ↔
          r.testes.head? ≠ some (env.jourUtc t) := by
        rw [CMainTask.changeJour, decide_eq_true_iff]
        show env.tmYday (env.jourUtc t) ≠ r.tache.sLastDay ↔ _
        rw [h.dernier, hg]
        cases hl : r.testes with
        | nil =>
            have := Gregorian.yday_nonneg (env.jourUtc t)
            simp only [List.head?_nil, Option.map_none, Option.getD_none]
            exact iff_of_true (by omega) (by simp)
        | cons d l =>
            rw [hl] at hr
            have hd := (List.isChain_cons_cons.mp hr).1
            simp only [List.head?_cons, Option.map_some, Option.getD_some]
            rw [Ne, Gregorian.yday_inj hd, Ne, Option.some_inj, eq_comm]
      have hprev := h.planifies hr.tail
      dsimp only
      rw [destutter_cons_ne, hprev]
      by_cases hc : r.testes.head? = some (env.jourUtc t)
      · rw [if_pos hc, if_neg (mt hlast.mp (not_not.mpr hc))]
      · rw [if_neg hc, if_pos (hlast.mpr hc)]

/-- In every run whose successive tests are less than 365 days apart, the days for which
the main task plans are the days it tests, without the repetitions; when the clock never
goes back, each tested day is planned for exactly once. -/
theorem une_fois_par_jour (env : Env) (cree : ℕ → Bool) (t0 : ℤ)
    (hg : env.tmYday = Gregorian.yday) (es : List EvtReleve) (r : Releve)
    (hes : Execution.exec (step env cree) (depart t0) es = some r) (hr : Rapproches r.testes) :
    r.planifies = r.testes.destutter (· ≠ ·) ∧
      (r.testes.Pairwise (· ≥ ·) →
        r.planifies.Pairwise (· > ·) ∧ ∀ d, d ∈ r.planifies ↔ d ∈ r.testes) := by
  have h := (Execution.exec_invariant (I := Suivi env) (fun _ _ _ hI hs => hI.step hg hs)
    ⟨rfl, fun _ => rfl⟩ hes).planifies hr
  refine ⟨h, fun hordre => ?_⟩
  rw [h]
  exact ⟨pairwise_gt (hordre.sublist (List.destutter_sublist _ _)) (List.isChain_destutter _ _),
    fun d => mem_destutter_ne⟩

/-- The shipped table, under the real calendar. -/
def envGregorien : Env := { Env.zoneFixe 1 3600 sInitPlanification with tmYday := Gregorian.yday }

/-- Twenty minutes before the year 2024, at its beginning and one second later: the task
plans twice. -/
theorem deux_jours_nouvel_an :
    let r := (Execution.exec (step envGregorien toujours) (depart 1704066000)
      [.teste 1704066000, .teste 1704067200, .teste 1704067201]).get rfl
    r.planifies = [19723, 19722] :=
  (une_fois_par_jour envGregorien toujours 1704066000 rfl
    [.teste 1704066000, .teste 1704067200, .teste 1704067201] _ (Option.some_get _).symm
    (by unfold Rapproches; decide)).1.trans (by decide)

/-- A test on the first of January 1970 and one 365 days later: the second plans nothing. -/
example : (Execution.exec (step envGregorien toujours) (depart 0)
    [.teste 0, .teste 31536000]).map (·.planifies) = some [0] := by decide

end Releve

end GestAqua
