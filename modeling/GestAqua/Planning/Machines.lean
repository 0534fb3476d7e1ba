import GestAqua.Base.Execution
import GestAqua.Planning.Views

/-!
Two machines over the operations of the main task.

In the ideal machine the main task tests for a change of day once per second and
every timer fires at the instant at which it is due: time does not pass an
instant before all that is due at it has happened, in any order. In the free
machine planning happens at any time and a due timer may fire at any later time.
Both take the callbacks as indivisible.
-/

namespace GestAqua

/-- A zone with a constant offset from UTC, years of 365 days. -/
def Env.zoneFixe (parSeconde : ℕ) (z : ℤ) (l : List DefPlanificationProfil) : Env where
  parSeconde := parSeconde
  zone := .fixe z
  tmYday d := d % 365
  stPlanifProfil := l

/-- The timer is armed and its duration has elapsed. -/
def TimerTache.estDu (t : TimerTache) (maintenant : ℤ) : Bool :=
  t.timer.bStarted && decide (t.echeance ≤ maintenant)

namespace CMainTask

def echu (a : ℕ) (s : CMainTask) : Option TimerTache :=
  s.timers.find? fun t => t.adresse == a && t.estDu s.maintenant

theorem echu_eq_some {a : ℕ} {s : CMainTask} {t : TimerTache} (h : s.echu a = some t) :
    t ∈ s.timers ∧ t.adresse = a ∧ t.timer.bStarted = true ∧ t.echeance ≤ s.maintenant := by
  have hp := List.find?_some h
  simp only [TimerTache.estDu, Bool.and_eq_true, beq_iff_eq, decide_eq_true_eq] at hp
  exact ⟨List.mem_of_find?_eq_some h, hp⟩

end CMainTask

/-! ### The ideal machine -/

/-- The main task under an ideal clock, with the instant of its next test and
the launches so far, each with its instant. -/
structure Ideal where
  tache : CMainTask
  prochainTic : ℤ
  lancements : List (ℤ × UInt8)

inductive EvtIdeal
  | tic
  | expire (a : ℕ)
  | avance
  deriving DecidableEq, Repr

namespace Ideal

def depart (t0 : ℤ) : Ideal where
  tache := .construit t0
  prochainTic := t0
  lancements := []

def lancement (t : TimerTache) : Option UInt8 :=
  match t.timer.hObjetAttache with
  | some (.fctStartProfil pParam) => some pParam.ucNumeroPlanif
  | _ => none

/-- Everything due at the current instant has happened. -/
def calme (m : Ideal) : Bool :=
  decide (m.tache.maintenant < m.prochainTic) &&
    m.tache.timers.all fun t => !t.estDu m.tache.maintenant

def step (env : Env) (m : Ideal) : EvtIdeal → Option Ideal
  | .tic =>
    if m.tache.maintenant = m.prochainTic then
      some { m with
        tache := m.tache.testeJour env toujours
        prochainTic := m.prochainTic + env.parSeconde }
    else none
  | .expire a =>
    (m.tache.echu a).map fun t =>
      { m with
        tache := m.tache.expire env toujours t
        lancements := ((lancement t).map fun n => (m.tache.maintenant, n)).toList ++ m.lancements }
  | .avance =>
    if m.calme then
      some { m with tache := { m.tache with maintenant := m.tache.maintenant + 1 } }
    else none

theorem step_cases {env : Env} {m m' : Ideal} {e : EvtIdeal} (h : m.step env e = some m') :
    (e = .tic ∧ m.tache.maintenant = m.prochainTic ∧
      m' = { m with
        tache := m.tache.testeJour env toujours
        prochainTic := m.prochainTic + env.parSeconde }) ∨
    (∃ t ∈ m.tache.timers, e = .expire t.adresse ∧ t.timer.bStarted = true ∧
      t.echeance ≤ m.tache.maintenant ∧
      m' = { m with
        tache := m.tache.expire env toujours t
        lancements :=
          ((lancement t).map fun n => (m.tache.maintenant, n)).toList ++ m.lancements }) ∨
    (e = .avance ∧ m.tache.maintenant < m.prochainTic ∧
      (∀ t ∈ m.tache.timers, t.timer.bStarted = true → m.tache.maintenant < t.echeance) ∧
      m' = { m with tache := { m.tache with maintenant := m.tache.maintenant + 1 } }) := by
  cases e with
  | tic =>
      simp only [step] at h
      split at h
      · rename_i hnow
        exact .inl ⟨rfl, hnow, (Option.some.inj h).symm⟩
      · cases h
  | expire a =>
      obtain ⟨t, ht, rfl⟩ := Option.map_eq_some_iff.mp h
      obtain ⟨hmem, rfl, hst, hdue⟩ := CMainTask.echu_eq_some ht
      exact .inr (.inl ⟨t, hmem, rfl, hst, hdue, rfl⟩)
  | avance =>
      simp only [step] at h
      split at h
      · rename_i hcalme
        simp only [calme, Bool.and_eq_true, decide_eq_true_eq, List.all_eq_true] at hcalme
        refine .inr (.inr ⟨rfl, hcalme.1, fun t ht hst => ?_, (Option.some.inj h).symm⟩)
        have hdue := hcalme.2 t ht
        simpa [TimerTache.estDu, hst] using hdue
      · cases h

theorem calme_iff {m : Ideal} : m.calme = true ↔ m.tache.maintenant < m.prochainTic ∧
    ∀ t ∈ m.tache.timers, t.timer.bStarted = true → m.tache.maintenant < t.echeance := by
  simp only [calme, Bool.and_eq_true, decide_eq_true_eq, List.all_eq_true, TimerTache.estDu,
    Bool.not_eq_true', Bool.and_eq_false_imp, decide_eq_false_iff_not, Int.not_le]

/-- The state reached by a run from the first test at `t0`. -/
def Atteint (env : Env) (t0 : ℤ) (m : Ideal) : Prop :=
  ∃ es, Execution.exec (step env) (depart t0) es = some m

theorem Atteint.invariant {env : Env} {t0 : ℤ} {I : Ideal → Prop} (h0 : I (depart t0))
    (hstep : ∀ m e m', I m → m.step env e = some m' → I m') {m : Ideal}
    (h : Atteint env t0 m) : I m := by
  obtain ⟨es, hes⟩ := h
  exact Execution.exec_invariant hstep h0 hes

end Ideal

/-! ### The free machine -/

inductive EvtLibre
  | planifie
  | expire (a : ℕ)
  | avance (t : ℤ)
  deriving DecidableEq, Repr

namespace CMainTask

def stepLibre (env : Env) (s : CMainTask) : EvtLibre → Option CMainTask
  | .planifie => some (s.iInitPlanification env toujours (some env.stPlanifProfil)).2
  | .expire a => (s.echu a).map fun t => s.expire env toujours t
  | .avance t => if s.maintenant ≤ t then some { s with maintenant := t } else none

theorem stepLibre_cases {env : Env} {s s' : CMainTask} {e : EvtLibre}
    (h : s.stepLibre env e = some s') :
    (e = .planifie ∧ s' = (s.iInitPlanification env toujours (some env.stPlanifProfil)).2) ∨
    (∃ t ∈ s.timers, e = .expire t.adresse ∧ t.timer.bStarted = true ∧
      t.echeance ≤ s.maintenant ∧ s' = s.expire env toujours t) ∨
    (∃ t, e = .avance t ∧ s.maintenant ≤ t ∧ s' = { s with maintenant := t }) := by
  cases e with
  | planifie => exact .inl ⟨rfl, (Option.some.inj h).symm⟩
  | expire a =>
      obtain ⟨t, ht, rfl⟩ := Option.map_eq_some_iff.mp h
      obtain ⟨hmem, rfl, hst, hdue⟩ := echu_eq_some ht
      exact .inr (.inl ⟨t, hmem, rfl, hst, hdue, rfl⟩)
  | avance t =>
      simp only [stepLibre] at h
      split at h
      · exact .inr (.inr ⟨t, rfl, ‹_›, (Option.some.inj h).symm⟩)
      · cases h

end CMainTask

end GestAqua
