import GestAqua.Planning.Machines

/-!
Time passes.

The ideal machine leaves an instant once all that is due at it has happened, so
what is proved of its quiet states says something about every later instant only
if that never becomes an endless task. It does not: an expiry disarms its timer,
a launcher's arms at most one stop timer for each entry of the table, and a stop
timer's arms none. A potential that charges a launcher for the whole table
(`poids`) pays for every expiry, and from any state of a run the clock reaches
every later instant (`Atteint.passe`).
-/

namespace GestAqua

namespace TimerTache

/-- The expiries that an armed timer can lead to, for a table of `k` entries. -/
def poids (k : ℕ) (t : TimerTache) : ℕ :=
  if t.timer.bStarted then
    match t.timer.hObjetAttache with
    | some (.fctStartProfil _) => k + 1
    | _ => 1
  else 0

def potentiel (k : ℕ) (l : List TimerTache) : ℕ := (l.map (poids k)).sum

variable {k : ℕ}

theorem poids_of_not_started {t : TimerTache} (h : t.timer.bStarted = false) :
    poids k t = 0 := by
  simp [poids, h]

@[simp] theorem potentiel_cons (t : TimerTache) (l : List TimerTache) :
    potentiel k (t :: l) = poids k t + potentiel k l := rfl

theorem potentiel_surAdresse {f : TimerTache → Option TimerTache} (hf : Garde f) (a : ℕ)
    (l : List TimerTache) : potentiel k (surAdresse a f l) ≤ potentiel k l := by
  induction l with
  | nil => exact Nat.le_refl _
  | cons t l ih =>
      rw [surAdresse, List.filterMap_cons]
      by_cases ha : t.adresse = a
      · rw [if_pos ha]
        cases h : f t with
        | none => exact Nat.le_add_left_of_le ih
        | some t' =>
            rw [potentiel_cons, poids_of_not_started (hf t t' h).2.1]
            exact Nat.add_le_add (Nat.zero_le _) ih
      · rw [if_neg ha]
        exact Nat.add_le_add_left ih _

theorem potentiel_surAdresse_add {f : TimerTache → Option TimerTache} (hf : Garde f)
    {l : List TimerTache} {t : TimerTache} (ht : t ∈ l) :
    potentiel k (surAdresse t.adresse f l) + poids k t ≤ potentiel k l := by
  obtain ⟨l₁, l₂, rfl⟩ := List.append_of_mem ht
  have hsplit : ∀ l₁ l₂ : List TimerTache,
      potentiel k (l₁ ++ l₂) = potentiel k l₁ + potentiel k l₂ := by
    simp [potentiel]
  have hhead : potentiel k (surAdresse t.adresse f [t]) = 0 := by
    rw [surAdresse, List.filterMap_cons, if_pos rfl]
    cases h : f t with
    | none => rfl
    | some t' => simp [potentiel, poids_of_not_started (hf t t' h).2.1]
  have hl₁ := potentiel_surAdresse (k := k) hf t.adresse l₁
  have hl₂ := potentiel_surAdresse (k := k) hf t.adresse l₂
  have happ : surAdresse t.adresse f (l₁ ++ t :: l₂) = surAdresse t.adresse f l₁ ++
      (surAdresse t.adresse f [t] ++ surAdresse t.adresse f l₂) := by
    rw [surAdresse, surAdresse, surAdresse, surAdresse, ← List.filterMap_append,
      ← List.filterMap_append]
    rfl
  rw [happ, hsplit, hsplit, hsplit, hhead, potentiel_cons]
  omega

end TimerTache

namespace CMainTask

open TimerTache

variable {env : Env} {s : CMainTask} {k : ℕ}

variable (env s k) in
theorem potentiel_lanceProfil (e : DefPlanificationProfil) :
    potentiel k (s.lanceProfil env toujours e).timers ≤ potentiel k s.timers + 1 := by
  rw [Nat.add_comm]
  by_cases h : s.DelaiNonNul env e
  · rw [timers_lanceProfil e h]
    exact Nat.le_refl _
  · rw [timers_lanceProfil_zero e h]
    exact Nat.add_le_add_right (Nat.zero_le 1) _

variable (env s k) in
theorem potentiel_iStartProfil (n : UInt8) :
    potentiel k (s.iStartProfil env toujours n).2.timers ≤
      potentiel k s.timers + env.stPlanifProfil.length := by
  unfold iStartProfil
  split
  · refine Folds.foldl_le_add_length (μ := fun s : CMainTask => potentiel k s.timers)
      (fun s e _ => ?_) (s.effaceLanceur n)
    split
    · exact potentiel_lanceProfil env s k e
    · exact Nat.le_add_right _ _
  · exact Nat.le_add_right _ _

@[simp] theorem timers_iStopProfil (p : UInt8) (a : ℕ) :
    (s.iStopProfil p a).2.timers = s.timers := by
  unfold iStopProfil
  split <;> rfl

variable (env) in
/-- What a callback arms is charged to its timer. -/
theorem potentiel_rappelle {t : TimerTache} (hst : t.timer.bStarted = true) :
    potentiel env.stPlanifProfil.length
        (s.rappelle env toujours t.timer.hObjetAttache).timers <
      potentiel env.stPlanifProfil.length s.timers + poids env.stPlanifProfil.length t := by
  rw [poids, if_pos hst]
  cases t.timer.hObjetAttache with
  | none => exact Nat.lt_succ_self _
  | some r =>
      cases r with
      | fctStartProfil pParam =>
          exact Nat.lt_succ_of_le (potentiel_iStartProfil env s _ pParam.ucNumeroPlanif)
      | fctStopProfil pParam =>
          show potentiel _ (s.iStopProfil _ _).2.timers < _
          rw [timers_iStopProfil]
          exact Nat.lt_succ_self _

variable (env) in
theorem potentiel_expire {t : TimerTache} (ht : t ∈ s.timers) (hst : t.timer.bStarted = true) :
    potentiel env.stPlanifProfil.length (s.expire env toujours t).timers <
      potentiel env.stPlanifProfil.length s.timers := by
  have hcharge := potentiel_rappelle env (s := s) hst
  have hfin := potentiel_surAdresse_add (k := env.stPlanifProfil.length) garde_fini
    (mem_timers_rappelle env ht t.timer.hObjetAttache)
  exact Nat.lt_of_add_lt_add_right (Nat.lt_of_le_of_lt hfin hcharge)

end CMainTask

namespace Ideal

variable {env : Env} {t0 : ℤ} {m : Ideal}

/-- The clock never passes an instant at which a test is due. -/
theorem Atteint.maintenant_le (hm : Atteint env t0 m) : m.tache.maintenant ≤ m.prochainTic := by
  refine hm.invariant (I := fun m => m.tache.maintenant ≤ m.prochainTic) (Int.le_refl t0)
    fun m ev m' h hs => ?_
  rcases step_cases hs with ⟨-, hnow, rfl⟩ | ⟨t, -, -, -, -, rfl⟩ | ⟨-, hlt, -, rfl⟩
  · show (m.tache.testeJour env toujours).maintenant ≤ _
    rw [CMainTask.maintenant_testeJour, hnow]
    exact Int.le_add_of_nonneg_right (Int.natCast_nonneg _)
  · show (m.tache.expire env toujours t).maintenant ≤ _
    rw [CMainTask.maintenant_expire]
    exact h
  · exact hlt

variable (env) in
theorem step_expire_of_estDu {t : TimerTache} (ht : t ∈ m.tache.timers)
    (hdu : t.estDu m.tache.maintenant = true) : ∃ m', m.step env (.expire t.adresse) = some m' := by
  have hsome : (m.tache.echu t.adresse).isSome = true := by
    rw [CMainTask.echu, List.find?_isSome]
    exact ⟨t, ht, by simpa using hdu⟩
  obtain ⟨u, hu⟩ := Option.isSome_iff_exists.mp hsome
  exact ⟨_, by rw [step, hu]; rfl⟩

/-- Between two tests a quiet state is reached without the clock moving. -/
theorem calme_entre_tics (env : Env) (hlt : m.tache.maintenant < m.prochainTic) :
    ∃ es m', Execution.exec (step env) m es = some m' ∧
      m'.tache.maintenant = m.tache.maintenant ∧ m'.calme = true := by
  let I : Ideal → Prop := fun r =>
    r.tache.maintenant = m.tache.maintenant ∧ r.tache.maintenant < r.prochainTic
  let Φ : Ideal → ℕ := fun r =>
    TimerTache.potentiel env.stPlanifProfil.length r.tache.timers
  have hstep : ∀ r, I r → ¬ r.calme = true →
      ∃ ev r', r.step env ev = some r' ∧ I r' ∧ Φ r' < Φ r := by
    rintro r ⟨hnow, hlt⟩ hbruit
    have hdu : ∃ t ∈ r.tache.timers, t.estDu r.tache.maintenant = true := by
      simpa [calme, hlt] using hbruit
    obtain ⟨t, ht, hdu⟩ := hdu
    obtain ⟨r', hr'⟩ := step_expire_of_estDu env ht hdu
    refine ⟨_, r', hr', ?_⟩
    rcases step_cases hr' with ⟨hcon, -⟩ | ⟨u, hu, -, hst, -, rfl⟩ | ⟨hcon, -⟩
    · cases hcon
    · refine ⟨?_, CMainTask.potentiel_expire env hu hst⟩
      show (r.tache.expire env toujours u).maintenant = _ ∧
        (r.tache.expire env toujours u).maintenant < _
      rw [CMainTask.maintenant_expire]
      exact ⟨hnow, hlt⟩
    · cases hcon
  obtain ⟨es, m', hes, ⟨hnow, -⟩, hcalme⟩ := Execution.exec_reaches Φ hstep ⟨rfl, hlt⟩
  exact ⟨es, m', hes, hnow, hcalme⟩

/-- In every state of a run, all that is due at the instant can happen. -/
theorem Atteint.calme (hu : 0 < env.parSeconde) (hm : Atteint env t0 m) :
    ∃ es m', Execution.exec (step env) m es = some m' ∧
      m'.tache.maintenant = m.tache.maintenant ∧ m'.calme = true := by
  rcases Int.lt_or_eq_of_le hm.maintenant_le with hlt | hnow
  · exact calme_entre_tics env hlt
  · let r : Ideal := { m with
      tache := m.tache.testeJour env toujours
      prochainTic := m.prochainTic + env.parSeconde }
    have hr : m.step env .tic = some r := by
      simp only [step, hnow, if_pos, r]
    have hnow' : r.tache.maintenant = m.tache.maintenant := CMainTask.maintenant_testeJour _
    obtain ⟨es, m', hes, hm', hcalme⟩ := calme_entre_tics env (m := r) (by
      rw [hnow', hnow]
      exact Int.lt_add_of_pos_right _ (Int.natCast_pos.mpr hu))
    exact ⟨.tic :: es, m', Execution.exec_cons_eq_some.mpr ⟨r, hr, hes⟩, hm'.trans hnow', hcalme⟩

/-- From any state of a run the clock reaches every later instant, and a quiet
state there. -/
theorem Atteint.passe (hu : 0 < env.parSeconde) (hm : Atteint env t0 m) (n : ℕ) :
    ∃ es m', Execution.exec (step env) m es = some m' ∧
      m'.tache.maintenant = m.tache.maintenant + n ∧ m'.calme = true := by
  induction n with
  | zero => simpa using hm.calme hu
  | succ n ih =>
      obtain ⟨es, r, hes, hnow, hcalme⟩ := ih
      let r' : Ideal := { r with tache := { r.tache with maintenant := r.tache.maintenant + 1 } }
      have hr' : r.step env .avance = some r' := by
        simp only [step, hcalme, if_pos, r']
      have hrun : Execution.exec (step env) m (es ++ [.avance]) = some r' :=
        Execution.exec_append_eq_some.mpr
          ⟨r, hes, Execution.exec_cons_eq_some.mpr ⟨r', hr', rfl⟩⟩
      have hatteint : Atteint env t0 r' := by
        obtain ⟨es₀, hes₀⟩ := hm
        exact ⟨es₀ ++ (es ++ [.avance]), Execution.exec_append_eq_some.mpr ⟨m, hes₀, hrun⟩⟩
      obtain ⟨es', m', hes', hnow', hcalme'⟩ := hatteint.calme hu
      refine ⟨es ++ [.avance] ++ es', m', Execution.exec_append_eq_some.mpr ⟨r', hrun, hes'⟩, ?_,
        hcalme'⟩
      rw [hnow']
      show r.tache.maintenant + 1 = _
      rw [hnow]
      omega

end Ideal

end GestAqua
