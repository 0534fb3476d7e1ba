import GestAqua.Aquarium.Suns
import GestAqua.Planning.Progress
import GestAqua.Soleil.Calls
import GestAqua.Soleil.Parameters

/-!
Time passes in the whole program.

The machine leaves an instant when no timer and no sun is due any more. A tick puts its
sun off by the interval of the curve, so it costs one unit of a potential that counts the
suns that are due beside the charges of the timers. This needs that no segment has a zero
interval: `select` would return at once, again and again.
-/

namespace GestAqua

structure CSoleil.Patient (s : CSoleil) : Prop where
  intervalle : 0 < s.usIntervalleX
  segments : ∀ g ∈ s.segments, 0 < g.usIntervalleX

theorem CSoleil.Patient.selectionne {s : CSoleil} (h : s.Patient) (t : ℤ) :
    0 < (s.selectionne t).usIntervalleX := by
  by_cases hi : s.sIndexlSegment = -1
  · rcases selectionne_cases (t := t) hi with ⟨-, heq⟩ | ⟨k, g, hg, -, heq⟩
    · rw [heq]
      exact h.intervalle
    · rw [heq]
      exact h.segments g (List.mem_of_getElem? hg)
  · rw [selectionne_of_ne hi]
    exact h.intervalle

theorem CSoleil.Patient.iGererCourbe {s : CSoleil} (h : s.Patient) (t : ℤ) :
    (s.iGererCourbe t).1.Patient where
  intervalle := by
    rw [iGererCourbe_intervalle]
    exact h.selectionne t
  segments := by
    rw [CSoleil.segments, iGererCourbe_stParam]
    exact h.segments

/-- No segment of a curve has a zero interval, neither in the table nor in the memory of
a new profile. -/
def Installation.SansAttenteNulle (inst : Installation) : Prop :=
  ∀ q ∈ inst.stParam :: inst.stParamProfil, ∀ g ∈ q.stParamSoleil.stCourbeSolaire.lSegment,
    0 < g.usIntervalleX

instance (inst : Installation) : Decidable inst.SansAttenteNulle :=
  inferInstanceAs (Decidable (∀ q ∈ _, ∀ g ∈ _, _))

theorem TacheProfil.stParam_construit_mem (n : UInt8) (table : List ParamProfil)
    (stParam : ParamProfil) : (construit n (some table) stParam).stParam ∈ stParam :: table := by
  by_cases hn : n = 0
  · rw [construit, iInit_sans_numero (.inl hn)]
    exact List.mem_cons_self
  · rw [construit_numero hn]
    cases hl : (entrees n table).getLast? with
    | none => exact List.mem_cons_self
    | some x => exact List.mem_cons_of_mem _ (mem_entrees.mp (List.mem_of_getLast? hl)).1

variable {inst : Installation} {t0 : ℤ}

namespace Eclairage

theorem allume_cases {now : ℤ} {i : CProfil} {x : Eclairage} (h : allume inst now i = some x) :
    ∃ q ∈ inst.stParam :: inst.stParamProfil,
      x = ⟨i.adresse, .construit q.stParamSoleil inst.dX, none, now + inst.env.parSeconde⟩ := by
  obtain ⟨s, hs, rfl⟩ := Option.map_eq_some_iff.mp h
  refine ⟨_, TacheProfil.stParam_construit_mem i.ucNumeroProfil inst.stParamProfil inst.stParam,
    ?_⟩
  have hneuf : TacheProfil.construit i.ucNumeroProfil (some inst.stParamProfil) inst.stParam =
      .neuf i.ucNumeroProfil (some inst.stParamProfil)
        (TacheProfil.construit i.ucNumeroProfil (some inst.stParamProfil) inst.stParam).stParam := by
    by_cases hn : i.ucNumeroProfil = 0
    · rw [TacheProfil.construit, TacheProfil.iInit_sans_numero (.inl hn)]
      rfl
    · rw [TacheProfil.construit_numero hn]
      rfl
  rw [hneuf, TacheProfil.pSoleil_entre] at hs
  split at hs
  · cases hs
    simp [CSoleil.construit]
  · cases hs

theorem Patient.allume (hinst : inst.SansAttenteNulle) {now : ℤ} {i : CProfil} {x : Eclairage}
    (h : Eclairage.allume inst now i = some x) : x.soleil.Patient := by
  obtain ⟨q, hq, rfl⟩ := allume_cases h
  exact ⟨Nat.one_pos, hinst q hq⟩

end Eclairage

namespace Aquarium

variable {m m' : Aquarium}

def Patients (m : Aquarium) : Prop := ∀ x ∈ m.soleils, x.soleil.Patient

theorem Patients.step (hinst : inst.SansAttenteNulle) (h : Patients m) {e : EvtAquarium}
    (hs : m.step inst e = some m') : Patients m' := by
  rcases step_cases hs with ⟨ev, r, -, -, -, rfl⟩ | ⟨a, -, rfl⟩
  · intro x hx
    rcases mem_suit.mp hx with ⟨i, -, -, hi⟩ | ⟨hx, -⟩
    · exact Eclairage.Patient.allume hinst hi
    · exact h x hx
  · intro x hx
    obtain ⟨y, hy, rfl⟩ := List.mem_map.mp hx
    split
    · exact (h y hy).iGererCourbe _
    · exact h y hy

def dus (m : Aquarium) : ℕ := m.soleils.countP (·.estDu m.ideal.tache.maintenant)

theorem dus_suit (hu : 0 < inst.env.parSeconde) {s' : CMainTask} {r : Ideal}
    (hnow : s'.maintenant = m.ideal.tache.maintenant) (hr : r.tache = s') :
    dus ⟨r, suit inst m.ideal.tache s' m.soleils⟩ ≤ m.dus := by
  subst hr
  rw [dus, suit, List.countP_append, List.countP_eq_zero.mpr, Nat.zero_add, dus, hnow]
  · exact List.filter_sublist.countP_le
  · intro x hx
    obtain ⟨i, -, hi⟩ := List.mem_filterMap.mp hx
    obtain ⟨q, -, rfl⟩ := Eclairage.allume_cases hi
    simpa [Eclairage.estDu] using Nat.pos_iff_ne_zero.mp hu

theorem dus_gere (hu : 0 < inst.env.parSeconde) (h : Patients m) {a : ℕ} {x : Eclairage}
    (hx : x ∈ m.soleils) (hdu : m.echu a x = true) :
    Aquarium.dus { m with
      soleils := m.soleils.map fun x =>
        if m.echu a x then x.gere inst.env m.ideal.tache else x } < m.dus := by
  have hgere : ∀ y ∈ m.soleils,
      (y.gere inst.env m.ideal.tache).estDu m.ideal.tache.maintenant = false := by
    intro y hy
    have hint := ((h y hy).iGererCourbe (m.ideal.tache.tOffsetMidnight inst.env)).intervalle
    have hpos : 0 < ((y.soleil.iGererCourbe
        (m.ideal.tache.tOffsetMidnight inst.env)).1.usIntervalleX : ℤ) * inst.env.parSeconde := by
      positivity
    refine decide_eq_false_iff_not.mpr (not_le.mpr ?_)
    show m.ideal.tache.maintenant < m.ideal.tache.maintenant + _
    omega
  refine Folds.countP_map_lt (fun y hy hdue => ?_) hx (Bool.and_eq_true_iff.mp hdu).2 ?_
  · by_cases hya : m.echu a y = true
    · exact (Bool.and_eq_true_iff.mp hya).2
    · simpa [hya] using hdue
  · rw [if_pos hdu]
    exact hgere x hx

/-- Between two tests a quiet state is reached without the clock moving. -/
theorem calme_entre_tics (hu : 0 < inst.env.parSeconde) (hinst : inst.SansAttenteNulle)
    (hm : Patients m) (hlt : m.ideal.tache.maintenant < m.ideal.prochainTic) :
    ∃ es m', Execution.exec (step inst) m es = some m' ∧
      m'.ideal.tache.maintenant = m.ideal.tache.maintenant ∧ m'.calme = true := by
  let I : Aquarium → Prop := fun r => Patients r ∧
    r.ideal.tache.maintenant = m.ideal.tache.maintenant ∧
      r.ideal.tache.maintenant < r.ideal.prochainTic
  let Φ : Aquarium → ℕ := fun r =>
    TimerTache.potentiel inst.env.stPlanifProfil.length r.ideal.tache.timers + r.dus
  have hstep : ∀ r, I r → ¬ r.calme = true →
      ∃ ev r', r.step inst ev = some r' ∧ I r' ∧ Φ r' < Φ r := by
    rintro r ⟨hpat, hnow, hlt⟩ hbruit
    have hdu : (∃ t ∈ r.ideal.tache.timers, t.estDu r.ideal.tache.maintenant = true) ∨
        ∃ x ∈ r.soleils, x.estDu r.ideal.tache.maintenant = true := by
      by_contra hrien
      simp only [not_or, not_exists, not_and, Bool.not_eq_true] at hrien
      refine hbruit (Bool.and_eq_true_iff.mpr ⟨Bool.and_eq_true_iff.mpr ⟨by simpa using hlt, ?_⟩,
        ?_⟩)
      · simpa using hrien.1
      · simpa using hrien.2
    rcases hdu with ⟨t, ht, hdu⟩ | ⟨x, hx, hdu⟩
    · -- a timer that is due fires
      obtain ⟨r₁, hr₁⟩ := Ideal.step_expire_of_estDu inst.env ht hdu
      have hs : r.step inst (.tache (.expire t.adresse)) =
          some ⟨r₁, suit inst r.ideal.tache r₁.tache r.soleils⟩ := by
        simp [step, hr₁]
      refine ⟨_, _, hs, ?_⟩
      rcases Ideal.step_cases hr₁ with ⟨hcon, -⟩ | ⟨u, hmem, -, hst, -, rfl⟩ | ⟨hcon, -⟩
      · cases hcon
      · have hnow' : (r.ideal.tache.expire inst.env toujours u).maintenant = _ :=
          CMainTask.maintenant_expire _ u
        refine ⟨⟨hpat.step hinst hs, hnow'.trans hnow, hnow'.trans_lt hlt⟩, ?_⟩
        exact Nat.add_lt_add_of_lt_of_le (CMainTask.potentiel_expire inst.env hmem hst)
          (dus_suit hu hnow' rfl)
      · cases hcon
    · -- a sun whose wait is over has its tick
      have hech : r.echu x.pProfil x = true := by simp [echu, hdu]
      have hs : r.step inst (.soleil x.pProfil) = some { r with
          soleils := r.soleils.map fun y =>
            if r.echu x.pProfil y then y.gere inst.env r.ideal.tache else y } :=
        if_pos (List.any_eq_true.mpr ⟨x, hx, hech⟩)
      exact ⟨_, _, hs, ⟨hpat.step hinst hs, hnow, hlt⟩,
        Nat.add_lt_add_left (dus_gere hu hpat hx hech) _⟩
  obtain ⟨es, m', hes, ⟨-, hnow, -⟩, hcalme⟩ := Execution.exec_reaches Φ hstep ⟨hm, rfl, hlt⟩
  exact ⟨es, m', hes, hnow, hcalme⟩

theorem Atteint.patients (hinst : inst.SansAttenteNulle) (hm : Atteint inst t0 m) : Patients m :=
  hm.invariant (by simp [Patients, Aquarium.depart]) fun _ _ _ h hs => h.step hinst hs

/-- In every state of a run, all that is due at the instant can happen. -/
theorem Atteint.calme (hu : 0 < inst.env.parSeconde) (hinst : inst.SansAttenteNulle)
    (hm : Atteint inst t0 m) : ∃ es m', Execution.exec (step inst) m es = some m' ∧
      m'.ideal.tache.maintenant = m.ideal.tache.maintenant ∧ m'.calme = true := by
  rcases Int.lt_or_eq_of_le hm.ideal.maintenant_le with hlt | hnow
  · exact calme_entre_tics hu hinst (hm.patients hinst) hlt
  · let r : Ideal := { m.ideal with
      tache := m.ideal.tache.testeJour inst.env toujours
      prochainTic := m.ideal.prochainTic + inst.env.parSeconde }
    have hr : m.step inst (.tache .tic) =
        some ⟨r, suit inst m.ideal.tache r.tache m.soleils⟩ := by
      simp [step, Ideal.step, hnow, r]
    have hnow' : r.tache.maintenant = m.ideal.tache.maintenant := CMainTask.maintenant_testeJour _
    obtain ⟨es, m', hes, hm', hcalme⟩ := calme_entre_tics hu hinst
      ((hm.patients hinst).step hinst hr) (by
        show r.tache.maintenant < m.ideal.prochainTic + inst.env.parSeconde
        rw [hnow', hnow]
        exact Int.lt_add_of_pos_right _ (Int.natCast_pos.mpr hu))
    exact ⟨.tache .tic :: es, m', Execution.exec_cons_eq_some.mpr ⟨_, hr, hes⟩, hm'.trans hnow',
      hcalme⟩

theorem Atteint.suite (hm : Atteint inst t0 m) {es : List EvtAquarium}
    (hes : Execution.exec (step inst) m es = some m') : Atteint inst t0 m' := by
  obtain ⟨es₀, hes₀⟩ := hm
  exact ⟨es₀ ++ es, Execution.exec_append_eq_some.mpr ⟨m, hes₀, hes⟩⟩

/-- From every state of a run the clock reaches every later instant, and a quiet state
there, once no segment has a zero interval. -/
theorem temps_passe (inst : Installation) (t0 : ℤ) (hu : 0 < inst.env.parSeconde)
    (hinst : inst.SansAttenteNulle) (m : Aquarium) (hm : Atteint inst t0 m) (n : ℕ) :
    ∃ es m', Execution.exec (step inst) m es = some m' ∧
      m'.ideal.tache.maintenant = m.ideal.tache.maintenant + n ∧ m'.calme = true := by
  induction n with
  | zero => simpa using hm.calme hu hinst
  | succ n ih =>
      obtain ⟨es, r, hes, hnow, hcalme⟩ := ih
      let s : Ideal := { r.ideal with
        tache := { r.ideal.tache with maintenant := r.ideal.tache.maintenant + 1 } }
      have hr : r.step inst (.tache .avance) =
          some ⟨s, suit inst r.ideal.tache s.tache r.soleils⟩ := by
        simp [step, Ideal.step, hcalme, (Bool.and_eq_true_iff.mp hcalme).1, s]
      have hrun : Execution.exec (step inst) m (es ++ [.tache .avance]) = some _ :=
        Execution.exec_concat hes hr
      obtain ⟨es', m', hes', hnow', hcalme'⟩ := (hm.suite hrun).calme hu hinst
      refine ⟨es ++ [.tache .avance] ++ es', m',
        Execution.exec_append_eq_some.mpr ⟨_, hrun, hes'⟩, ?_, hcalme'⟩
      rw [hnow']
      show r.ideal.tache.maintenant + 1 = _
      rw [hnow]
      omega

/-- The program as it ships, started at nine, reaches ten. -/
theorem temps_passe_dix_heures :
    ∃ es m', Execution.exec (step .livree) (.depart 32400) es = some m' ∧
      m'.ideal.tache.maintenant = 36000 ∧ m'.calme = true :=
  temps_passe .livree 32400 (by decide) (by decide +kernel) _ ⟨[], rfl⟩ 3600

end Aquarium

end GestAqua
