import GestAqua.Threads.Watch

/-!
`SetArretThread (1)` on a running thread.

The request travels on two channels. The stop flag may be wiped by the
`SetArretThread (0)` of a thread that starts late, and then the pipe holds the
request before the first `select`; a thread whose `select` has already timed out
does not look at the pipe, and then the flag holds it. `Recue` says that one of
the two always does.
-/

namespace GestAqua

/-- The thread is inside `SetArretThread`, with the mutex. -/
def Pc.enSection : Pc → Bool
  | .initPose | .initLibere | .finPose | .finEcrit | .finLibere => true
  | _ => false

/-- The actions begun and the one whose test of the stop flag has been passed. -/
def Fil.engages (f : Fil) : ℕ := f.rappels + if f.pc = .action then 1 else 0

namespace Fil.Mouvement

variable {o o' : CThread} {k : ℕ} {f f' : Fil} {c : Choix}

/-- A thread takes the mutex when it enters `SetArretThread` and releases it when it
leaves; its other steps leave the mutex alone. -/
theorem mutex_cases (h : f.Mouvement o k c o' f') :
    (o.mutex = none ∧ o'.mutex = some (.fil k) ∧ f.pc.enSection = false ∧
        f'.pc.enSection = true) ∨
      (o'.mutex = none ∧ f.pc.enSection = true ∧ f'.pc.enSection = false) ∨
      (o'.mutex = o.mutex ∧ f'.pc.enSection = f.pc.enSection) := by
  cases h with
  | initVerrou hpc hm | finVerrou hpc hm => exact .inl ⟨hm, rfl, by rw [hpc]; rfl, rfl⟩
  | initLibere hpc | finLibere hpc => exact .inr (.inl ⟨rfl, by rw [hpc]; rfl, rfl⟩)
  | _ hpc => exact .inr (.inr ⟨rfl, by rw [hpc]; rfl⟩)

theorem mutex_of_enSection (h : f.Mouvement o k c o' f') (hsec : f'.pc.enSection = true) :
    o'.mutex = some (.fil k) ∨ f.pc.enSection = true ∧ o'.mutex = o.mutex := by
  rcases h.mutex_cases with ⟨-, hm, -⟩ | ⟨-, -, hout⟩ | ⟨hm, heq⟩
  · exact .inl hm
  · rw [hout] at hsec
    cases hsec
  · exact .inr ⟨heq ▸ hsec, hm⟩

theorem mutex_of_not_enSection (h : f.Mouvement o k c o' f') (hsec : f.pc.enSection = false) :
    o'.mutex = o.mutex ∨ o.mutex = none := by
  rcases h.mutex_cases with ⟨hm, -⟩ | ⟨-, hin, -⟩ | ⟨hm, -⟩
  · exact .inr hm
  · rw [hsec] at hin
    cases hin
  · exact .inl hm

/-- Only a test of the stop flag that finds it clear engages an action. -/
theorem engages_eq (h : f.Mouvement o k c o' f') :
    f.pc = .expire ∧ o.mutex = none ∧ o.arretThread = 0 ∨
      f'.pc ≠ .action ∧ f'.engages = f.engages := by
  cases h with
  | agit hpc hm ha => exact .inl ⟨hpc, hm, ha⟩
  | _ hpc => exact .inr ⟨by simp [Fil.quitte], by simp [Fil.engages, Fil.quitte, hpc]⟩

end Fil.Mouvement

namespace Systeme

/-- `Create()` has just returned success: the object has a pipe, and the thread is
its only one. -/
def lance (o : CThread) (p uiFlag : ℕ) : Systeme where
  objet := { o with iIdPipe := some p, mutex := none }
  fils := [.cree uiFlag]
  appel := .libre
  avant := false
  silence := false

/-- The steps of the thread, and of an owner that calls `SetArretThread (1)`. -/
def stepDemande (s : Systeme) : EvtThread → Option Systeme
  | .fil k c => s.step (.fil k c)
  | .demande => s.step .demande
  | .suite => s.step .suite
  | _ => none

theorem lance_of_create {classe : Classe} (hc : classe ≠ .cTimer) (arret p : ℕ)
    (auto detache : Bool) :
    Execution.exec step (neuf classe arret auto detache)
        [.create, .pipe (some p), .pthreadCreate true] =
      some (lance { CThread.construit classe arret auto detache with ouverts := [p] } p 0) := by
  simp [Execution.exec, step, neuf, CThread.construit, lance, hc]

theorem lance_of_start (arret p flag : ℕ) {usec : ℕ} (hu : usec ≠ 0) (auto detache : Bool) :
    Execution.exec step (neuf .cTimer arret auto detache)
        [.start usec flag, .pipe (some p), .pthreadCreate true] =
      some (lance { CThread.construit .cTimer arret auto detache with
        timer := ⟨false, usec, some (), flag⟩, ouverts := [p] } p flag) := by
  simp [Execution.exec, step, neuf, CThread.construit, lance, CTimer.start, CTimer.init, hu]

/-! ### One thread and a requesting owner -/

/-- One thread, on the pipe of the object, and the mutex held by the side that is
inside `SetArretThread`. -/
structure Seul (p : ℕ) (s : Systeme) : Prop where
  unique : s.fils = [s.fil]
  surveille : s.fil.Surveille s.objet p
  appel : s.appel = .libre ∨ s.appel = .demPose ∨ s.appel = .demEcrit ∨ s.appel = .demLibere
  proprietaire : s.appel ≠ .libre → s.objet.mutex = some .proprietaire
  enSection : s.fil.pc.enSection = true → s.objet.mutex = some (.fil 0)

variable {p : ℕ} {s s' : Systeme} {e : EvtThread}

theorem Seul.lance (o : CThread) (p uiFlag : ℕ) : Seul p (lance o p uiFlag) where
  unique := rfl
  surveille := rfl
  appel := .inl rfl
  proprietaire h := absurd rfl h
  enSection h := by cases h

theorem Seul.geste (h : Seul p s) (hs : s.stepDemande e = some s') :
    (∃ c o' f', e = .fil 0 c ∧ s.fil.Mouvement s.objet 0 c o' f' ∧
      s' = { s with objet := o', fils := [f'] }) ∨
    (e = .demande ∧ s.appel = .libre ∧ s.objet.mutex = none ∧
      s' = { s with
        objet := { s.objet with mutex := some .proprietaire }
        appel := .demPose }) ∨
    (e = .suite ∧ s.appel = .demPose ∧
      s' = { s with
        objet := { s.objet with arretThread := 1 }
        fils := [{ s.fil with demande := true }]
        appel := .demEcrit }) ∨
    (e = .suite ∧ s.appel = .demEcrit ∧
      s' = { s with objet := s.objet.ecrit, appel := .demLibere }) ∨
    (e = .suite ∧ s.appel = .demLibere ∧
      s' = { s with objet := { s.objet with mutex := none }, appel := .libre }) := by
  cases e with
  | start | create | stop | pipe | pthreadCreate => cases hs
  | fil k c =>
      have hs : s.step (.fil k c) = some s' := hs
      cases geste_of_step hs with
      | fil hk hm =>
          rw [h.unique] at hk ⊢
          obtain ⟨rfl, rfl⟩ := getElem?_seul hk
          exact .inl ⟨c, _, _, rfl, hm, rfl⟩
  | demande =>
      have hs : s.step .demande = some s' := hs
      cases geste_of_step hs with
      | demande ha hm => exact .inr (.inl ⟨rfl, ha, hm, rfl⟩)
  | suite =>
      have hs : s.step .suite = some s' := hs
      cases geste_of_step hs with
      | demPose ha =>
          refine .inr (.inr (.inl ⟨rfl, ha, ?_⟩))
          rw [marque, h.unique]
          rfl
      | demEcrit ha => exact .inr (.inr (.inr (.inl ⟨rfl, ha, rfl⟩)))
      | demLibere ha => exact .inr (.inr (.inr (.inr ⟨rfl, ha, rfl⟩)))
      | stopFini ha | stopDrapeau ha | stopFerme ha | stopEcrit ha | stopJoint ha | stopLibre ha
      | joint ha | stopDetache ha =>
          have happel := h.appel
          rw [ha] at happel
          simp at happel

theorem Seul.not_enSection (h : Seul p s) (hm : s.objet.mutex ≠ some (.fil 0)) :
    s.fil.pc.enSection = false := by
  rw [← Bool.not_eq_true]
  exact fun hsec => hm (h.enSection hsec)

theorem Seul.horsSection (h : Seul p s) (ha : s.appel ≠ .libre) :
    s.fil.pc.enSection = false :=
  h.not_enSection (by simp [h.proprietaire ha])

theorem Seul.step (h : Seul p s) (hs : s.stepDemande e = some s') : Seul p s' := by
  rcases h.geste hs with ⟨c, o', f', -, hm, rfl⟩ | ⟨-, ha, hm, rfl⟩ | ⟨-, ha, rfl⟩ | ⟨-, ha, rfl⟩ |
    ⟨-, ha, rfl⟩
  · refine ⟨rfl, h.surveille.mouvement hm, h.appel, fun ha => ?_, fun hsec => ?_⟩
    · have hown := h.proprietaire ha
      rcases hm.mutex_of_not_enSection (h.horsSection ha) with hmut | hmut
      · exact hmut.trans hown
      · rw [hown] at hmut
        cases hmut
    · rcases hm.mutex_of_enSection hsec with hmut | ⟨hsec, hmut⟩
      · exact hmut
      · exact hmut.trans (h.enSection hsec)
  · have hsec := h.not_enSection (by simp [hm])
    exact ⟨h.unique, h.surveille.congr rfl, .inr (.inl rfl), fun _ => rfl,
      fun hcon => absurd (hsec.symm.trans hcon) Bool.false_ne_true⟩
  · have hm := h.proprietaire (by simp [ha])
    have hsec := h.horsSection (by simp [ha])
    exact ⟨rfl, h.surveille, .inr (.inr (.inl rfl)), fun _ => hm,
      fun hcon => absurd (hsec.symm.trans hcon) Bool.false_ne_true⟩
  · have hm := h.proprietaire (by simp [ha])
    have hsec := h.horsSection (by simp [ha])
    exact ⟨h.unique, h.surveille.congr rfl, .inr (.inr (.inr rfl)), fun _ => hm,
      fun hcon => absurd (hsec.symm.trans hcon) Bool.false_ne_true⟩
  · have hm := h.proprietaire (by simp [ha])
    have hsec := h.horsSection (by simp [ha])
    exact ⟨h.unique, h.surveille.congr rfl, .inl rfl, fun hne => absurd rfl hne,
      fun hcon => absurd (hsec.symm.trans hcon) Bool.false_ne_true⟩

/-! ### The request -/

/-- The thread has left the loop, or one of the two channels holds the request: the
pipe is readable, and the stop flag is up if the thread is past its `select`. -/
def Recue (p : ℕ) (s : Systeme) : Prop :=
  s.fil.pc.horsBoucle = true ∨
    p ∈ s.objet.lisibles ∧ (s.fil.pc = .expire → s.objet.arretThread ≠ 0)

/-- The request has been received, or the call that makes it is in progress. -/
def EnCours (p : ℕ) (s : Systeme) : Prop :=
  s.appel = .demPose ∨ s.appel = .demEcrit ∧ s.objet.arretThread ≠ 0 ∨ Recue p s

/-- Nobody empties a pipe, and the stop flag is cleared before the loop only. -/
theorem Recue.mouvement (h : Seul p s) (hr : Recue p s) {c : Choix} {o' : CThread} {f' : Fil}
    (hm : s.fil.Mouvement s.objet 0 c o' f') :
    Recue p { s with objet := o', fils := [f'] } := by
  rcases hr with hout | ⟨hread, -⟩
  · exact .inl (hm.horsBoucle hout)
  · have hexpire : f'.pc ≠ .expire := by
      cases hm with
      | expire hpc hp =>
          rw [(h.surveille.pret_iff hpc).mpr hread] at hp
          cases hp
      | _ => simp [Fil.quitte]
    exact .inr ⟨hm.lisibles hread, fun hcon => absurd hcon hexpire⟩

theorem Recue.step (h : Seul p s) (hr : Recue p s) (hs : s.stepDemande e = some s') :
    Recue p s' := by
  rcases h.geste hs with ⟨c, o', f', -, hm, rfl⟩ | ⟨-, -, -, rfl⟩ | ⟨-, -, rfl⟩ | ⟨-, -, rfl⟩ |
    ⟨-, -, rfl⟩
  · exact hr.mouvement h hm
  · exact hr
  · exact hr.imp_right fun hr => ⟨hr.1, fun _ => Nat.one_ne_zero⟩
  · exact hr.imp_right fun hr => ⟨List.mem_append_right _ hr.1, hr.2⟩
  · exact hr

theorem EnCours.step (h : Seul p s) (hr : EnCours p s) (hs : s.stepDemande e = some s') :
    EnCours p s' := by
  rcases hr with ha | ⟨ha, hflag⟩ | hr
  · rcases h.geste hs with ⟨c, o', f', -, -, rfl⟩ | ⟨-, -, -, rfl⟩ | ⟨-, -, rfl⟩ | ⟨-, ha', -⟩ |
      ⟨-, ha', -⟩
    · exact .inl ha
    · exact .inl rfl
    · exact .inr (.inl ⟨rfl, Nat.one_ne_zero⟩)
    all_goals
      rw [ha] at ha'
      cases ha'
  · rcases h.geste hs with ⟨c, o', f', -, hm, rfl⟩ | ⟨-, ha', -⟩ | ⟨-, ha', -⟩ | ⟨-, -, rfl⟩ |
      ⟨-, ha', -⟩
    · -- the owner holds the mutex, so the thread does not write the flag
      have hsec := h.horsSection (by simp [ha])
      refine .inr (.inl ⟨ha, ?_⟩)
      cases hm with
      | initPose hpc | finPose hpc =>
          rw [hpc] at hsec
          cases hsec
      | _ => exact hflag
    case inr.inr.inr.inl =>
      refine .inr (.inr ?_)
      exact h.surveille.ecrit.imp_right fun hread => ⟨hread, fun _ => hflag⟩
    all_goals
      rw [ha] at ha'
      cases ha'
  · exact .inr (.inr (hr.step h hs))

/-- Once the call has returned the request has been received. -/
theorem EnCours.recue (hr : EnCours p s) (ha : s.appel = .libre) : Recue p s := by
  rcases hr with ha' | ⟨ha', -⟩ | hr
  · rw [ha] at ha'
    cases ha'
  · rw [ha] at ha'
    cases ha'
  · exact hr

/-- From the call on, no test of the stop flag finds it clear after a timeout. -/
theorem EnCours.engages (h : Seul p s) (hr : EnCours p s) (hs : s.stepDemande e = some s') :
    (s'.fil.pc = .action → s.fil.pc = .action) ∧ s'.fil.engages = s.fil.engages := by
  rcases h.geste hs with ⟨c, o', f', -, hm, rfl⟩ | ⟨-, ha, -, rfl⟩ | ⟨-, ha, rfl⟩ | ⟨-, ha, rfl⟩ |
    ⟨-, ha, rfl⟩
  · rcases hm.engages_eq with ⟨hpc, hmut, hflag⟩ | ⟨hpc, heng⟩
    · exfalso
      have hfree : s.appel ≠ .libre → False := by
        intro ha
        rw [h.proprietaire ha] at hmut
        cases hmut
      rcases hr with ha | ⟨ha, -⟩ | hout | ⟨-, hup⟩
      · exact hfree (by simp [ha])
      · exact hfree (by simp [ha])
      · rw [hpc] at hout
        cases hout
      · exact hup hpc hflag
    · exact ⟨fun hcon => absurd hcon hpc, heng⟩
  all_goals exact ⟨id, rfl⟩

/-! ### Leaving the loop -/

/-- From here the thread never enters the body of the loop and begins no action:
its next step, which is enabled, leaves the loop, and so does every later one. -/
def QuitteLaBoucle (t : Systeme) : Prop :=
  (∃ v, t.stepDemande (.fil 0 .suite) = some v) ∧
    ∀ es u, Execution.exec stepDemande t es = some u →
      u.fil.entrees = t.fil.entrees ∧ u.fil.rappels = t.fil.rappels ∧
        ∀ c v, u.stepDemande (.fil 0 c) = some v → v.fil.pc.horsBoucle = true

structure EnSortie (p entrees rappels : ℕ) (s : Systeme) : Prop where
  seul : Seul p s
  pc : s.fil.pc = .lisible ∨ s.fil.pc.horsBoucle = true
  entrees_eq : s.fil.entrees = entrees
  rappels_eq : s.fil.rappels = rappels

theorem EnSortie.mouvement {en ra : ℕ} (h : EnSortie p en ra s) {c : Choix} {o' : CThread}
    {f' : Fil} (hm : s.fil.Mouvement s.objet 0 c o' f') :
    f'.pc.horsBoucle = true ∧ f'.entrees = en ∧ f'.rappels = ra := by
  rcases h.pc with hpc | hout
  · cases hm with
    | quitte => exact ⟨rfl, h.entrees_eq, h.rappels_eq⟩
    | ignore _ hp =>
        obtain ⟨q, hq, hmem⟩ := h.seul.surveille.not_ignore hpc
        exact absurd hmem (hp q hq)
    | _ hpc' =>
        rw [hpc] at hpc'
        cases hpc'
  · refine ⟨hm.horsBoucle hout, ?_⟩
    cases hm with
    | entre hpc | action hpc =>
        rw [hpc] at hout
        cases hout
    | _ => exact ⟨h.entrees_eq, h.rappels_eq⟩

theorem EnSortie.step {en ra : ℕ} (h : EnSortie p en ra s) (hs : s.stepDemande e = some s') :
    EnSortie p en ra s' := by
  have hseul := h.seul.step hs
  rcases h.seul.geste hs with ⟨c, o', f', -, hm, rfl⟩ | ⟨-, -, -, rfl⟩ | ⟨-, -, rfl⟩ |
    ⟨-, -, rfl⟩ | ⟨-, -, rfl⟩
  · obtain ⟨hout, hen, hra⟩ := h.mouvement hm
    exact ⟨hseul, .inr hout, hen, hra⟩
  all_goals exact ⟨hseul, h.pc, h.entrees_eq, h.rappels_eq⟩

theorem EnSortie.quitte {en ra : ℕ} (h : EnSortie p en ra s)
    (hpc : s.fil.pc = .lisible ∨ s.fil.pc = .sortie) : QuitteLaBoucle s := by
  constructor
  · have hk : s.fils[0]? = some s.fil := by
      rw [h.seul.unique]
      rfl
    rcases hpc with hpc | hpc <;> simp only [stepDemande, Systeme.step, hk, Fil.step, hpc] <;>
      split <;> exact ⟨_, rfl⟩
  · intro es u hu
    have hI : EnSortie p en ra u :=
      Execution.exec_invariant (fun _ _ _ hs => hs.step) h hu
    refine ⟨hI.entrees_eq.trans h.entrees_eq.symm, hI.rappels_eq.trans h.rappels_eq.symm, ?_⟩
    intro c v hv
    rcases hI.seul.geste hv with ⟨c, o', f', -, hm, rfl⟩ | ⟨hcon, -⟩ | ⟨hcon, -⟩ | ⟨hcon, -⟩ |
      ⟨hcon, -⟩
    · exact (hI.mouvement hm).1
    all_goals cases hcon

/-- A `select` that returns after the request has been received, other than
interrupted, is the end of the loop. -/
theorem Recue.quitte (h : Seul p s) (hr : Recue p s) {c : Choix} (hc : c ≠ .interrompu)
    (hpc : s.fil.pc = .attend) (hs : s.stepDemande (.fil 0 c) = some s') : QuitteLaBoucle s' := by
  have hseul := h.step hs
  rcases h.geste hs with ⟨c, o', f', heq, hm, rfl⟩ | ⟨hcon, -⟩ | ⟨hcon, -⟩ | ⟨hcon, -⟩ | ⟨hcon, -⟩
  · obtain rfl := (EvtThread.fil.inj heq).2
    cases hm with
    | lisible => exact EnSortie.quitte ⟨hseul, .inl rfl, rfl, rfl⟩ (.inl rfl)
    | erreur => exact EnSortie.quitte ⟨hseul, .inr rfl, rfl, rfl⟩ (.inr rfl)
    | interrompu => exact absurd rfl hc
    | expire _ hp =>
        rcases hr with hout | ⟨hread, -⟩
        · rw [hpc] at hout
          cases hout
        · rw [(h.surveille.pret_iff hpc).mpr hread] at hp
          cases hp
    | _ hpc' =>
        rw [hpc] at hpc'
        cases hpc'
  all_goals cases hcon

/-- `SetArretThread (1)`, called in a state `s₀` that is reached at any time after
`Create()` returned success, and returned in `s₂`. No action begins afterwards but
the one whose test of the stop flag had been passed when the call was made, and the
first `select` that returns, other than interrupted, ends the loop. -/
theorem demande_tenue (o : CThread) (p uiFlag : ℕ) {es₀ es₁ : List EvtThread}
    {s₀ s₁ s₂ : Systeme} (h₀ : Execution.exec stepDemande (lance o p uiFlag) es₀ = some s₀)
    (hd : s₀.stepDemande .demande = some s₁) (h₁ : Execution.exec stepDemande s₁ es₁ = some s₂)
    (hr : s₂.appel = .libre) :
    (s₂.fil.pc = .action → s₀.fil.pc = .action) ∧
      (∀ es s, Execution.exec stepDemande s₂ es = some s →
        s.fil.rappels ≤ s₂.fil.rappels + if s₂.fil.pc = .action then 1 else 0) ∧
      ∀ es s, Execution.exec stepDemande s₂ es = some s → s.fil.pc = .attend →
        ∀ c t, c ≠ .interrompu → s.stepDemande (.fil 0 c) = some t → QuitteLaBoucle t := by
  have hseul₀ : Seul p s₀ :=
    Execution.exec_invariant (fun _ _ _ hs => hs.step) (Seul.lance o p uiFlag) h₀
  have hcours₁ : EnCours p s₁ ∧ s₁.fil = s₀.fil := by
    rcases hseul₀.geste hd with ⟨c, o', f', hcon, -⟩ | ⟨-, -, -, rfl⟩ | ⟨hcon, -⟩ | ⟨hcon, -⟩ |
      ⟨hcon, -⟩
    · cases hcon
    · exact ⟨.inl rfl, rfl⟩
    all_goals cases hcon
  let I : ℕ → Systeme → Systeme → Prop := fun n r s => Seul p s ∧ EnCours p s ∧
    (s.fil.pc = .action → r.fil.pc = .action) ∧ s.fil.engages = n
  have hI : ∀ {n r s es t}, I n r s → Execution.exec stepDemande s es = some t → I n r t := by
    intro n r s es t hs
    apply Execution.exec_invariant (I := I n r) _ hs
    intro s e t ⟨hseul, hcours, hpc, hn⟩ hstep
    obtain ⟨hpc', hn'⟩ := hcours.engages hseul hstep
    exact ⟨hseul.step hstep, hcours.step hseul hstep, fun ht => hpc (hpc' ht), hn'.trans hn⟩
  obtain ⟨hseul₂, hcours₂, hpc₂, -⟩ : I s₁.fil.engages s₁ s₂ :=
    hI ⟨hseul₀.step hd, hcours₁.1, id, rfl⟩ h₁
  refine ⟨fun h => hcours₁.2 ▸ hpc₂ h, fun es s hs => ?_, fun es s hs hpc c t hc ht => ?_⟩
  · obtain ⟨-, -, -, hn⟩ : I s₂.fil.engages s₂ s := hI ⟨hseul₂, hcours₂, id, rfl⟩ hs
    exact Nat.le_of_add_right_le (Nat.le_of_eq hn)
  · obtain ⟨hseul, hrecue⟩ : Seul p s ∧ Recue p s :=
      Execution.exec_invariant (I := fun s => Seul p s ∧ Recue p s)
        (fun _ _ _ h hs => ⟨h.1.step hs, h.2.step h.1 hs⟩) ⟨hseul₂, hcours₂.recue hr⟩ hs
    exact hrecue.quitte hseul hc hpc ht

/-- A request made before the new thread has taken its first step. -/
theorem demande_avant_demarrage :
    let s₀ := lance (.construit .cSoleil 0 false false) 3 0
    let s₂ := (Execution.exec stepDemande s₀ [.demande, .suite, .suite, .suite]).get (by decide)
    (s₂.fil.pc = .action → s₀.fil.pc = .action) ∧
      (∀ es s, Execution.exec stepDemande s₂ es = some s →
        s.fil.rappels ≤ s₂.fil.rappels + if s₂.fil.pc = .action then 1 else 0) ∧
      ∀ es s, Execution.exec stepDemande s₂ es = some s → s.fil.pc = .attend →
        ∀ c t, c ≠ .interrompu → s.stepDemande (.fil 0 c) = some t → QuitteLaBoucle t :=
  demande_tenue (.construit .cSoleil 0 false false) 3 0 (Execution.exec_nil _)
    (Option.some_get (by decide)).symm (Option.some_get (by decide)).symm (by decide)

end Systeme

end GestAqua
