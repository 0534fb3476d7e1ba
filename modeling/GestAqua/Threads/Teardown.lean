import GestAqua.Source.Profil
import GestAqua.Threads.Silence

/-!
The end of a profile, of its sun and of the timer of the sun.

`CProfil::Thread` asks its sun to stop and then calls `pthread_join` on its own
`thread_id`, which returns at once: the deletion of the sun waits for nothing. The
sun stops its timer with `CTimer::Stop`, which is without effect as long as the
thread of the timer has not set `m_bStarted`. `EnOrdre` asks for what the two calls
do not ensure. Each thread that makes calls is in one of five stages (`Stade`), and
`Place` tells where its program is in each.
-/

namespace GestAqua

namespace Pc

def debut : Pc → Bool
  | .initVerrou | .initPose | .initLibere | .entree | .prepare => true
  | _ => false

end Pc

/-! ### The stages of a thread -/

namespace Stade

variable {φ : Type} {e : Stade φ}

/-- Where the program of the thread is, at a stage of its calls. -/
def Place (pc : Pc) : Stade φ → Prop
  | .avant => pc.debut = true
  | .ouvre => pc = .prepare
  | .cours => pc.enCorps = true
  | .ferme _ => pc = .sortie
  | .rendu => pc.horsBoucle = true

theorem Place.mouvement {o o' : CThread} {k : ℕ} {f f' : Fil} {c : Choix} (h : e.Place f.pc)
    (hl : e.laisse f.pc = true) (hc : o.classe ≠ .cTimer) (hm : f.Mouvement o k c o' f') :
    e.Place f'.pc := by
  cases e with
  | rendu => exact hm.horsBoucle h
  | ouvre | ferme =>
      rw [show f.pc = _ from h] at hl
      cases hl
  | avant =>
      cases hm with
      | entreeGarde _ hc' | entreeTimer _ hc' => exact absurd hc' hc
      | initVerrou | initPose | initLibere | entreeAutre => rfl
      | prepareGarde hpc | prepare hpc =>
          rw [hpc] at hl
          cases hl
      | _ hpc =>
          rw [Place, hpc] at h
          cases h
  | cours =>
      cases hm with
      | sortieTimer hpc | sortieAutre hpc =>
          rw [hpc] at hl
          cases hl
      | initVerrou hpc | initPose hpc | initLibere hpc | entreeGarde hpc | entreeTimer hpc
      | entreeAutre hpc | finVerrou hpc | finPose hpc | finEcrit hpc | finLibere hpc
      | detruit hpc | termine hpc =>
          rw [Place, hpc] at h
          cases h
      | _ => rfl

/-- A thread that has ended has made its last call. -/
theorem Place.rendu_of_revenu {pc : Pc} (h : e.Place pc) (hpc : pc.revenu = true) :
    e = .rendu := by
  cases e with
  | rendu => rfl
  | ouvre | ferme =>
      rw [show pc = _ from h] at hpc
      cases hpc
  | avant | cours =>
      revert h hpc
      cases pc <;> simp [Place, Pc.debut, Pc.enCorps, Pc.revenu]

end Stade

/-! ### The steps of one object -/

namespace Systeme

variable {s s' : Systeme} {e : EvtThread} {p : ℕ}

theorem pc?_eq (s : Systeme) : s.pc? = s.pcs.head? := by
  simp [pc?, pcs]

theorem pcs_of_demande (he : e = .demande ∨ e = .suite) (h : s.step e = some s') :
    s'.pcs = s.pcs := by
  cases geste_of_step h with
  | demPose | stopEcrit => exact pcs_marque s
  | fil | start | startVain | create | pipe | sansPipe | pthreadCreate | sansFil | stopVain
  | stop => simp at he
  | _ => rfl

theorem not_poursuit_of_libre (ha : s.appel = .libre) (he : e.poursuit = true)
    (h : s.step e = some s') : False := by
  cases e <;> simp [EvtThread.poursuit, step, suite, ha] at he h

/-! ### A `Stop` in order -/

def Vivant (s : Systeme) : Prop := SansFil s ∨ ∃ p, UnFil p s

/-- A `Stop` issued after the thread has set `m_bStarted` is in progress or has
returned; the timer is joinable, so that its thread has left `Thread` by then. -/
def ArretTenu (s : Systeme) : Prop :=
  match s.appel with
  | .libre | .stopDetache => ∀ pc ∈ s.pcs, pc.revenu = true
  | .stopDrapeau | .stopEcrit | .stopTeste | .stopJoint => ∀ pc ∈ s.pcs, pc.demarre = true
  | _ => False

theorem UnFil.pcs (h : UnFil p s) : s.pcs = [s.fil.pc] := by
  rw [Systeme.pcs, h.unique]
  rfl

theorem SansFil.pcs (h : SansFil s) : s.pcs = [] := by
  rw [Systeme.pcs, h.fils]
  rfl

theorem Vivant.step (h : Vivant s) (hseul : s.UnSeulStart e) (hordre : s.StopEnOrdre e)
    (hs : s.step e = some s') : Vivant s' := by
  rcases h with h | ⟨p, h⟩
  · exact h.step hs
  · exact .inr ⟨p, h.step hseul hordre hs⟩

/-- A `Stop` that joins the thread is in order once the thread has begun. -/
theorem stopEnOrdre_of_demarre (hauto : s.objet.cAutoDelete = false)
    (hdetache : s.objet.cIsdetachstate = false)
    (hdem : e = .stop → ∀ pc ∈ s.pcs, pc.demarre = true) : s.StopEnOrdre e := by
  cases e with
  | stop => exact fun f hf => hdem rfl f.pc (List.mem_map_of_mem hf)
  | suite =>
      intro _ _ hlibre
      simp [hauto, hdetache] at hlibre
  | _ => trivial

theorem unSeulStart_of_poursuit (he : e.poursuit = true) : s.UnSeulStart e := by
  cases e with
  | start => cases he
  | _ => trivial

theorem ArretTenu.fil (h : ArretTenu s) {k : ℕ} {c : Choix} (hs : s.step (.fil k c) = some s') :
    ArretTenu s' := by
  cases geste_of_step hs with
  | @fil _ f f' _ o' hk hm =>
      have hf : f.pc ∈ s.pcs := List.mem_map_of_mem (List.mem_of_getElem? hk)
      have hall : ∀ P : Pc → Prop, (P f.pc → P f'.pc) → (∀ pc ∈ s.pcs, P pc) →
          ∀ pc ∈ (s.fils.set k f').map (·.pc), P pc := by
        intro P hP hpcs pc hpc
        obtain ⟨g, hg, rfl⟩ := List.mem_map.mp hpc
        rcases List.mem_or_eq_of_mem_set hg with hg | rfl
        · exact hpcs _ (List.mem_map_of_mem hg)
        · exact hP (hpcs _ hf)
      unfold ArretTenu at h ⊢
      split at h
      case h_1 ha | h_2 ha =>
        simp only [ha]
        exact hall _ hm.revenu h
      case h_3 ha | h_4 ha | h_5 ha | h_6 ha =>
        simp only [ha]
        exact hall _ hm.demarre h
      case h_7 => exact h.elim

theorem UnFil.revenu (h : UnFil p s) (hdem : ∀ pc ∈ s.pcs, pc.demarre = true)
    (hcorps : s.fil.pc.enCorps = false) : ∀ pc ∈ s.pcs, pc.revenu = true := by
  rw [h.pcs] at hdem ⊢
  intro pc hpc
  rw [List.mem_singleton] at hpc
  subst hpc
  exact Pc.revenu_of_demarre (hdem _ List.mem_cons_self) hcorps

theorem ArretTenu.poursuit (h : ArretTenu s) (hv : Vivant s)
    (hauto : s.objet.cAutoDelete = false) (hdetache : s.objet.cIsdetachstate = false)
    (he : e.poursuit = true) (hs : s.step e = some s') : ArretTenu s' := by
  rcases hv with hv | ⟨p, hv⟩
  · -- without a thread, `Stop` has returned at once
    exfalso
    have happel := hv.appel
    unfold ArretTenu at h
    rcases happel with ha | ⟨flag, ha⟩ | ⟨flag, q, ha, -⟩ | ha | ha | ha <;> rw [ha] at h
    · exact not_poursuit_of_libre ha he hs
    all_goals exact h
  · unfold ArretTenu at h
    cases geste_of_step hs with
    | fil | start | startVain | create | stopVain | stop | demande => cases he
    | pipe ha | sansPipe ha | pthreadCreate ha | sansFil ha | demPose ha | demEcrit ha
    | demLibere ha =>
        rw [ha] at h
        exact h.elim
    | stopFini ha hf =>
        rw [ha] at h
        refine hv.revenu h ?_
        rw [← Bool.not_eq_true]
        intro hcorps
        exact hv.arret (by simp [Pc.entreDrapeaux, hcorps]) hf
    | stopDrapeau ha | stopJoint ha =>
        rw [ha] at h
        exact h
    | stopFerme ha hp =>
        rw [ha] at h
        refine hv.revenu h ?_
        have hpc : s.fil.pc = .termine := by
          by_contra hpc
          rw [hv.surveille.iIdPipe_eq hpc] at hp
          cases hp
        rw [hpc]
        rfl
    | stopEcrit ha =>
        rw [ha] at h
        show ∀ pc ∈ s.marque.map (·.pc), pc.demarre = true
        rw [pcs_marque]
        exact h
    | stopLibre ha hj => exact absurd ⟨hauto, hdetache⟩ hj
    | joint ha hj =>
        rw [ha] at h
        have hpc : s.fil.pc = .termine := by simpa [Systeme.joint, hv.unique] using hj
        exact hv.revenu h (by rw [hpc]; rfl)
    | stopDetache ha =>
        rw [ha] at h
        exact h

theorem Vivant.arretTenu (hv : Vivant s) (hdem : ∀ pc ∈ s.pcs, pc.demarre = true)
    (hs : s.step .stop = some s') : ArretTenu s' := by
  cases geste_of_step hs with
  | stopVain ha hb =>
      show ∀ pc ∈ s.pcs, pc.revenu = true
      rcases hv with hv | ⟨p, hv⟩
      · simp [hv.pcs]
      · exact hv.revenu hdem (hv.started.symm.trans hb)
  | stop => exact hdem

end Systeme

namespace Montage

/-- The sun is deleted when its thread has ended and has stopped the timer, and no
callback of the timer begins once `CProfil::Thread` has returned. -/
def Demonte (d : Montage) : EvtMontage → Prop
  | .profil _ => d.stadeProfil = .ferme .supprime →
      (∀ pc ∈ d.soleil.pcs, pc = .termine) ∧ ∀ pc ∈ d.pwm.pcs, pc.revenu = true
  | .pwm _ => (∃ pc ∈ d.profil.pcs, pc.revenu = true) → ∀ pc ∈ d.pwm.pcs, pc ≠ .action
  | _ => True

/-- The thread of the sun has ended when the profile's `pthread_join` returns, and
the thread of the timer has set `m_bStarted` when the sun calls `iStop`. -/
def EnOrdre (d : Montage) : EvtMontage → Prop
  | .profil _ => d.stadeProfil = .ferme .joint → ∀ pc ∈ d.soleil.pcs, pc = .termine
  | .soleil _ => d.stadeSoleil = .cours → d.soleil.pc? = some .sortie →
      ∀ pc ∈ d.pwm.pcs, pc.demarre = true
  | _ => True

instance (d : Montage) : ∀ e, Decidable (d.Demonte e)
  | .profil _ => inferInstanceAs (Decidable (d.stadeProfil = .ferme .supprime →
      (∀ pc ∈ d.soleil.pcs, pc = .termine) ∧ ∀ pc ∈ d.pwm.pcs, pc.revenu = true))
  | .pwm _ => inferInstanceAs (Decidable ((∃ pc ∈ d.profil.pcs, pc.revenu = true) →
      ∀ pc ∈ d.pwm.pcs, pc ≠ .action))
  | .demande | .suiteDemande | .soleil _ | .gere _ | .appelSoleil _ | .appelPwm _ => isTrue trivial

instance (d : Montage) : ∀ e, Decidable (d.EnOrdre e)
  | .profil _ => inferInstanceAs (Decidable
      (d.stadeProfil = .ferme .joint → ∀ pc ∈ d.soleil.pcs, pc = .termine))
  | .soleil _ => inferInstanceAs (Decidable (d.stadeSoleil = .cours →
      d.soleil.pc? = some .sortie → ∀ pc ∈ d.pwm.pcs, pc.demarre = true))
  | .demande | .suiteDemande | .gere _ | .pwm _ | .appelSoleil _ | .appelPwm _ => isTrue trivial

/-! ### What a step does -/

theorem pc_of_not_laisse {φ : Type} {e : Stade φ} {pc : Pc} (h : e.laisse pc = false) :
    pc = .prepare ∨ pc = .sortie := by
  revert h
  cases pc <;> simp [Stade.laisse]

/-- Who moves, and at which stage. -/
inductive Passage (d : Montage) : EvtMontage → Montage → Prop
  | demande {s : Systeme} (h : d.profil.step .demande = some s) :
      Passage d .demande { d with profil := s }
  | suiteDemande {s : Systeme} (h : d.profil.step .suite = some s) :
      Passage d .suiteDemande { d with profil := s }
  | profil {c : Choix} {pc : Pc} {s : Systeme} (hpc : d.profil.pc? = some pc)
      (hl : d.stadeProfil.laisse pc = true) (h : d.profil.step (.fil 0 c) = some s) :
      Passage d (.profil c) { d with profil := s }
  | suiteProfil {pc : Pc} {d' : Montage} (hpc : d.profil.pc? = some pc)
      (hl : d.stadeProfil.laisse pc = false) (h : d.suiteProfil = some d') :
      Passage d (.profil .suite) d'
  | soleil {c : Choix} {pc : Pc} {s : Systeme} (hpc : d.soleil.pc? = some pc) (hne : pc ≠ .action)
      (hl : d.stadeSoleil.laisse pc = true) (h : d.soleil.step (.fil 0 c) = some s) :
      Passage d (.soleil c) { d with soleil := s }
  | suiteSoleil {pc : Pc} {d' : Montage} (hpc : d.soleil.pc? = some pc)
      (hl : d.stadeSoleil.laisse pc = false) (h : d.suiteSoleil = some d') :
      Passage d (.soleil .suite) d'
  | gere {s : Systeme} (hpc : d.soleil.pc? = some .action) (h : d.soleil.step .pas = some s) :
      Passage d (.gere none) { d with soleil := s }
  | gereSegment {usec : ℕ} {s : Systeme} (hpc : d.soleil.pc? = some .action)
      (h : d.soleil.step .pas = some s) :
      Passage d (.gere (some usec)) (setDuree { d with soleil := s } usec)
  | pwm {c : Choix} {s : Systeme} (h : d.pwm.step (.fil 0 c) = some s) :
      Passage d (.pwm c) { d with pwm := s }
  | appelSoleil {e : EvtThread} {s : Systeme} (hp : e.poursuit = true)
      (h : d.soleil.step e = some s) : Passage d (.appelSoleil e) { d with soleil := s }
  | appelPwm {e : EvtThread} {s : Systeme} (hp : e.poursuit = true) (h : d.pwm.step e = some s) :
      Passage d (.appelPwm e) { d with pwm := s }

theorem passage_of_step {d d' : Montage} {e : EvtMontage} (hs : d.step e = some d') :
    Passage d e d' := by
  cases e <;> simp only [Montage.step] at hs
  case demande =>
    obtain ⟨s, h, rfl⟩ := Option.map_eq_some_iff.mp hs
    exact .demande h
  case suiteDemande =>
    obtain ⟨s, h, rfl⟩ := Option.map_eq_some_iff.mp hs
    exact .suiteDemande h
  case profil c =>
    split at hs
    · cases hs
    · rename_i pc hpc
      split at hs
      · obtain ⟨s, h, rfl⟩ := Option.map_eq_some_iff.mp hs
        exact .profil hpc ‹_› h
      · split at hs
        · rename_i hl hc
          rw [hc]
          exact .suiteProfil hpc (by simpa using hl) hs
        · cases hs
  case soleil c =>
    split at hs
    · cases hs
    · cases hs
    · rename_i pc hne hpc
      split at hs
      · obtain ⟨s, h, rfl⟩ := Option.map_eq_some_iff.mp hs
        exact .soleil hpc hne ‹_› h
      · split at hs
        · rename_i hl hc
          rw [hc]
          exact .suiteSoleil hpc (by simpa using hl) hs
        · cases hs
  case gere usec =>
    split at hs
    · obtain ⟨s, h, rfl⟩ := Option.map_eq_some_iff.mp hs
      cases usec with
      | none => exact .gere ‹_› h
      | some usec => exact .gereSegment ‹_› h
    · cases hs
  case pwm c =>
    obtain ⟨s, h, rfl⟩ := Option.map_eq_some_iff.mp hs
    exact .pwm h
  case appelSoleil e =>
    split at hs
    · obtain ⟨s, h, rfl⟩ := Option.map_eq_some_iff.mp hs
      exact .appelSoleil ‹_› h
    · cases hs
  case appelPwm e =>
    split at hs
    · obtain ⟨s, h, rfl⟩ := Option.map_eq_some_iff.mp hs
      exact .appelPwm ‹_› h
    · cases hs

/-- Each of them is possible. -/
theorem step_of_passage {d d' : Montage} {e : EvtMontage} (h : Passage d e d') :
    d.step e = some d' := by
  cases h with
  | demande h | suiteDemande h | pwm h => simp [Montage.step, h]
  | profil hpc hl h | suiteProfil hpc hl h => simp [Montage.step, hpc, hl, h]
  | soleil hpc _ hl h => simp [Montage.step, hpc, hl, h]
  | suiteSoleil hpc hl h =>
      rcases pc_of_not_laisse hl with rfl | rfl <;> simp [Montage.step, hpc, hl, h]
  | gere hpc h | gereSegment hpc h => simp [Montage.step, hpc, h]
  | appelSoleil hp h | appelPwm hp h => simp [Montage.step, hp, h]

/-! ### The invariant -/

def SoleilTenu (soleil : Systeme) (pSoleil : Bool) : Stade Demontage → Prop
  | .avant => soleil.appel = .libre ∧ soleil.pcs = []
  | .ouvre => pSoleil = true ∧ (soleil.appel = .libre ∨ soleil.pcs = [] ∧
      ∃ flag, soleil.appel = .pipe flag ∨ soleil.appel = .pthreadCreate flag)
  | .cours => soleil.appel = .libre ∧ (pSoleil = false → soleil.pcs = [])
  | .ferme .demande => soleil.appel = .libre ∨ soleil.appel = .demPose ∨
      soleil.appel = .demEcrit ∨ soleil.appel = .demLibere
  | .ferme .joint => soleil.appel = .libre
  | .ferme .drapeau | .ferme .ecrit | .ferme .attend => False
  | .ferme .teste | .ferme .supprime | .ferme .libere | .rendu =>
    soleil.appel = .libre ∧ ∀ pc ∈ soleil.pcs, pc = .termine

def PwmTenu (pwm : Systeme) : Stade Unit → Prop
  | .avant => pwm.appel = .libre ∧ pwm.pcs = []
  | .ouvre => True
  | .cours => pwm.appel = .libre
  | .ferme _ => pwm.ArretTenu
  | .rendu => pwm.appel = .libre ∧ pwm.ArretTenu

def Situe {φ : Type} (pcs : List Pc) (e : Stade φ) : Prop :=
  pcs = [] ∧ e = .avant ∨ ∃ pc, pcs = [pc] ∧ e.Place pc

structure Inv (d : Montage) : Prop where
  profil : ∃ pc, d.profil.pcs = [pc] ∧ d.stadeProfil.Place pc
  natureProfil : d.profil.objet.classe = .cProfil
  soleil : Situe d.soleil.pcs d.stadeSoleil
  natureSoleil : d.soleil.Nature = (.cSoleil, false, false)
  naturePwm : d.pwm.Nature = (.cTimer, false, false)
  tenu : SoleilTenu d.soleil d.pSoleil d.stadeProfil
  pwm : PwmTenu d.pwm d.stadeSoleil
  vivant : d.stadeProfil = .rendu ∨ d.pwm.Vivant

variable {d d' : Montage} {e : EvtMontage}

theorem Inv.lance (arretProfil arretSoleil arretPwm p : ℕ) (ucValide : Bool) (usec : ℕ) :
    Inv (lance arretProfil arretSoleil arretPwm p ucValide usec) where
  profil := ⟨_, rfl, rfl⟩
  natureProfil := rfl
  soleil := .inl ⟨rfl, rfl⟩
  natureSoleil := rfl
  naturePwm := rfl
  tenu := ⟨rfl, rfl⟩
  pwm := ⟨rfl, rfl⟩
  vivant := .inr (.inl (Systeme.SansFil.neuf arretPwm false false))

/-- The sun has ended at the last stages of the profile's thread. -/
theorem Inv.soleil_rendu (h : Inv d) (htermine : ∀ pc ∈ d.soleil.pcs, pc = .termine) :
    d.pwm.appel = .libre ∧ ∀ pc ∈ d.pwm.pcs, pc.revenu = true := by
  have hpwm := h.pwm
  rcases h.soleil with ⟨-, he⟩ | ⟨pc, hpc, hplace⟩
  · rw [he] at hpwm
    obtain ⟨ha, hpcs⟩ := hpwm
    simp [ha, hpcs]
  · obtain rfl := htermine pc (by rw [hpc]; exact List.mem_singleton_self _)
    rw [hplace.rendu_of_revenu rfl] at hpwm
    obtain ⟨ha, hten⟩ := hpwm
    rw [Systeme.ArretTenu, ha] at hten
    exact ⟨ha, hten⟩

/-- The timer of a sun that has ended is stopped. -/
theorem Inv.pwm_arrete (h : Inv d) (hv : d.pwm.Vivant)
    (htermine : ∀ pc ∈ d.soleil.pcs, pc = .termine) : d.pwm.objet.timer.bStarted = false := by
  obtain ⟨-, hrev⟩ := h.soleil_rendu htermine
  rcases hv with hv | ⟨p, hv⟩
  · exact hv.started
  · rw [hv.pcs] at hrev
    rw [hv.started]
    exact Pc.not_enCorps_of_revenu (hrev _ (List.mem_singleton_self _))

theorem Inv.soleil_nature (h : Inv d) : d.soleil.objet.classe ≠ .cTimer ∧
    d.soleil.objet.cAutoDelete = false ∧ d.soleil.objet.cIsdetachstate = false := by
  obtain ⟨hclasse, hauto, hdetache⟩ : _ ∧ _ ∧ _ := by
    simpa only [Systeme.Nature, Prod.mk.injEq] using h.natureSoleil
  exact ⟨by rw [hclasse]; decide, hauto, hdetache⟩

theorem Inv.pwm_nature (h : Inv d) :
    d.pwm.objet.cAutoDelete = false ∧ d.pwm.objet.cIsdetachstate = false := by
  have hnature := h.naturePwm
  simp only [Systeme.Nature, Prod.mk.injEq] at hnature
  exact hnature.2

/-- The sun moves only at the stages that say nothing of where it is. -/
theorem SoleilTenu.mouvement {soleil s : Systeme} {pSoleil : Bool} {e : Stade Demontage} {pc : Pc}
    (h : SoleilTenu soleil pSoleil e) (hpcs : soleil.pcs = [pc]) (hpc : pc ≠ .termine)
    (ha : s.appel = soleil.appel) : SoleilTenu s pSoleil e := by
  have htermine : ¬ ∀ q ∈ soleil.pcs, q = .termine := by simp [hpcs, hpc]
  unfold SoleilTenu at h ⊢
  split <;> simp only [ha] at h ⊢
  case h_1 => simp [hpcs] at h
  case h_2 => exact ⟨h.1, .inl (h.2.resolve_right fun hcon => by simp [hpcs] at hcon)⟩
  case h_3 =>
    refine ⟨h.1, fun hp => ?_⟩
    have hnil := h.2 hp
    simp [hpcs] at hnil
  case h_4 | h_5 => exact h
  case h_9 | h_10 | h_11 | h_12 => exact absurd h.2 htermine

/-! ### The steps -/

theorem Inv.avecProfil (h : Inv d) {s : Systeme} (hs : s.objet.classe = d.profil.objet.classe)
    (hpcs : ∃ pc, s.pcs = [pc] ∧ d.stadeProfil.Place pc) : Inv { d with profil := s } :=
  { h with
    profil := hpcs
    natureProfil := hs.trans h.natureProfil }

theorem classe_of_step {s s' : Systeme} {e : EvtThread} (h : s.step e = some s') :
    s'.objet.classe = s.objet.classe :=
  congrArg Prod.fst (Systeme.nature_of_step h)

theorem pcs_of_sansPipe {s s' : Systeme} (hpc : s.pcs = [.prepare]) (hp : s.objet.iIdPipe = none)
    (h : s.step .pas = some s') : s'.pcs = [.sortie] ∧ s'.appel = s.appel := by
  obtain ⟨f, f', o', hf, -, hm, rfl⟩ := Systeme.mouvement_of_step hpc h
  cases hm with
  | prepareGarde => exact ⟨rfl, rfl⟩
  | prepare _ q hq =>
      rw [hp] at hq
      cases hq
  | _ hpc' =>
      rw [hpc'] at hf
      cases hf

theorem Inv.suiteFermeture (h : Inv d) (hpc : d.profil.pcs = [.sortie]) {phase : Demontage}
    (he : d.stadeProfil = .ferme phase)
    (hord : phase = .joint → ∀ pc ∈ d.soleil.pcs, pc = .termine)
    (hs : d.suiteProfil = some d') : Inv d' := by
  have htenu := h.tenu
  have hv := h.vivant.resolve_left (by simp [he])
  obtain ⟨-, hauto, hdetache⟩ := h.soleil_nature
  rw [he] at htenu
  unfold Montage.suiteProfil at hs
  cases phase <;> simp only [he] at hs
  case demande =>
    split at hs
    · cases hs
      rw [hdetache]
      exact { h with
        profil := ⟨_, hpc, rfl⟩
        tenu := ‹_›
        vivant := .inr hv }
    · cases hs
  case joint =>
    cases hs
    exact { h with
      profil := ⟨_, hpc, rfl⟩
      tenu := ⟨htenu, hord rfl⟩
      vivant := .inr hv }
  case teste =>
    cases hs
    rw [hauto]
    exact { h with
      profil := ⟨_, hpc, rfl⟩
      tenu := htenu
      vivant := .inr hv }
  case supprime =>
    cases hs
    -- the timer has been stopped, so `~CTimer` does not call `Stop`
    rw [h.pwm_arrete hv htenu.2]
    exact { h with
      profil := ⟨_, hpc, rfl⟩
      tenu := htenu
      vivant := .inr hv }
  case drapeau | ecrit | attend => exact htenu.elim
  case libere =>
    cases hs
    exact { h with
      profil := ⟨_, hpc, rfl⟩
      tenu := htenu
      vivant := .inl rfl }

theorem Inv.suiteProfil (h : Inv d) {pc : Pc} (hpc : d.profil.pcs = [pc])
    (hplace : d.stadeProfil.Place pc) (hl : d.stadeProfil.laisse pc = false)
    (hord : d.stadeProfil = .ferme .joint → ∀ pc ∈ d.soleil.pcs, pc = .termine)
    (hs : d.suiteProfil = some d') : Inv d' := by
  have htenu := h.tenu
  have hvivant := h.vivant
  unfold Montage.suiteProfil at hs
  cases he : d.stadeProfil with
  | rendu => simp [he] at hs
  | avant =>
      rw [he] at hplace hl htenu hvivant
      have hv := hvivant.resolve_left nofun
      obtain rfl : pc = .prepare :=
        (pc_of_not_laisse hl).resolve_right fun hcon => by rw [hcon] at hplace; cases hplace
      simp only [he] at hs
      split at hs
      · obtain ⟨s, hstep, rfl⟩ := Option.map_eq_some_iff.mp hs
        obtain ⟨hpcs, -⟩ := pcs_of_sansPipe hpc ‹_› hstep
        exact { h with
          profil := ⟨_, hpcs, rfl⟩
          natureProfil := (classe_of_step hstep).trans h.natureProfil
          tenu := ⟨htenu.1, by simp [htenu.2]⟩
          vivant := .inl rfl }
      · split at hs
        · obtain ⟨s, hstep, rfl⟩ := Option.map_eq_some_iff.mp hs
          cases Systeme.geste_of_step hstep
          exact { h with
            profil := ⟨_, hpc, rfl⟩
            tenu := ⟨rfl, .inr ⟨htenu.2, 0, .inl rfl⟩⟩
            vivant := .inr hv }
        · cases hs
          exact { h with
            profil := ⟨_, hpc, rfl⟩
            tenu := ⟨htenu.1, fun _ => htenu.2⟩
            vivant := .inr hv }
  | ouvre =>
      rw [he] at hplace htenu hvivant
      simp only [he] at hs
      split at hs
      · cases hs
        obtain rfl : pc = .prepare := hplace
        exact { h with
          profil := ⟨_, hpc, rfl⟩
          tenu := ⟨‹_›, fun hcon => absurd (htenu.1.symm.trans hcon) nofun⟩
          vivant := .inr (hvivant.resolve_left nofun) }
      · cases hs
  | cours =>
      rw [he] at hplace hl htenu hvivant
      obtain rfl : pc = .sortie :=
        (pc_of_not_laisse hl).resolve_left fun hcon => by rw [hcon] at hl; cases hl
      simp only [he] at hs
      split at hs
      · obtain ⟨s, hstep, rfl⟩ := Option.map_eq_some_iff.mp hs
        cases Systeme.geste_of_step hstep
        exact { h with
          profil := ⟨_, hpc, rfl⟩
          tenu := .inr (.inl rfl)
          vivant := .inr (hvivant.resolve_left nofun) }
      · rename_i hp
        rw [Bool.not_eq_true] at hp
        cases hs
        exact { h with
          profil := ⟨_, hpc, rfl⟩
          tenu := ⟨htenu.1, by simp [htenu.2 hp]⟩
          vivant := .inl rfl }
  | ferme phase =>
      rw [he] at hplace
      obtain rfl : pc = .sortie := hplace
      exact h.suiteFermeture hpc he (fun hphase => hord (he.trans (congrArg _ hphase))) hs

theorem Inv.suiteSoleil (h : Inv d) {pc : Pc} (hpc : d.soleil.pcs = [pc])
    (hplace : d.stadeSoleil.Place pc) (hl : d.stadeSoleil.laisse pc = false)
    (hord : d.stadeSoleil = .cours → pc = .sortie → ∀ pc ∈ d.pwm.pcs, pc.demarre = true)
    (hs : d.suiteSoleil = some d') : Inv d' := by
  have hpwm := h.pwm
  obtain ⟨hauto, hdetache⟩ := h.pwm_nature
  have hne : pc ≠ .termine := by
    rintro rfl
    rcases pc_of_not_laisse hl with hcon | hcon <;> cases hcon
  -- the profile's thread is not done, since the sun has not ended
  have hv : d.pwm.Vivant := by
    refine h.vivant.resolve_left fun hr => hne ?_
    have htenu := h.tenu
    rw [hr] at htenu
    exact htenu.2 pc (by rw [hpc]; exact List.mem_singleton_self _)
  unfold Montage.suiteSoleil at hs
  cases he : d.stadeSoleil with
  | rendu => simp [he] at hs
  | avant =>
      rw [he] at hplace hl hpwm
      obtain rfl : pc = .prepare :=
        (pc_of_not_laisse hl).resolve_right fun hcon => by rw [hcon] at hplace; cases hplace
      simp only [he] at hs
      split at hs
      · obtain ⟨s, hstep, rfl⟩ := Option.map_eq_some_iff.mp hs
        obtain ⟨hpcs, ha⟩ := pcs_of_sansPipe hpc ‹_› hstep
        exact { h with
          soleil := .inr ⟨_, hpcs, rfl⟩
          natureSoleil := (Systeme.nature_of_step hstep).trans h.natureSoleil
          tenu := h.tenu.mouvement hpc nofun ha
          pwm := ⟨hpwm.1, by simp [Systeme.ArretTenu, hpwm.1, hpwm.2]⟩ }
      · obtain ⟨s, hstep, rfl⟩ := Option.map_eq_some_iff.mp hs
        have hseul : d.pwm.fils = [] := List.map_eq_nil_iff.mp hpwm.2
        exact { h with
          soleil := .inr ⟨_, hpc, rfl⟩
          naturePwm := (Systeme.nature_of_step hstep).trans h.naturePwm
          pwm := trivial
          vivant := .inr (hv.step (e := .start _ _) hseul trivial hstep) }
  | ouvre =>
      rw [he] at hplace
      obtain rfl : pc = .prepare := hplace
      simp only [he] at hs
      split at hs
      · cases hs
        exact { h with
          soleil := .inr ⟨_, hpc, rfl⟩
          pwm := ‹_› }
      · cases hs
  | cours =>
      rw [he] at hplace hl hord
      obtain rfl : pc = .sortie :=
        (pc_of_not_laisse hl).resolve_left fun hcon => by rw [hcon] at hl; cases hl
      simp only [he] at hs
      obtain ⟨s, hstep, rfl⟩ := Option.map_eq_some_iff.mp hs
      have hdem := hord rfl rfl
      exact { h with
        soleil := .inr ⟨_, hpc, rfl⟩
        naturePwm := (Systeme.nature_of_step hstep).trans h.naturePwm
        pwm := hv.arretTenu hdem hstep
        vivant := .inr (hv.step (e := .stop) trivial
          (Systeme.stopEnOrdre_of_demarre hauto hdetache fun _ => hdem) hstep) }
  | ferme phase =>
      rw [he] at hplace hpwm
      obtain rfl : pc = .sortie := hplace
      simp only [he] at hs
      split at hs
      · cases hs
        exact { h with
          soleil := .inr ⟨_, hpc, rfl⟩
          pwm := ⟨‹_›, hpwm⟩ }
      · cases hs

theorem Inv.mouvementSoleil (h : Inv d) {pc : Pc} (hpc : d.soleil.pcs = [pc])
    (hplace : d.stadeSoleil.Place pc) (hl : d.stadeSoleil.laisse pc = true) {c : Choix}
    {s : Systeme} (hs : d.soleil.step (.fil 0 c) = some s) : Inv { d with soleil := s } := by
  obtain ⟨f, f', o', rfl, -, hm, rfl⟩ := Systeme.mouvement_of_step hpc hs
  have hne : f.pc ≠ .termine := by
    intro hcon
    cases hm <;> simp_all
  exact { h with
    soleil := .inr ⟨_, rfl, hplace.mouvement hl h.soleil_nature.1 hm⟩
    natureSoleil := (Systeme.nature_of_step hs).trans h.natureSoleil
    tenu := h.tenu.mouvement hpc hne rfl }

theorem Inv.setDuree (h : Inv d) (usec : ℕ) : Inv (d.setDuree usec) := by
  refine { h with vivant := h.vivant.imp_right fun hv => ?_ }
  rcases hv with hv | ⟨p, hv⟩
  · exact .inl ⟨hv.fils, hv.classe, hv.started, hv.silence, hv.appel⟩
  · exact .inr ⟨p, hv.unique, hv.classe, hv.surveille.congr rfl, hv.started, hv.arret, hv.stop,
      hv.silence⟩

theorem Inv.mouvementPwm (h : Inv d) {c : Choix} {s : Systeme}
    (hs : d.pwm.step (.fil 0 c) = some s) : Inv { d with pwm := s } := by
  have hpwm := h.pwm
  refine { h with
    naturePwm := (Systeme.nature_of_step hs).trans h.naturePwm
    pwm := ?_
    vivant := h.vivant.imp_right fun hv => hv.step (e := .fil 0 c) trivial trivial hs }
  have happel : s.appel = d.pwm.appel := by
    cases Systeme.geste_of_step hs
    rfl
  show PwmTenu s d.stadeSoleil
  cases he : d.stadeSoleil <;> rw [he] at hpwm
  case avant =>
    have hnil : d.pwm.fils = [] := List.map_eq_nil_iff.mp hpwm.2
    simp [Systeme.step, hnil] at hs
  case ouvre => trivial
  case cours => exact happel.trans hpwm
  case ferme => exact hpwm.fil hs
  case rendu => exact ⟨happel.trans hpwm.1, hpwm.2.fil hs⟩

theorem creation_of_step {s s' : Systeme} {e : EvtThread} {flag : ℕ} (hpcs : s.pcs = [])
    (ha : s.appel = .pipe flag ∨ s.appel = .pthreadCreate flag) (hp : e.poursuit = true)
    (hs : s.step e = some s') :
    s'.pcs = [] ∧ (s'.appel = .libre ∨ s'.appel = .pthreadCreate flag) ∨
      s'.pcs = [.initVerrou] ∧ s'.appel = .libre := by
  have hfils : s.fils = [] := List.map_eq_nil_iff.mp hpcs
  cases Systeme.geste_of_step hs with
  | pipe ha' =>
      rcases ha with ha | ha <;> rw [ha] at ha' <;> cases ha'
      exact .inl ⟨hpcs, .inr rfl⟩
  | sansPipe | sansFil => exact .inl ⟨hpcs, .inl rfl⟩
  | pthreadCreate => exact .inr ⟨by simp [Systeme.pcs, hfils, Fil.cree], rfl⟩
  | fil | start | startVain | create | stopVain | stop | demande => cases hp
  | stopFini ha' | stopDrapeau ha' | stopFerme ha' | stopEcrit ha' | stopJoint ha' | stopLibre ha'
  | joint ha' | stopDetache ha' | demPose ha' | demEcrit ha' | demLibere ha' =>
      rw [ha'] at ha
      rcases ha with ha | ha <;> cases ha

theorem demande_of_step {s s' : Systeme} {e : EvtThread}
    (ha : s.appel = .demPose ∨ s.appel = .demEcrit ∨ s.appel = .demLibere)
    (hp : e.poursuit = true) (hs : s.step e = some s') : s'.pcs = s.pcs ∧
      (s'.appel = .libre ∨ s'.appel = .demPose ∨ s'.appel = .demEcrit ∨ s'.appel = .demLibere) := by
  cases Systeme.geste_of_step hs with
  | demPose => exact ⟨Systeme.pcs_marque s, .inr (.inr (.inl rfl))⟩
  | demEcrit => exact ⟨rfl, .inr (.inr (.inr rfl))⟩
  | demLibere => exact ⟨rfl, .inl rfl⟩
  | fil | start | startVain | create | stopVain | stop | demande => cases hp
  | pipe ha' | sansPipe ha' | pthreadCreate ha' | sansFil ha' | stopFini ha' | stopDrapeau ha'
  | stopFerme ha' | stopEcrit ha' | stopJoint ha' | stopLibre ha' | joint ha' | stopDetache ha' =>
      rw [ha'] at ha
      rcases ha with ha | ha | ha <;> cases ha

theorem Inv.appelSoleil (h : Inv d) {e : EvtThread} (hp : e.poursuit = true) {s : Systeme}
    (hs : d.soleil.step e = some s) : Inv { d with soleil := s } := by
  have htenu := h.tenu
  have hlibre : d.soleil.appel ≠ .libre := fun ha => Systeme.not_poursuit_of_libre ha hp hs
  have hnature := (Systeme.nature_of_step hs).trans h.natureSoleil
  unfold SoleilTenu at htenu
  split at htenu
  case h_2 he =>
      obtain ⟨hset, hcreate⟩ := htenu
      obtain ⟨hpcs, flag, ha⟩ := hcreate.resolve_left hlibre
      have havant : d.stadeSoleil = .avant := by
        rcases h.soleil with ⟨-, havant⟩ | ⟨pc, hpc, -⟩
        · exact havant
        · rw [hpcs] at hpc
          cases hpc
      rcases creation_of_step hpcs ha hp hs with ⟨hnil, ha⟩ | ⟨hcree, ha⟩
      · exact { h with
          soleil := .inl ⟨hnil, havant⟩
          natureSoleil := hnature
          tenu := by
            rw [he]
            exact ⟨hset, ha.imp_right fun ha => ⟨hnil, flag, .inr ha⟩⟩ }
      · exact { h with
          soleil := .inr ⟨_, hcree, by rw [havant]; rfl⟩
          natureSoleil := hnature
          tenu := by
            rw [he]
            exact ⟨hset, .inl ha⟩ }
  case h_4 he =>
      obtain ⟨hpcs, ha⟩ := demande_of_step (htenu.resolve_left hlibre) hp hs
      exact { h with
        soleil := by
          show Situe s.pcs d.stadeSoleil
          rw [hpcs]
          exact h.soleil
        natureSoleil := hnature
        tenu := by
          rw [he]
          exact ha }
  case h_5 => exact absurd htenu hlibre
  case h_6 | h_7 | h_8 => exact htenu.elim
  all_goals exact absurd htenu.1 hlibre

theorem Inv.appelPwm (h : Inv d) {e : EvtThread} (hp : e.poursuit = true) {s : Systeme}
    (hs : d.pwm.step e = some s) : Inv { d with pwm := s } := by
  have hpwm := h.pwm
  obtain ⟨hauto, hdetache⟩ := h.pwm_nature
  have hlibre : d.pwm.appel ≠ .libre := fun ha => Systeme.not_poursuit_of_libre ha hp hs
  have hv : d.pwm.Vivant := by
    refine h.vivant.resolve_left fun hr => hlibre ?_
    have htenu := h.tenu
    rw [hr] at htenu
    exact (h.soleil_rendu htenu.2).1
  refine { h with
    naturePwm := (Systeme.nature_of_step hs).trans h.naturePwm
    pwm := ?_
    vivant := .inr (hv.step (Systeme.unSeulStart_of_poursuit hp)
      (Systeme.stopEnOrdre_of_demarre hauto hdetache fun he => by rw [he] at hp; cases hp) hs) }
  show PwmTenu s d.stadeSoleil
  cases he : d.stadeSoleil <;> rw [he] at hpwm
  case avant => exact absurd hpwm.1 hlibre
  case ouvre => trivial
  case cours => exact absurd hpwm hlibre
  case ferme => exact hpwm.poursuit hv hauto hdetache hp hs
  case rendu => exact absurd hpwm.1 hlibre

theorem Inv.soleil_pcs (h : Inv d) {pc : Pc} (hpc : d.soleil.pc? = some pc) :
    d.soleil.pcs = [pc] ∧ d.stadeSoleil.Place pc := by
  rw [Systeme.pc?_eq] at hpc
  rcases h.soleil with ⟨hnil, -⟩ | ⟨q, hq, hplace⟩
  · rw [hnil] at hpc
    cases hpc
  · rw [hq] at hpc
    obtain rfl := Option.some.inj hpc
    exact ⟨hq, hplace⟩

theorem Inv.profil_pcs (h : Inv d) {pc : Pc} (hpc : d.profil.pc? = some pc) :
    d.profil.pcs = [pc] ∧ d.stadeProfil.Place pc := by
  obtain ⟨q, hq, hplace⟩ := h.profil
  rw [Systeme.pc?_eq, hq] at hpc
  obtain rfl := Option.some.inj hpc
  exact ⟨hq, hplace⟩

theorem Inv.step (h : Inv d) (hord : d.EnOrdre e) (hs : d.step e = some d') : Inv d' := by
  cases passage_of_step hs with
  | demande hstep | suiteDemande hstep =>
      obtain ⟨pc, hpc, hplace⟩ := h.profil
      refine h.avecProfil (classe_of_step hstep) ⟨pc, ?_, hplace⟩
      exact (Systeme.pcs_of_demande (by simp) hstep).trans hpc
  | profil hpc hl hstep =>
      obtain ⟨hpcs, hplace⟩ := h.profil_pcs hpc
      refine h.avecProfil (classe_of_step hstep) ?_
      obtain ⟨f, f', o', rfl, -, hm, rfl⟩ := Systeme.mouvement_of_step hpcs hstep
      exact ⟨_, rfl, hplace.mouvement hl (by rw [h.natureProfil]; decide) hm⟩
  | suiteProfil hpc hl hd =>
      obtain ⟨hpcs, hplace⟩ := h.profil_pcs hpc
      exact h.suiteProfil hpcs hplace hl hord hd
  | soleil hpc _ hl hstep =>
      obtain ⟨hpcs, hplace⟩ := h.soleil_pcs hpc
      exact h.mouvementSoleil hpcs hplace hl hstep
  | suiteSoleil hpc hl hd =>
      obtain ⟨hpcs, hplace⟩ := h.soleil_pcs hpc
      refine h.suiteSoleil hpcs hplace hl (fun hcours hsortie => ?_) hd
      exact hord hcours (by rw [hpc, hsortie])
  | gere hpc hstep =>
      obtain ⟨hpcs, hplace⟩ := h.soleil_pcs hpc
      exact h.mouvementSoleil hpcs hplace rfl hstep
  | gereSegment hpc hstep =>
      obtain ⟨hpcs, hplace⟩ := h.soleil_pcs hpc
      exact (h.mouvementSoleil hpcs hplace rfl hstep).setDuree _
  | pwm hstep => exact h.mouvementPwm hstep
  | appelSoleil hp hstep => exact h.appelSoleil hp hstep
  | appelPwm hp hstep => exact h.appelPwm hp hstep

theorem Inv.demonte (h : Inv d) (e : EvtMontage) : d.Demonte e := by
  have htenu := h.tenu
  cases e with
  | profil c =>
      intro he
      rw [he] at htenu
      exact ⟨htenu.2, (h.soleil_rendu htenu.2).2⟩
  | pwm c =>
      rintro ⟨pc, hmem, hrev⟩ q hq rfl
      obtain ⟨pc', hpc, hplace⟩ := h.profil
      rw [hpc, List.mem_singleton] at hmem
      subst hmem
      rw [hplace.rendu_of_revenu hrev] at htenu
      cases (h.soleil_rendu htenu.2).2 _ hq
  | _ => trivial

/-- A profile is stopped at any time: when its `pthread_join` finds the sun ended, and
`iStop` finds the timer begun, the sun is deleted after the last access of its thread
and no callback of the timer follows the return of `CProfil::Thread`. -/
theorem demontage_en_ordre (arretProfil arretSoleil arretPwm p : ℕ) (ucValide : Bool)
    (usec : ℕ) (es : List EvtMontage) (d : Montage)
    (h : Execution.exec step (lance arretProfil arretSoleil arretPwm p ucValide usec) es = some d)
    (hord : Execution.Meets step EnOrdre
      (lance arretProfil arretSoleil arretPwm p ucValide usec) es) :
    Execution.Meets step Demonte (lance arretProfil arretSoleil arretPwm p ucValide usec) es :=
  Execution.meets_of_guarded (I := Inv) (fun _ _ _ h hord hs => h.step hord hs)
    (fun _ e _ h _ _ => h.demonte e) (Inv.lance arretProfil arretSoleil arretPwm p ucValide usec)
    hord h

/-- The sun wakes, stops its timer and ends before the profile's `pthread_join`. -/
theorem demontage_en_ordre_attendu :
    Execution.Meets step Demonte (lance 7 7 7 3 true 10)
      (([.profil .suite, .profil .suite, .profil .suite, .profil .suite, .profil .suite,
        .appelSoleil (.pipe (some 5)), .appelSoleil (.pthreadCreate true), .profil .suite,
        .profil .suite] : List EvtMontage) ++
      List.replicate 5 (EvtMontage.soleil .suite) ++
      ([.appelPwm (.pipe (some 7)), .appelPwm (.pthreadCreate true)] : List EvtMontage) ++
      List.replicate 5 (EvtMontage.soleil .suite) ++ List.replicate 8 (EvtMontage.pwm .suite) ++
      ([.demande, .suiteDemande, .suiteDemande, .suiteDemande, .profil .suite, .profil .suite,
        .appelSoleil .suite, .appelSoleil .suite, .appelSoleil .suite, .profil .suite,
        .soleil .lisible, .soleil .suite, .soleil .suite, .appelPwm .suite, .appelPwm .suite,
        .appelPwm .suite, .pwm .lisible] : List EvtMontage) ++
      List.replicate 7 (EvtMontage.pwm .suite) ++
      ([.appelPwm .suite, .appelPwm .suite] : List EvtMontage) ++
      List.replicate 7 (EvtMontage.soleil .suite) ++
      List.replicate 5 (EvtMontage.profil .suite)) :=
  demontage_en_ordre 7 7 7 3 true 10 _ _ (Option.some_get (by decide)).symm (by decide)

/-- The profile is stopped before the thread of its sun has run: `pthread_join`
returns at once, and the sun is deleted under its thread. -/
theorem soleil_supprime_vivant :
    ¬ Execution.Meets step Demonte (lance 0 0 0 3 true 10)
      [.profil .suite, .profil .suite, .profil .suite, .profil .suite, .profil .suite,
        .appelSoleil (.pipe (some 5)), .appelSoleil (.pthreadCreate true), .profil .suite,
        .profil .suite, .demande, .suiteDemande, .suiteDemande, .suiteDemande, .profil .suite,
        .profil .suite, .appelSoleil .suite, .appelSoleil .suite, .appelSoleil .suite,
        .profil .suite, .profil .suite, .profil .suite, .profil .suite] := by
  decide

/-! ### What the profile's `pthread_join` lets happen -/

/-- The end of `CProfil::Thread` goes on by itself from its `pthread_join`. -/
theorem Inv.step_joint (h : Inv d) (he : d.stadeProfil = .ferme .joint) :
    Execution.exec Montage.step d [.profil .suite, .profil .suite] =
      some { d with stadeProfil := .ferme .supprime } := by
  obtain ⟨pc, hpc, hplace⟩ := h.profil
  rw [he] at hplace
  obtain rfl : pc = .sortie := hplace
  have hpc? : d.profil.pc? = some .sortie := by simp [Systeme.pc?_eq, hpc]
  obtain ⟨-, hauto, -⟩ := h.soleil_nature
  simp [Execution.exec, Montage.step, Montage.suiteProfil, hpc?, he, Stade.laisse, hauto]

/-- After a `pthread_join` that returns before the sun has ended, the profile's thread
can go on to the deletion. -/
theorem Inv.joint_hors_ordre (h : Inv d) (he : d.stadeProfil = .ferme .joint)
    (hsoleil : ¬ ∀ pc ∈ d.soleil.pcs, pc = .termine) :
    ¬ Execution.Meets Montage.step Demonte d [.profil .suite, .profil .suite, .profil .suite] := by
  intro hm
  have hexec := h.step_joint he
  obtain ⟨t, ht, hexec⟩ := Execution.exec_cons_eq_some.mp hexec
  obtain ⟨u, hu, hexec⟩ := Execution.exec_cons_eq_some.mp hexec
  obtain rfl := Option.some.inj hexec
  have hm := ((Execution.meets_cons_of_step ht).mp hm).2
  have hm := ((Execution.meets_cons_of_step hu).mp hm).2
  exact hsoleil (hm.1 rfl).1

end Montage

end GestAqua
