import GestAqua.Threads.Regular
import GestAqua.Threads.SelfDelete
import GestAqua.Threads.Teardown

/-!
The teardown of a profile comes to its end.

`EnOrdre` makes two threads wait: the profile's for the end of the sun, and the sun's for
the beginning of its timer. Whatever has happened before, nobody then waits for ever: a
thread that waits for its pipe has been told, and one that waits for a mutex or for another
thread waits for a thread that can go on. `restant` counts what is left to do, and as long
as the profile has not ended, some step in order lowers it.
-/

namespace GestAqua

namespace Stade

/-- What the profile's thread has before it, the calls on the sun included. -/
def poidsProfil : Stade Demontage → ℕ
  | .avant => 16
  | .ouvre => 13
  | .cours => 12
  | .ferme .demande => 8
  | .ferme .joint => 7
  | .ferme .teste => 6
  | .ferme .supprime => 5
  | .ferme .drapeau => 4
  | .ferme .ecrit => 3
  | .ferme .attend => 2
  | .ferme .libere => 1
  | .rendu => 0

/-- The same of the sun's thread and its timer. -/
def poidsSoleil : Stade Unit → ℕ
  | .avant => 11
  | .ouvre => 8
  | .cours => 7
  | .ferme _ => 1
  | .rendu => 0

theorem poidsProfil_le (e : Stade Demontage) : e.poidsProfil ≤ 16 := by
  rcases e with _ | _ | _ | phase | _
  case ferme => cases phase <;> decide
  all_goals decide

theorem poidsSoleil_le (e : Stade Unit) : e.poidsSoleil ≤ 11 := by
  cases e <;> simp [poidsSoleil]

end Stade

namespace Systeme

variable {s s' : Systeme} {e : EvtThread}

/-- An auto-delete object is deleted by the time its thread has ended. -/
structure Efface (s : Systeme) : Prop where
  auto : s.objet.cAutoDelete = true
  detruit : ∀ pc ∈ s.pcs, pc = .termine → s.objet.detruit = true

theorem Efface.step (h : s.Efface) (hr : Regulier s) (hs : s.step e = some s') : s'.Efface := by
  refine ⟨(congrArg (·.2.1) (nature_of_step hs)).trans h.auto, ?_⟩
  cases geste_of_step hs with
  | fil hk hm =>
      rcases hr.fils with hnil | ⟨f, p, hf, -⟩
      · rw [hnil] at hk
        cases hk
      · rw [hf] at hk ⊢
        obtain ⟨rfl, rfl⟩ := getElem?_seul hk
        intro pc hpc hfin
        obtain rfl := List.mem_singleton.mp hpc
        rcases Duo.mouvement_detruit hm h.auto with ⟨-, hd, -⟩ | ⟨-, -, hne⟩
        · exact hd
        · exact absurd hfin hne
  | pthreadCreate ha =>
      intro pc hpc hfin
      have hnil := hr.creation ⟨_, .inr ha⟩
      simp only [pcs, hnil, List.nil_append, List.map_singleton, List.mem_singleton] at hpc
      rw [hpc] at hfin
      cases hfin
  | stopEcrit | demPose =>
      intro pc hpc
      exact h.detruit pc (pcs_marque s ▸ hpc)
  | _ => exact h.detruit

end Systeme

namespace Montage

variable {d d' : Montage} {e : EvtMontage}

/-- The three objects can go on, and the sun has been asked to stop when the profile's thread
is in its last call. -/
structure Vif (d : Montage) : Prop where
  inv : Inv d
  profil : d.profil.Regulier
  seule : d.profil.SeuleDemande
  efface : d.profil.Efface
  sansSoleil : d.stadeProfil = .avant ∨ d.stadeProfil = .rendu → d.pSoleil = false
  reguliers : d.stadeProfil = .rendu ∨ d.soleil.Regulier ∧ d.pwm.Regulier
  appele : ∀ phase, d.stadeProfil = .ferme phase → d.soleil.Appele

theorem Vif.lance (arretProfil arretSoleil arretPwm p : ℕ) (ucValide : Bool) (usec : ℕ) :
    Vif (lance arretProfil arretSoleil arretPwm p ucValide usec) where
  inv := .lance arretProfil arretSoleil arretPwm p ucValide usec
  profil := ⟨.inr ⟨_, p, rfl, rfl⟩, fun h => absurd rfl h, by simp [Montage.lance, Systeme.neuf],
    by simp [Montage.lance, Systeme.neuf], by simp [Montage.lance, Systeme.neuf]⟩
  seule := .inl rfl
  efface := ⟨rfl, by simp [Montage.lance, Systeme.pcs, Fil.cree]⟩
  sansSoleil _ := rfl
  reguliers := .inr ⟨.neuf .cSoleil arretSoleil false false, .neuf .cTimer arretPwm false false⟩
  appele := nofun

theorem Vif.actifs (h : Vif d) (he : d.stadeProfil ≠ .rendu) :
    d.soleil.Regulier ∧ d.pwm.Regulier :=
  h.reguliers.resolve_left he

/-! ### The steps -/

theorem Vif.avecProfil (h : Vif d) {e : EvtThread} {s : Systeme}
    (he : Systeme.SansAutreAppel e) (hs : d.profil.step e = some s)
    (hinv : Inv { d with profil := s }) : Vif { d with profil := s } :=
  { h with
    inv := hinv
    profil := h.profil.step he.seulCreate hs
    seule := h.seule.step he hs
    efface := h.efface.step h.profil hs }

theorem Vif.soleilAppele (h : Vif d) {e : EvtThread} {s : Systeme}
    (he : Systeme.SansAutreAppel e) (hs : d.soleil.step e = some s) :
    ∀ phase, d.stadeProfil = .ferme phase → s.Appele := by
  intro phase hphase
  have hr := h.actifs (by simp [hphase])
  exact (h.appele phase hphase).step hr.1 he hs

theorem Vif.avecSoleil (h : Vif d) {e : EvtThread} {s : Systeme}
    (he : Systeme.SansAutreAppel e) (hs : d.soleil.step e = some s)
    (hinv : Inv { d with soleil := s }) : Vif { d with soleil := s } :=
  { h with
    inv := hinv
    reguliers := h.reguliers.imp_right (And.imp_left fun hr => hr.step he.seulCreate hs)
    appele := h.soleilAppele he hs }

theorem Vif.avecPwm (h : Vif d) {e : EvtThread} {s : Systeme} (he : d.pwm.SeulCreate e)
    (hs : d.pwm.step e = some s) (hinv : Inv { d with pwm := s }) : Vif { d with pwm := s } :=
  { h with
    inv := hinv
    reguliers := h.reguliers.imp_right (And.imp_right fun hr => hr.step he hs) }

theorem Vif.setDuree (h : Vif d) (usec : ℕ) : Vif (d.setDuree usec) :=
  { h with
    inv := h.inv.setDuree usec
    reguliers := h.reguliers.imp_right (And.imp_right fun hr =>
      ⟨hr.fils, hr.detenu, hr.creation, hr.pipe, hr.ecrit⟩) }

theorem Vif.suiteProfil (h : Vif d) (hinv : Inv d') (hs : d.suiteProfil = some d') :
    Vif d' := by
  have htenu := h.inv.tenu
  obtain ⟨-, hauto, -⟩ := h.inv.soleil_nature
  unfold Montage.suiteProfil at hs
  cases he : d.stadeProfil with
  | rendu => simp [he] at hs
  | avant =>
      rw [he] at htenu
      have hr := h.actifs (by simp [he])
      simp only [he] at hs
      split at hs
      · obtain ⟨s, hstep, rfl⟩ := Option.map_eq_some_iff.mp hs
        exact { h with
          inv := hinv
          profil := h.profil.step (e := .pas) trivial hstep
          seule := h.seule.step (e := .pas) trivial hstep
          efface := h.efface.step h.profil hstep
          sansSoleil := fun _ => h.sansSoleil (.inl he)
          reguliers := .inl rfl
          appele := nofun }
      · split at hs
        · obtain ⟨s, hstep, rfl⟩ := Option.map_eq_some_iff.mp hs
          have hnil : d.soleil.fils = [] := List.map_eq_nil_iff.mp htenu.2
          exact { h with
            inv := hinv
            sansSoleil := by simp
            reguliers := .inr ⟨hr.1.step (e := .create) hnil hstep, hr.2⟩
            appele := nofun }
        · cases hs
          exact { h with
            inv := hinv
            sansSoleil := by simp
            reguliers := .inr hr
            appele := nofun }
  | ouvre =>
      simp only [he] at hs
      split at hs
      · cases hs
        exact { h with
          inv := hinv
          sansSoleil := by simp
          reguliers := .inr (h.actifs (by simp [he]))
          appele := nofun }
      · cases hs
  | cours =>
      have hr := h.actifs (by simp [he])
      simp only [he] at hs
      split at hs
      · obtain ⟨s, hstep, rfl⟩ := Option.map_eq_some_iff.mp hs
        exact { h with
          inv := hinv
          sansSoleil := by simp
          reguliers := .inr ⟨hr.1.step (e := .demande) trivial hstep, hr.2⟩
          appele := fun _ _ => Systeme.appele_of_demande hstep }
      · cases hs
        exact { h with
          inv := hinv
          sansSoleil := fun _ => by simpa using ‹¬ d.pSoleil = true›
          reguliers := .inl rfl
          appele := nofun }
  | ferme phase =>
      have hr := h.actifs (by simp [he])
      have hap := h.appele phase he
      rw [he] at htenu
      cases phase <;> simp only [he] at hs
      case drapeau | ecrit | attend => exact htenu.elim
      case demande =>
        split at hs
        · cases hs
          refine { h with inv := hinv, sansSoleil := ?_, reguliers := .inr hr, appele := ?_ }
          · split <;> simp
          · exact fun _ _ => hap
        · cases hs
      case joint =>
        cases hs
        exact { h with
          inv := hinv, sansSoleil := by simp, reguliers := .inr hr, appele := fun _ _ => hap }
      case teste =>
        cases hs
        rw [hauto] at hinv ⊢
        exact { h with
          inv := hinv, sansSoleil := by simp, reguliers := .inr hr, appele := fun _ _ => hap }
      case supprime =>
        cases hs
        refine { h with
          inv := hinv, sansSoleil := ?_, reguliers := .inr hr, appele := fun _ _ => hap }
        split <;> simp
      case libere =>
        cases hs
        exact { h with
          inv := hinv, sansSoleil := fun _ => rfl, reguliers := .inl rfl, appele := nofun }

theorem Vif.suiteSoleil (h : Vif d) (hinv : Inv d') (hs : d.suiteSoleil = some d') :
    Vif d' := by
  have hpwm := h.inv.pwm
  unfold Montage.suiteSoleil at hs
  cases he : d.stadeSoleil with
  | rendu => simp [he] at hs
  | avant =>
      rw [he] at hpwm
      simp only [he] at hs
      split at hs
      · obtain ⟨s, hstep, rfl⟩ := Option.map_eq_some_iff.mp hs
        exact { h with
          inv := hinv
          reguliers := h.reguliers.imp_right
            (And.imp_left fun hr => hr.step (e := .pas) trivial hstep)
          appele := h.soleilAppele (e := .pas) trivial hstep }
      · obtain ⟨s, hstep, rfl⟩ := Option.map_eq_some_iff.mp hs
        have hnil : d.pwm.fils = [] := List.map_eq_nil_iff.mp hpwm.2
        exact { h with
          inv := hinv
          reguliers := h.reguliers.imp_right
            (And.imp_right fun hr => hr.step (e := .start _ _) hnil hstep) }
  | cours =>
      simp only [he] at hs
      obtain ⟨s, hstep, rfl⟩ := Option.map_eq_some_iff.mp hs
      exact { h with
        inv := hinv
        reguliers := h.reguliers.imp_right
          (And.imp_right fun hr => hr.step (e := .stop) trivial hstep) }
  | ouvre | ferme =>
      simp only [he] at hs
      split at hs
      · cases hs
        exact { h with inv := hinv }
      · cases hs

theorem Vif.step (h : Vif d) (hord : d.EnOrdre e) (hs : d.step e = some d') : Vif d' := by
  have hinv := h.inv.step hord hs
  cases passage_of_step hs with
  | demande hstep => exact h.avecProfil (e := .demande) trivial hstep hinv
  | suiteDemande hstep => exact h.avecProfil (e := .suite) trivial hstep hinv
  | profil _ _ hstep => exact h.avecProfil (e := .fil 0 _) trivial hstep hinv
  | suiteProfil _ _ hd => exact h.suiteProfil hinv hd
  | soleil _ _ _ hstep => exact h.avecSoleil (e := .fil 0 _) trivial hstep hinv
  | suiteSoleil _ _ hd => exact h.suiteSoleil hinv hd
  | gere _ hstep => exact h.avecSoleil (e := .pas) trivial hstep hinv
  | gereSegment hpc hstep =>
      have hinv := h.inv.step (e := .gere none) trivial (step_of_passage (.gere hpc hstep))
      exact (h.avecSoleil (e := .pas) trivial hstep hinv).setDuree _
  | pwm hstep => exact h.avecPwm (e := .fil 0 _) trivial hstep hinv
  | appelSoleil hp hstep =>
      exact h.avecSoleil (Systeme.sansAutreAppel_of_poursuit hp) hstep hinv
  | appelPwm hp hstep =>
      exact h.avecPwm (Systeme.sansAutreAppel_of_poursuit hp).seulCreate hstep hinv

/-! ### Some step is always possible -/

def restant (d : Montage) : ℕ :=
  d.profil.reste + d.soleil.reste + d.pwm.reste + d.stadeProfil.poidsProfil +
    d.stadeSoleil.poidsSoleil

theorem restant_le (d : Montage) : d.restant ≤ 93 := by
  have := d.profil.reste_le
  have := d.soleil.reste_le
  have := d.pwm.reste_le
  have := d.stadeProfil.poidsProfil_le
  have := d.stadeSoleil.poidsSoleil_le
  unfold restant
  omega

/-- Some step in order brings the teardown closer to its end. -/
def Avance (d : Montage) : Prop :=
  ∃ e d', d.EnOrdre e ∧ d.step e = some d' ∧ d'.restant < d.restant

/-- The calls in progress on the three objects have returned. -/
structure Libre (d : Montage) : Prop where
  profil : d.profil.appel = .libre
  soleil : d.soleil.appel = .libre
  pwm : d.pwm.appel = .libre

theorem Vif.avanceAppelProfil (h : Vif d) (ha : d.profil.appel ≠ .libre) : Avance d := by
  have hdem := h.seule.resolve_left ha
  obtain ⟨e, s, hp, hs, hlt⟩ := h.profil.poursuit ha
    (fun hap => by simp [Systeme.EnDemande, hap] at hdem)
    (fun hap => by simp [Systeme.EnDemande, hap] at hdem)
  obtain rfl := h.seule.eq_suite hp hs
  refine ⟨.suiteDemande, _, trivial, step_of_passage (.suiteDemande hs), ?_⟩
  simp only [restant]
  omega

theorem SoleilTenu.not_stop {soleil : Systeme} {pSoleil : Bool} {e : Stade Demontage}
    (h : SoleilTenu soleil pSoleil e) :
    soleil.appel ≠ .stopDrapeau ∧ soleil.appel ≠ .stopJoint := by
  unfold SoleilTenu at h
  split at h
  case h_2 =>
    obtain ⟨-, ha | ⟨-, flag, ha | ha⟩⟩ := h <;> simp [ha]
  case h_4 => rcases h with ha | ha | ha | ha <;> simp [ha]
  case h_5 => simp [h]
  case h_6 | h_7 | h_8 => exact h.elim
  all_goals simp [h.1]

theorem Vif.avanceAppelSoleil (h : Vif d) (ha : d.soleil.appel ≠ .libre) : Avance d := by
  have htenu := h.inv.tenu
  have hne : d.stadeProfil ≠ .rendu := by
    intro he
    rw [he] at htenu
    exact ha htenu.1
  obtain ⟨e, s, hp, hs, hlt⟩ := (h.actifs hne).1.poursuit ha
    (fun hap => absurd hap htenu.not_stop.1) (fun hap => absurd hap htenu.not_stop.2)
  refine ⟨.appelSoleil e, _, trivial, step_of_passage (.appelSoleil hp hs), ?_⟩
  simp only [restant]
  omega

theorem avancePwm (hr : d.pwm.Regulier) (hdem : ¬ d.pwm.EnDemande) {pc : Pc}
    (hpc : pc ∈ d.pwm.pcs) (hne : pc ≠ .termine) (hatt : pc = .attend → d.pwm.Averti) :
    Avance d := by
  obtain ⟨s, hs, hlt⟩ := hr.avance (hr.pcs_of_mem hpc) hdem hne hatt
  refine ⟨.pwm pc.choix, _, trivial, step_of_passage (.pwm hs), ?_⟩
  simp only [restant]
  omega

/-- The sun's `Start` and `Stop` wait for the thread of the timer at most. -/
theorem Vif.avanceAppelPwm (h : Vif d) (ha : d.pwm.appel ≠ .libre) : Avance d := by
  have hne : d.stadeProfil ≠ .rendu := by
    intro he
    have htenu := h.inv.tenu
    rw [he] at htenu
    exact ha (h.inv.soleil_rendu htenu.2).1
  obtain ⟨-, hr⟩ := h.actifs hne
  by_cases hmutex : d.pwm.appel = .stopDrapeau → d.pwm.objet.mutex = none
  · by_cases hjoint : d.pwm.appel = .stopJoint → d.pwm.joint = true
    · obtain ⟨e, s, hp, hs, hlt⟩ := hr.poursuit ha hmutex hjoint
      refine ⟨.appelPwm e, _, trivial, step_of_passage (.appelPwm hp hs), ?_⟩
      simp only [restant]
      omega
    · obtain ⟨hap, hjoint⟩ := Classical.not_imp.mp hjoint
      obtain ⟨pc, hpc, hpc'⟩ := hr.vivant_of_not_joint (by simpa using hjoint)
      exact avancePwm hr (by simp [Systeme.EnDemande, hap]) hpc hpc' fun _ => hr.ecrit (.inr hap)
  · obtain ⟨hap, hmutex⟩ := Classical.not_imp.mp hmutex
    have hdem : ¬ d.pwm.EnDemande := by simp [Systeme.EnDemande, hap]
    obtain ⟨f, hf, hsec⟩ := (hr.detenu hmutex).resolve_right hdem
    refine avancePwm hr hdem (List.mem_map_of_mem hf) ?_ ?_ <;> intro hpc <;>
      simp [hpc, Pc.enSection] at hsec

/-- The sun's thread waits for its pipe, or for the thread of the timer to begin. -/
theorem Vif.avanceSoleil (h : Vif d) (hl : Libre d) (he : d.stadeProfil ≠ .rendu) {pc : Pc}
    (hpc : d.soleil.pcs = [pc]) (hne : pc ≠ .termine) (hatt : pc = .attend → d.soleil.Averti) :
    Avance d := by
  obtain ⟨hrsoleil, hrpwm⟩ := h.actifs he
  have hpc? : d.soleil.pc? = some pc := by
    rw [Systeme.pc?_eq, hpc]
    rfl
  have hplace := (h.inv.soleil_pcs hpc?).2
  by_cases hlaisse : d.stadeSoleil.laisse pc = true
  · obtain ⟨s, hs, hlt⟩ := hrsoleil.avance hpc (by simp [Systeme.EnDemande, hl.soleil]) hne hatt
    have hlt : ({ d with soleil := s } : Montage).restant < d.restant := by
      simp only [restant]
      omega
    by_cases haction : pc = .action
    · subst haction
      exact ⟨.gere none, _, trivial, step_of_passage (.gere hpc? hs), hlt⟩
    · refine ⟨.soleil pc.choix, _, ?_, step_of_passage (.soleil hpc? haction hlaisse hs), hlt⟩
      intro hcours hsortie
      rw [hpc?] at hsortie
      rw [hcours, Option.some.inj hsortie] at hlaisse
      cases hlaisse
  · rw [Bool.not_eq_true] at hlaisse
    have hsuite : ∀ d', d.EnOrdre (.soleil .suite) → d.suiteSoleil = some d' →
        d'.restant < d.restant → Avance d := fun d' hord hd hlt =>
      ⟨.soleil .suite, d', hord, step_of_passage (.suiteSoleil hpc? hlaisse hd), hlt⟩
    have hclasse := congrArg Prod.fst h.inv.naturePwm
    cases he : d.stadeSoleil with
    | avant =>
        have hpipe := hrsoleil.ouvert (by rw [hpc]; exact List.mem_singleton_self _) hne
        obtain ⟨s, hs, hle⟩ :=
          Systeme.start_possible d.ui64UsecEtatHaut timePeriodic hl.pwm hclasse
        refine hsuite { d with pwm := s, stadeSoleil := .ouvre } (by simp [EnOrdre, he]) ?_ ?_
        · simp [Montage.suiteSoleil, he, hpipe, hs]
        · simp only [restant, he, Stade.poidsSoleil]
          omega
    | ouvre =>
        refine hsuite { d with stadeSoleil := .cours } (by simp [EnOrdre, he]) ?_ ?_
        · simp [Montage.suiteSoleil, he, hl.pwm]
        · simp only [restant, he, Stade.poidsSoleil]
          omega
    | cours =>
        by_cases hdem : ∀ pc ∈ d.pwm.pcs, pc.demarre = true
        · obtain ⟨s, hs, hle⟩ := Systeme.stop_possible hl.pwm hclasse
          refine hsuite { d with pwm := s, stadeSoleil := .ferme () } (fun _ _ => hdem) ?_ ?_
          · simp [Montage.suiteSoleil, he, hs]
          · simp only [restant, he, Stade.poidsSoleil]
            omega
        · -- `iStop` has to wait until the thread of the timer has begun
          push Not at hdem
          obtain ⟨q, hq, hnot⟩ := hdem
          refine avancePwm hrpwm (by simp [Systeme.EnDemande, hl.pwm]) hq ?_ ?_ <;> rintro rfl <;>
            simp [Pc.demarre] at hnot
    | ferme =>
        refine hsuite { d with stadeSoleil := .rendu } (by simp [EnOrdre, he]) ?_ ?_
        · simp [Montage.suiteSoleil, he, hl.pwm]
        · simp only [restant, he, Stade.poidsSoleil]
          omega
    | rendu =>
        rw [he] at hplace hlaisse
        rcases pc_of_not_laisse hlaisse with rfl | rfl
        · cases hplace
        · cases hlaisse

/-- The profile's thread waits for its pipe, for the mutex of the sun, or for the sun to
end. -/
theorem Vif.avanceProfil (h : Vif d) (hl : Libre d) (hdem : d.profil.Appele) {pc : Pc}
    (hpc : d.profil.pcs = [pc]) (hne : pc ≠ .termine) : Avance d := by
  have hpc? : d.profil.pc? = some pc := by
    rw [Systeme.pc?_eq, hpc]
    rfl
  have hplace := (h.inv.profil_pcs hpc?).2
  by_cases hlaisse : d.stadeProfil.laisse pc = true
  · obtain ⟨s, hs, hlt⟩ := h.profil.avance hpc (by simp [Systeme.EnDemande, hl.profil]) hne
      fun _ => hdem.prevenu.averti hl.profil
    refine ⟨.profil pc.choix, _, ?_, step_of_passage (.profil hpc? hlaisse hs), ?_⟩
    · intro hjoint
      rw [hjoint] at hplace hlaisse
      obtain rfl : pc = .sortie := hplace
      cases hlaisse
    · simp only [restant]
      omega
  · rw [Bool.not_eq_true] at hlaisse
    have hsuite : ∀ d', d.EnOrdre (.profil .suite) → d.suiteProfil = some d' →
        d'.restant < d.restant → Avance d := fun d' hord hd hlt =>
      ⟨.profil .suite, d', hord, step_of_passage (.suiteProfil hpc? hlaisse hd), hlt⟩
    cases he : d.stadeProfil with
    | avant =>
        have hpipe := h.profil.ouvert (by rw [hpc]; exact List.mem_singleton_self _) hne
        by_cases hvalide : d.ucValide = true
        · obtain ⟨s, hs, hle⟩ := Systeme.create_possible hl.soleil h.inv.soleil_nature.1
          refine hsuite { d with soleil := s, pSoleil := true, stadeProfil := .ouvre }
            (by simp [EnOrdre, he]) ?_ ?_
          · simp [Montage.suiteProfil, he, hpipe, hvalide, hs]
          · simp only [restant, he, Stade.poidsProfil]
            omega
        · refine hsuite { d with stadeProfil := .cours } (by simp [EnOrdre, he]) ?_ ?_
          · simp [Montage.suiteProfil, he, hpipe, hvalide]
          · simp only [restant, he, Stade.poidsProfil]
            omega
    | ouvre =>
        refine hsuite { d with stadeProfil := .cours } (by simp [EnOrdre, he]) ?_ ?_
        · simp [Montage.suiteProfil, he, hl.soleil]
        · simp only [restant, he, Stade.poidsProfil]
          omega
    | cours =>
        by_cases hp : d.pSoleil = true
        · by_cases hmutex : d.soleil.objet.mutex = none
          · obtain ⟨s, hs, hle⟩ := Systeme.demande_possible hl.soleil hmutex
            refine hsuite { d with soleil := s, stadeProfil := .ferme .demande }
              (by simp [EnOrdre, he]) ?_ ?_
            · simp [Montage.suiteProfil, he, hp, hs]
            · simp only [restant, he, Stade.poidsProfil]
              omega
          · -- the thread of the sun is inside its own `SetArretThread`
            have hne' : d.stadeProfil ≠ .rendu := by simp [he]
            obtain ⟨hr, -⟩ := h.actifs hne'
            obtain ⟨f, hf, hsec⟩ :=
              (hr.detenu hmutex).resolve_right (by simp [Systeme.EnDemande, hl.soleil])
            refine h.avanceSoleil hl hne' (hr.pcs_of_mem (List.mem_map_of_mem hf)) ?_ ?_ <;>
              intro hpc <;> simp [hpc, Pc.enSection] at hsec
        · refine hsuite { d with stadeProfil := .rendu } (by simp [EnOrdre, he]) ?_ ?_
          · simp [Montage.suiteProfil, he, hp]
          · simp only [restant, he, Stade.poidsProfil]
            omega
    | ferme phase =>
        have htenu := h.inv.tenu
        have hne' : d.stadeProfil ≠ .rendu := by simp [he]
        obtain ⟨-, hauto, hdetache⟩ := h.inv.soleil_nature
        rw [he] at htenu
        cases phase with
        | drapeau | ecrit | attend => exact htenu.elim
        | demande =>
            refine hsuite { d with stadeProfil := .ferme .joint } (by simp [EnOrdre, he]) ?_ ?_
            · simp [Montage.suiteProfil, he, hl.soleil, hdetache]
            · simp only [restant, he, Stade.poidsProfil]
              omega
        | joint =>
            by_cases hfin : ∀ pc ∈ d.soleil.pcs, pc = .termine
            · refine hsuite { d with stadeProfil := .ferme .teste } (fun _ => hfin) ?_ ?_
              · simp [Montage.suiteProfil, he]
              · simp only [restant, he, Stade.poidsProfil]
                omega
            · -- the sun has been told
              push Not at hfin
              obtain ⟨q, hq, hne⟩ := hfin
              exact h.avanceSoleil hl hne' ((h.actifs hne').1.pcs_of_mem hq) hne fun _ =>
                (h.appele _ he).prevenu.averti hl.soleil
        | teste =>
            refine hsuite { d with stadeProfil := .ferme .supprime } (by simp [EnOrdre, he]) ?_ ?_
            · simp [Montage.suiteProfil, he, hauto]
            · simp only [restant, he, Stade.poidsProfil]
              omega
        | supprime =>
            have hb := h.inv.pwm_arrete (h.inv.vivant.resolve_left hne') htenu.2
            refine hsuite { d with stadeProfil := .ferme .libere } (by simp [EnOrdre, he]) ?_ ?_
            · simp [Montage.suiteProfil, he, hb]
            · simp only [restant, he, Stade.poidsProfil]
              omega
        | libere =>
            refine hsuite _ (by simp [EnOrdre, he]) (by simp only [Montage.suiteProfil, he]; rfl) ?_
            simp only [restant, he, Stade.poidsProfil, Systeme.reste]
            omega
    | rendu =>
        rw [he] at hplace hlaisse
        rcases pc_of_not_laisse hlaisse with rfl | rfl
        · cases hplace
        · cases hlaisse

theorem Vif.avance (h : Vif d) (hdem : d.profil.Appele)
    (hfin : ¬ ∀ pc ∈ d.profil.pcs, pc = .termine) : Avance d := by
  by_cases hprofil : d.profil.appel = .libre
  · by_cases hsoleil : d.soleil.appel = .libre
    · by_cases hpwm : d.pwm.appel = .libre
      · push Not at hfin
        obtain ⟨pc, hpc, hne⟩ := hfin
        exact h.avanceProfil ⟨hprofil, hsoleil, hpwm⟩ hdem (h.profil.pcs_of_mem hpc) hne
      · exact h.avanceAppelPwm hpwm
    · exact h.avanceAppelSoleil hsoleil
  · exact h.avanceAppelProfil hprofil

/-! ### The request -/

theorem profil_of_suiteProfil (hs : d.suiteProfil = some d') :
    d'.profil = d.profil ∨ d.profil.step .pas = some d'.profil := by
  unfold Montage.suiteProfil at hs
  split at hs
  case h_1 =>
    split at hs
    · obtain ⟨s, hstep, rfl⟩ := Option.map_eq_some_iff.mp hs
      exact .inr hstep
    · refine .inl ?_
      split at hs
      · obtain ⟨s, -, rfl⟩ := Option.map_eq_some_iff.mp hs
        rfl
      · cases hs
        rfl
  case h_3 =>
    refine .inl ?_
    split at hs
    · obtain ⟨s, -, rfl⟩ := Option.map_eq_some_iff.mp hs
      rfl
    · cases hs
      rfl
  case h_12 => cases hs
  all_goals
    refine .inl ?_
    first
    | cases hs; rfl
    | split at hs <;> cases hs <;> rfl

theorem profil_of_suiteSoleil (hs : d.suiteSoleil = some d') : d'.profil = d.profil := by
  unfold Montage.suiteSoleil at hs
  split at hs
  case h_1 =>
    split at hs <;>
    · obtain ⟨s, -, rfl⟩ := Option.map_eq_some_iff.mp hs
      rfl
  case h_3 =>
    obtain ⟨s, -, rfl⟩ := Option.map_eq_some_iff.mp hs
    rfl
  case h_5 => cases hs
  all_goals
    split at hs <;> cases hs
    rfl

theorem Vif.appeleProfil (h : Vif d) (hdem : d.profil.Appele) (hs : d.step e = some d') :
    d'.profil.Appele := by
  cases passage_of_step hs with
  | demande hstep => exact hdem.step h.profil (e := .demande) trivial hstep
  | suiteDemande hstep => exact hdem.step h.profil (e := .suite) trivial hstep
  | profil _ _ hstep => exact hdem.step h.profil (e := .fil 0 _) trivial hstep
  | suiteProfil _ _ hd =>
      rcases profil_of_suiteProfil hd with heq | hstep
      · exact heq ▸ hdem
      · exact hdem.step h.profil (e := .pas) trivial hstep
  | suiteSoleil _ _ hd => exact profil_of_suiteSoleil hd ▸ hdem
  | _ => exact hdem

/-! ### The end -/

/-- The thread of the profile has ended and has deleted the profile, no sun is left, and the
thread of its timer has returned from `Thread`. -/
structure Demantele (d : Montage) : Prop where
  profil : d.profil.objet.detruit = true ∧ ∀ pc ∈ d.profil.pcs, pc = .termine
  soleil : d.pSoleil = false ∧ ∀ pc ∈ d.soleil.pcs, pc = .termine
  pwm : ∀ pc ∈ d.pwm.pcs, pc.revenu = true

theorem Vif.demantele (h : Vif d) (hfin : ∀ pc ∈ d.profil.pcs, pc = .termine) : Demantele d := by
  have htenu := h.inv.tenu
  obtain ⟨pc, hpc, hplace⟩ := h.inv.profil
  have hmem : pc ∈ d.profil.pcs := by
    rw [hpc]
    exact List.mem_singleton_self _
  have hrendu := hplace.rendu_of_revenu (by rw [hfin pc hmem]; rfl)
  rw [hrendu] at htenu
  exact ⟨⟨h.efface.detruit pc hmem (hfin pc hmem), hfin⟩, ⟨h.sansSoleil (.inr hrendu), htenu.2⟩,
    (h.inv.soleil_rendu htenu.2).2⟩

/-- `SetArretThread (1)` has been called on the profile at any time of a run in order. However
far that run is, it goes on in order to the end of the teardown, and 93 steps are enough. -/
theorem demontage_aboutit (arretProfil arretSoleil arretPwm p : ℕ) (ucValide : Bool) (usec : ℕ)
    {es : List EvtMontage} {d : Montage}
    (h : Execution.exec step (lance arretProfil arretSoleil arretPwm p ucValide usec) es = some d)
    (hord : Execution.Meets step EnOrdre
      (lance arretProfil arretSoleil arretPwm p ucValide usec) es)
    (hdem : .demande ∈ es) :
    ∃ es' d', Execution.exec step d es' = some d' ∧ Execution.Meets step EnOrdre d es' ∧
      es'.length ≤ 93 ∧ Demantele d' := by
  have hdemande : ∀ d d', Vif d → d.EnOrdre .demande → d.step .demande = some d' →
      d'.profil.Appele := by
    intro d d' _ _ hs
    cases passage_of_step hs with
    | demande hstep => exact Systeme.appele_of_demande hstep
  have hd : Vif d ∧ d.profil.Appele := Execution.exec_establishes
    (fun _ _ _ h hord hs => h.step hord hs) hdemande
    (fun _ _ _ h hdem hs => h.appeleProfil hdem hs)
    (Vif.lance arretProfil arretSoleil arretPwm p ucValide usec) hord h hdem
  obtain ⟨es', d', h', hord', hle, hd', hfin⟩ :=
    Execution.exec_reaches_guarded (I := fun d => Vif d ∧ d.profil.Appele)
      (Q := fun d => ∀ pc ∈ d.profil.pcs, pc = .termine) restant
      (fun d hd hfin => by
        obtain ⟨e, d', hord, hs, hlt⟩ := hd.1.avance hd.2 hfin
        exact ⟨e, d', hord, hs, ⟨hd.1.step hord hs, hd.1.appeleProfil hd.2 hs⟩, hlt⟩) hd
  exact ⟨es', d', h', hord', hle.trans (restant_le d), hd'.1.demantele hfin⟩

/-- The profile is asked to stop before the thread of its sun has run. -/
theorem demontage_aboutit_demande :
    let es : List EvtMontage := [.profil .suite, .profil .suite, .profil .suite, .profil .suite,
      .profil .suite, .appelSoleil (.pipe (some 5)), .appelSoleil (.pthreadCreate true),
      .profil .suite, .profil .suite, .demande]
    ∃ d, Execution.exec step (lance 7 7 7 3 true 10) es = some d ∧
      ∃ es' d', Execution.exec step d es' = some d' ∧ Execution.Meets step EnOrdre d es' ∧
        es'.length ≤ 93 ∧ Demantele d' := by
  intro es
  let d := (Execution.exec step (lance 7 7 7 3 true 10) es).get (by decide)
  have h : Execution.exec step (lance 7 7 7 3 true 10) es = some d :=
    (Option.some_get (by decide)).symm
  exact ⟨d, h, demontage_aboutit 7 7 7 3 true 10 h (by decide) (by decide)⟩

end Montage

end GestAqua
