import GestAqua.Source.Profil
import GestAqua.Threads.Handshake
import Mathlib.Data.Fintype.EquivFin

/-!
An object and its thread can go on.

`Regulier` is what every step keeps of an object that creates one thread at most: the thread
is on the pipe of the object, and the mutex is held inside `SetArretThread` only. From it
follows what may be waited for: a thread waits for its pipe, or for the owner to leave
`SetArretThread`; the owner waits for the thread to leave it, or to end. Everything else is a
step that brings the object closer to its end (`reste`).
-/

namespace GestAqua

/-- How many steps the call in progress still takes. -/
def Appel.reste : Appel → ℕ
  | .libre => 0
  | .pipe _ => 2
  | .pthreadCreate _ => 1
  | .stopDrapeau => 5
  | .stopEcrit => 4
  | .stopTeste => 3
  | .stopJoint => 2
  | .stopDetache => 1
  | .demPose => 3
  | .demEcrit => 2
  | .demLibere => 1

/-- How many steps a thread that finds its pipe readable may still take. -/
def Pc.reste : Pc → ℕ
  | .initVerrou => 16
  | .initPose => 15
  | .initLibere => 14
  | .entree => 13
  | .prepare => 12
  | .expire => 14
  | .action => 13
  | .apres => 12
  | .boucle => 11
  | .arme => 10
  | .charge => 9
  | .attend => 8
  | .lisible => 7
  | .sortie => 6
  | .finVerrou => 5
  | .finPose => 4
  | .finEcrit => 3
  | .finLibere => 2
  | .destruction => 1
  | .termine => 0

theorem Pc.reste_le (pc : Pc) : pc.reste ≤ 16 := by
  cases pc <;> decide

/-- How `select` returns to a thread that finds its pipe readable; the other points have
one step. -/
def Pc.choix (pc : Pc) : Choix := if pc = .attend then .lisible else .suite

theorem Pc.choix_ne (pc : Pc) : pc.choix ≠ .interrompu := by
  unfold choix
  split <;> nofun

namespace Fil

variable {o o' : CThread} {p k : ℕ} {f f' : Fil} {c : Choix}

/-- Every step brings a thread closer to its end, when a `select` finds its pipe readable. -/
theorem Surveille.reste_lt (h : f.Surveille o p) (hatt : f.pc = .attend → p ∈ o.lisibles)
    (hc : c ≠ .interrompu) (hm : f.Mouvement o k c o' f') : f'.pc.reste < f.pc.reste := by
  cases hm with
  | expire hpc hp =>
      rw [(h.pret_iff hpc).mpr (hatt hpc)] at hp
      cases hp
  | ignore hpc hp =>
      obtain ⟨q, hq, hmem⟩ := h.not_ignore hpc
      exact absurd hmem (hp q hq)
  | interrompu => exact absurd rfl hc
  | _ hpc => simp [hpc, Pc.reste, Fil.quitte]

/-- Nothing blocks such a thread when the mutex is free or its own. -/
theorem Surveille.avance (h : f.Surveille o p) (hatt : f.pc = .attend → p ∈ o.lisibles)
    (hmutex : f.pc.enSection = false → o.mutex = none) (hpc : f.pc ≠ .termine) :
    ∃ r, f.step o k f.pc.choix = some r := by
  by_cases hattend : f.pc = .attend
  · rw [hattend]
    exact ⟨_, if_pos ⟨hattend, (h.pret_iff hattend).mpr (hatt hattend)⟩⟩
  · rw [Pc.choix, if_neg hattend]
    cases hpc' : f.pc with
    | attend => exact absurd hpc' hattend
    | termine => exact absurd hpc' hpc
    | initPose | initLibere | arme | action | finPose | finEcrit | finLibere =>
        simp only [Fil.step, hpc']
        exact ⟨_, rfl⟩
    | initVerrou | finVerrou | charge =>
        have hnone := hmutex (by rw [hpc']; rfl)
        simp only [Fil.step, hpc', hnone, if_pos, ne_eq, not_true_eq_false, and_false, if_false]
        exact ⟨_, rfl⟩
    | boucle | expire =>
        have hnone := hmutex (by rw [hpc']; rfl)
        simp only [Fil.step, hpc', hnone, if_pos]
        split <;> exact ⟨_, rfl⟩
    | entree =>
        simp only [Fil.step, hpc']
        split
        · split <;> exact ⟨_, rfl⟩
        · exact ⟨_, rfl⟩
    | prepare | lisible | apres | sortie | destruction =>
        simp only [Fil.step, hpc']
        split <;> exact ⟨_, rfl⟩

end Fil

namespace Systeme

variable {s s' : Systeme} {e : EvtThread} {pc : Pc}

/-- The owner is inside `SetArretThread (1)`. -/
def EnDemande (s : Systeme) : Prop :=
  s.appel = .demPose ∨ s.appel = .demEcrit ∨ s.appel = .demLibere

/-- The thread, if there is one, has left the loop or finds its pipe readable. -/
def Averti (s : Systeme) : Prop :=
  ∀ f ∈ s.fils, f.pc.horsBoucle = true ∨ ∃ p ∈ s.objet.iIdPipe, p ∈ s.objet.lisibles

structure Regulier (s : Systeme) : Prop where
  fils : s.fils = [] ∨ ∃ f p, s.fils = [f] ∧ f.Surveille s.objet p
  detenu : s.objet.mutex ≠ none → (∃ f ∈ s.fils, f.pc.enSection = true) ∨ s.EnDemande
  creation : (∃ flag, s.appel = .pipe flag ∨ s.appel = .pthreadCreate flag) → s.fils = []
  pipe : ∀ flag, s.appel = .pthreadCreate flag → s.objet.iIdPipe ≠ none
  ecrit : s.appel = .stopTeste ∨ s.appel = .stopJoint → s.Averti

theorem Regulier.neuf (classe : Classe) (arret : ℕ) (auto detache : Bool) :
    Regulier (neuf classe arret auto detache) where
  fils := .inl rfl
  detenu h := absurd rfl h
  creation _ := rfl
  pipe := by simp [Systeme.neuf]
  ecrit := by simp [Systeme.neuf]

theorem Averti.marque (h : s.Averti) {o : CThread} {ap : Appel}
    (hpipe : o.iIdPipe = s.objet.iIdPipe) (hlis : s.objet.lisibles ⊆ o.lisibles) :
    Averti { s with objet := o, fils := s.marque, appel := ap } := by
  intro f hf
  obtain ⟨g, hg, rfl⟩ := List.mem_map.mp hf
  refine (h g hg).imp_right ?_
  rintro ⟨p, hp, hread⟩
  exact ⟨p, hpipe ▸ hp, hlis hread⟩

theorem Averti.congr (h : s.Averti) (hfils : s'.fils = s.fils)
    (hpipe : s'.objet.iIdPipe = s.objet.iIdPipe)
    (hlis : s.objet.lisibles ⊆ s'.objet.lisibles) : s'.Averti := by
  intro f hf
  rw [hfils] at hf
  refine (h f hf).imp_right ?_
  rintro ⟨p, hp, hread⟩
  exact ⟨p, hpipe ▸ hp, hlis hread⟩

/-- A write to the pipe of the object. -/
theorem Regulier.averti_ecrit (h : Regulier s) {fils : List Fil} {ap : Appel}
    (hfils : fils = s.fils ∨ fils = s.marque) :
    Averti { s with objet := s.objet.ecrit, fils := fils, appel := ap } := by
  have hecrit : ∀ f ∈ s.fils, f.pc.horsBoucle = true ∨
      ∃ p ∈ s.objet.iIdPipe, p ∈ s.objet.ecrit.lisibles := by
    intro f hf
    rcases h.fils with hnil | ⟨g, p, hg, hsurv⟩
    · rw [hnil] at hf
      cases hf
    · rw [hg, List.mem_singleton] at hf
      subst hf
      by_cases hpc : f.pc = .termine
      · exact .inl (Pc.horsBoucle_of_termine hpc)
      · exact hsurv.ecrit.imp_right fun hread => ⟨p, hsurv.iIdPipe_eq hpc, hread⟩
  rcases hfils with rfl | rfl
  · exact hecrit
  · intro f hf
    obtain ⟨g, hg, rfl⟩ := List.mem_map.mp hf
    exact hecrit g hg

/-- A step of the owner, which may mark the thread and keeps the pipe. -/
theorem Regulier.proprietaire (h : Regulier s) (hfils : s'.fils = s.fils ∨ s'.fils = s.marque)
    (hpipe : s'.objet.iIdPipe = s.objet.iIdPipe)
    (hdetenu : s'.objet.mutex ≠ none → (∃ f ∈ s.fils, f.pc.enSection = true) ∨ s'.EnDemande)
    (hcree : ∀ flag, s'.appel ≠ .pipe flag ∧ s'.appel ≠ .pthreadCreate flag)
    (hecrit : s'.appel = .stopTeste ∨ s'.appel = .stopJoint → s'.Averti) : Regulier s' where
  fils := by
    rcases h.fils with hnil | ⟨f, p, hf, hsurv⟩
    · refine .inl ?_
      rcases hfils with heq | heq <;> simp [heq, hnil, Systeme.marque]
    · refine .inr ?_
      rcases hfils with heq | heq
      · exact ⟨f, p, heq.trans hf, hsurv.congr hpipe⟩
      · exact ⟨{ f with demande := true }, p, by rw [heq, Systeme.marque, hf]; rfl,
          Fil.Surveille.congr (f := { f with demande := true }) hsurv hpipe⟩
  detenu hmutex := by
    refine (hdetenu hmutex).imp_left ?_
    rintro ⟨f, hf, hsec⟩
    rcases hfils with heq | heq <;> rw [heq]
    · exact ⟨f, hf, hsec⟩
    · exact ⟨_, List.mem_map_of_mem hf, hsec⟩
  creation := by
    rintro ⟨flag, ha | ha⟩
    · exact absurd ha (hcree flag).1
    · exact absurd ha (hcree flag).2
  pipe flag ha := absurd ha (hcree flag).2
  ecrit := hecrit

theorem Averti.mouvement {f f' : Fil} {k : ℕ} {c : Choix} {o' : CThread} (h : s.Averti)
    (hfils : s.fils = [f]) (hm : f.Mouvement s.objet k c o' f') :
    Averti { s with objet := o', fils := [f'] } := by
  intro g hg
  obtain rfl := List.mem_singleton.mp hg
  rcases h f (by rw [hfils]; exact List.mem_singleton_self _) with hout | ⟨p, hp, hread⟩
  · exact .inl (hm.horsBoucle hout)
  · cases hm with
    | detruit => exact .inl rfl
    | finEcrit => exact .inl rfl
    | _ => exact .inr ⟨p, hp, hread⟩

theorem Regulier.pcs_of_mem (h : Regulier s) (hpc : pc ∈ s.pcs) : s.pcs = [pc] := by
  rcases h.fils with hnil | ⟨f, -, hf, -⟩
  · simp [pcs, hnil] at hpc
  · simp only [pcs, hf, List.map_singleton, List.mem_singleton] at hpc ⊢
    rw [hpc]

theorem Regulier.ouvert (h : Regulier s) (hpc : pc ∈ s.pcs) (hne : pc ≠ .termine) :
    s.objet.iIdPipe ≠ none := by
  obtain ⟨g, hg, rfl⟩ := List.mem_map.mp hpc
  rcases h.fils with hnil | ⟨f, p, hf, hsurv⟩
  · rw [hnil] at hg
    cases hg
  · rw [hf, List.mem_singleton] at hg
    subst hg
    rw [hsurv.iIdPipe_eq hne]
    nofun

theorem Regulier.vivant_of_not_joint (h : Regulier s) (hj : s.joint = false) :
    ∃ pc ∈ s.pcs, pc ≠ .termine := by
  rcases h.fils with hnil | ⟨f, -, hf, -⟩
  · simp [joint, hnil] at hj
  · simp only [joint, hf, List.getLast?_singleton, beq_eq_false_iff_ne] at hj
    exact ⟨f.pc, by simp [pcs, hf], hj⟩

/-- A step of the thread. -/
theorem Regulier.mouvement (h : Regulier s) {f f' : Fil} {c : Choix} {o' : CThread}
    (hfils : s.fils = [f]) (hm : f.Mouvement s.objet 0 c o' f') :
    Regulier { s with objet := o', fils := [f'] } where
  fils := by
    rcases h.fils with hnil | ⟨g, p, hg, hsurv⟩
    · rw [hnil] at hfils
      cases hfils
    · obtain rfl : g = f := List.singleton_inj.mp (hg.symm.trans hfils)
      exact .inr ⟨f', p, rfl, hsurv.mouvement hm⟩
  detenu hmutex := by
    rcases hm.mutex_cases with ⟨-, -, -, hsec⟩ | ⟨hnone, -⟩ | ⟨hmut, hsec⟩
    · exact .inl ⟨f', List.mem_singleton_self _, hsec⟩
    · exact absurd hnone hmutex
    · refine (h.detenu (hmut ▸ hmutex)).imp_left ?_
      rintro ⟨g, hg, hin⟩
      rw [hfils, List.mem_singleton] at hg
      subst hg
      exact ⟨f', List.mem_singleton_self _, hsec.trans hin⟩
  creation ha := by
    have hnil := h.creation ha
    rw [hfils] at hnil
    cases hnil
  pipe flag ha := by
    have hnil := h.creation ⟨flag, .inr ha⟩
    rw [hfils] at hnil
    cases hnil
  ecrit ha := (h.ecrit ha).mouvement hfils hm

/-- The object has no thread yet when one is to be created. -/
def SeulCreate (s : Systeme) : EvtThread → Prop
  | .start _ _ | .create => s.fils = []
  | _ => True

theorem Regulier.step (h : Regulier s) (hseul : s.SeulCreate e) (hs : s.step e = some s') :
    Regulier s' := by
  have hlibre : s.appel = .libre → s.objet.mutex ≠ none →
      ∃ f ∈ s.fils, f.pc.enSection = true := by
    intro ha hmutex
    exact (h.detenu hmutex).resolve_right (by simp [EnDemande, ha])
  cases geste_of_step hs with
  | fil hk hm =>
      rcases h.fils with hnil | ⟨f, p, hf, -⟩
      · rw [hnil] at hk
        cases hk
      · rw [hf] at hk ⊢
        obtain ⟨rfl, rfl⟩ := getElem?_seul hk
        exact h.mouvement hf hm
  | startVain => exact h
  | start ha | create ha =>
      have hnil : s.fils = [] := hseul
      refine ⟨.inl hnil, fun hmutex => .inl (hlibre ha hmutex), fun _ => hnil, ?_, ?_⟩ <;> simp
  | pipe ha =>
      have hnil := h.creation ⟨_, .inl ha⟩
      refine ⟨.inl hnil, fun hmutex => ?_, fun _ => hnil, by simp, by simp⟩
      exact .inl ((h.detenu hmutex).resolve_right (by simp [EnDemande, ha]))
  | sansPipe ha =>
      have hnil := h.creation ⟨_, .inl ha⟩
      refine ⟨.inl hnil, fun hmutex => ?_, fun _ => hnil, by simp, by simp⟩
      exact .inl ((h.detenu hmutex).resolve_right (by simp [EnDemande, ha]))
  | pthreadCreate ha =>
      have hnil := h.creation ⟨_, .inr ha⟩
      obtain ⟨p, hp⟩ := Option.ne_none_iff_exists'.mp (h.pipe _ ha)
      refine ⟨.inr ⟨.cree _, p, by rw [hnil]; rfl, hp⟩, fun hmutex => ?_, by simp, by simp, by simp⟩
      obtain ⟨f, hf, -⟩ := (h.detenu hmutex).resolve_right (by simp [EnDemande, ha])
      rw [hnil] at hf
      cases hf
  | sansFil ha =>
      have hnil := h.creation ⟨_, .inr ha⟩
      refine ⟨.inl hnil, fun hmutex => ?_, fun _ => hnil, by simp, by simp⟩
      exact .inl ((h.detenu hmutex).resolve_right (by simp [EnDemande, ha]))
  | stopVain ha | stop ha =>
      exact h.proprietaire (.inl rfl) rfl (fun hmutex => .inl (hlibre ha hmutex))
        (by simp [rendStop]) (by simp [rendStop])
  | stopFini ha | stopDrapeau ha | stopFerme ha | stopLibre ha | joint ha | stopDetache ha =>
      exact h.proprietaire (.inl rfl) rfl
        (fun hmutex => .inl ((h.detenu hmutex).resolve_right (by simp [EnDemande, ha])))
        (by simp [rendStop]) (by simp [rendStop])
  | stopEcrit ha =>
      exact h.proprietaire (.inr rfl) rfl
        (fun hmutex => .inl ((h.detenu hmutex).resolve_right (by simp [EnDemande, ha])))
        (by simp) fun _ => h.averti_ecrit (.inr rfl)
  | stopJoint ha =>
      exact h.proprietaire (.inl rfl) rfl
        (fun hmutex => .inl ((h.detenu hmutex).resolve_right (by simp [EnDemande, ha])))
        (by simp) fun _ => h.ecrit (.inl ha)
  | demande | demEcrit =>
      exact h.proprietaire (.inl rfl) rfl (by simp [EnDemande]) (by simp) (by simp)
  | demPose => exact h.proprietaire (.inr rfl) rfl (by simp [EnDemande]) (by simp) (by simp)
  | demLibere => exact h.proprietaire (.inl rfl) rfl (by simp) (by simp) (by simp)

/-- Nobody empties a pipe, and no second thread is created. -/
theorem Averti.step (hav : s.Averti) (h : Regulier s) (he : e ≠ .pthreadCreate true)
    (hs : s.step e = some s') : s'.Averti := by
  cases geste_of_step hs with
  | fil hk hm =>
      rcases h.fils with hnil | ⟨f, p, hf, -⟩
      · rw [hnil] at hk
        cases hk
      · rw [hf] at hk ⊢
        obtain ⟨rfl, rfl⟩ := getElem?_seul hk
        exact hav.mouvement hf hm
  | startVain => exact hav
  | pthreadCreate => exact absurd rfl he
  | pipe ha | sansPipe ha =>
      intro f hf
      rw [show s.fils = [] from h.creation ⟨_, .inl ha⟩] at hf
      cases hf
  | stopEcrit => exact h.averti_ecrit (.inr rfl)
  | demEcrit => exact h.averti_ecrit (.inl rfl)
  | demPose => exact hav.marque rfl (List.Subset.refl _)
  | _ => exact hav.congr rfl rfl (List.Subset.refl _)

/-! ### A request -/

/-- The owner is in no call other than `SetArretThread (1)`. -/
def SeuleDemande (s : Systeme) : Prop := s.appel = .libre ∨ s.EnDemande

/-- `SetArretThread (1)` has been called: it has not written to the pipe yet, or the thread is
told. -/
def Prevenu (s : Systeme) : Prop := s.appel = .demPose ∨ s.appel = .demEcrit ∨ s.Averti

theorem Prevenu.averti (h : s.Prevenu) (ha : s.appel = .libre) : s.Averti := by
  simpa [Prevenu, ha] using h

theorem Prevenu.step (hp : s.Prevenu) (h : Regulier s) (he : e ≠ .pthreadCreate true)
    (hs : s.step e = some s') : s'.Prevenu := by
  rcases hp with hpose | hecrit | hav
  · cases geste_of_step hs with
    | fil => exact .inl hpose
    | demPose => exact .inr (.inl rfl)
    | startVain _ _ ha | _ ha =>
        rw [hpose] at ha
        cases ha
  · cases geste_of_step hs with
    | fil => exact .inr (.inl hecrit)
    | demEcrit => exact .inr (.inr (h.averti_ecrit (.inl rfl)))
    | startVain _ _ ha | _ ha =>
        rw [hecrit] at ha
        cases ha
  · exact .inr (.inr (hav.step h he hs))

/-- The same of an owner that makes no other call. -/
structure Appele (s : Systeme) : Prop where
  seule : s.SeuleDemande
  prevenu : s.Prevenu

/-- The labels of an owner that calls `SetArretThread (1)` only. -/
def SansAutreAppel : EvtThread → Prop
  | .start _ _ | .create | .stop => False
  | _ => True

theorem sansAutreAppel_of_poursuit (he : e.poursuit = true) : SansAutreAppel e := by
  cases e <;> trivial

theorem SansAutreAppel.seulCreate (he : SansAutreAppel e) : s.SeulCreate e := by
  cases e <;> trivial

theorem SeuleDemande.step (h : s.SeuleDemande) (he : SansAutreAppel e)
    (hs : s.step e = some s') : s'.SeuleDemande := by
  cases geste_of_step hs with
  | fil => exact h
  | startVain | start | create | stopVain | stop => exact he.elim
  | demande => exact .inr (.inl rfl)
  | demPose => exact .inr (.inr (.inl rfl))
  | demEcrit => exact .inr (.inr (.inr rfl))
  | demLibere => exact .inl rfl
  | pipe ha | sansPipe ha | pthreadCreate ha | sansFil ha | stopFini ha | stopDrapeau ha
  | stopFerme ha | stopEcrit ha | stopJoint ha | stopLibre ha | joint ha | stopDetache ha =>
      simp [SeuleDemande, EnDemande, ha] at h

/-- In such a call, the owner goes on by itself. -/
theorem SeuleDemande.eq_suite (h : s.SeuleDemande) (he : e.poursuit = true)
    (hs : s.step e = some s') : e = .suite := by
  cases geste_of_step hs with
  | pipe ha | sansPipe ha | pthreadCreate ha | sansFil ha => simp [SeuleDemande, EnDemande, ha] at h
  | fil | start | startVain | create | stopVain | stop | demande => cases he
  | _ => rfl

theorem prevenu_of_demande (hs : s.step .demande = some s') : s'.Prevenu := by
  cases geste_of_step hs with
  | demande => exact .inl rfl

theorem appele_of_demande (hs : s.step .demande = some s') : s'.Appele := by
  refine ⟨?_, prevenu_of_demande hs⟩
  cases geste_of_step hs with
  | demande => exact .inr (.inl rfl)

theorem Appele.step (ha : s.Appele) (h : Regulier s) (he : SansAutreAppel e)
    (hs : s.step e = some s') : s'.Appele := by
  refine ⟨ha.seule.step he hs, ha.prevenu.step h ?_ hs⟩
  rintro rfl
  cases geste_of_step hs with
  | pthreadCreate hap => simpa [SeuleDemande, EnDemande, hap] using ha.seule

/-! ### What may be waited for -/

/-- A bound on the steps that the call in progress and the thread still take, when no `select`
times out. -/
def reste (s : Systeme) : ℕ :=
  s.appel.reste + match s.fils with
    | [] => 17
    | f :: _ => f.pc.reste

theorem reste_le (s : Systeme) : s.reste ≤ 22 := by
  have happel : s.appel.reste ≤ 5 := by cases s.appel <;> simp [Appel.reste]
  unfold reste
  split
  · omega
  · rename_i f _ _
    have := f.pc.reste_le
    omega

theorem reste_lt_of_appel (hfils : s'.fils = s.fils ∨ s'.fils = s.marque)
    (ha : s'.appel.reste < s.appel.reste) : s'.reste < s.reste := by
  unfold reste
  rcases hfils with heq | heq <;> rw [heq]
  · omega
  · cases hf : s.fils with
    | nil =>
        simp only [marque, hf, List.map_nil]
        omega
    | cons f l =>
        simp only [marque, hf, List.map_cons]
        omega

theorem Averti.lisible (h : s.Averti) {f : Fil} {p : ℕ} (hf : s.fils = [f])
    (hsurv : f.Surveille s.objet p) (hpc : f.pc = .attend) : p ∈ s.objet.lisibles := by
  rcases h f (by rw [hf]; exact List.mem_singleton_self _) with hout | ⟨q, hq, hread⟩
  · rw [hpc] at hout
    cases hout
  · obtain rfl := Option.some.inj ((hsurv.iIdPipe_eq (by simp [hpc])).symm.trans hq)
    exact hread

/-- A thread that is told comes closer to its end with every step. -/
theorem Regulier.reste_lt (h : Regulier s) (hpcs : s.pcs = [pc]) (hatt : pc = .attend → s.Averti)
    {c : Choix} (hc : c ≠ .interrompu) (hs : s.step (.fil 0 c) = some s') :
    s'.reste < s.reste := by
  obtain ⟨f, f', o', rfl, hfils, hm, rfl⟩ := mouvement_of_step hpcs hs
  rcases h.fils with hnil | ⟨g, p, hg, hsurv⟩
  · rw [hnil] at hfils
    cases hfils
  · obtain rfl : g = f := List.singleton_inj.mp (hg.symm.trans hfils)
    have hlt := hsurv.reste_lt (fun hat => (hatt hat).lisible hfils hsurv hat) hc hm
    simp only [reste, hfils]
    omega

/-- The thread waits for its pipe, or for the owner to leave `SetArretThread (1)`. -/
theorem Regulier.avance (h : Regulier s) (hpcs : s.pcs = [pc]) (hdem : ¬ s.EnDemande)
    (hpc : pc ≠ .termine) (hatt : pc = .attend → s.Averti) :
    ∃ s', s.step (.fil 0 pc.choix) = some s' ∧ s'.reste < s.reste := by
  obtain ⟨f, hfils, rfl⟩ := List.map_eq_singleton_iff.mp hpcs
  rcases h.fils with hnil | ⟨g, p, hg, hsurv⟩
  · rw [hnil] at hfils
    cases hfils
  · obtain rfl : g = f := List.singleton_inj.mp (hg.symm.trans hfils)
    have hmutex : g.pc.enSection = false → s.objet.mutex = none := by
      intro hsec
      by_contra hne
      obtain ⟨g', hg', hin⟩ := (h.detenu hne).resolve_right hdem
      rw [hfils, List.mem_singleton] at hg'
      rw [hg', hsec] at hin
      cases hin
    obtain ⟨⟨o, f'⟩, hr⟩ :=
      hsurv.avance (k := 0) (fun hat => (hatt hat).lisible hfils hsurv hat) hmutex hpc
    have hs : s.step (.fil 0 g.pc.choix) = some { s with objet := o, fils := [f'] } := by
      simp [Systeme.step, hfils, hr]
    exact ⟨_, hs, h.reste_lt hpcs hatt (Pc.choix_ne _) hs⟩

/-- The owner waits for the mutex, or to join the thread. -/
theorem Regulier.poursuit (h : Regulier s) (ha : s.appel ≠ .libre)
    (hmutex : s.appel = .stopDrapeau → s.objet.mutex = none)
    (hjoint : s.appel = .stopJoint → s.joint = true) :
    ∃ e s', e.poursuit = true ∧ s.step e = some s' ∧ s'.reste < s.reste := by
  cases hap : s.appel with
  | libre => exact absurd hap ha
  | pipe flag =>
      obtain ⟨p, hp⟩ := Infinite.exists_notMem_finset s.objet.ouverts.toFinset
      rw [List.mem_toFinset] at hp
      refine ⟨.pipe (some p), _, rfl, by simp only [Systeme.step, hap, if_neg hp]; rfl, ?_⟩
      exact reste_lt_of_appel (.inl rfl) (by simp [hap, Appel.reste])
  | pthreadCreate flag =>
      have hnil := h.creation ⟨flag, .inr hap⟩
      refine ⟨.pthreadCreate true, _, rfl, by simp only [Systeme.step, hap]; rfl, ?_⟩
      simp [reste, hap, hnil, Appel.reste, Fil.cree, Pc.reste]
  | stopDrapeau =>
      have hnone := hmutex hap
      by_cases hfin : s.objet.arretThread = 2
      · refine ⟨.suite, s.rendStop, rfl, by simp [Systeme.step, suite, hap, hnone, hfin], ?_⟩
        exact reste_lt_of_appel (.inl rfl) (by simp [hap, Appel.reste, rendStop])
      · refine ⟨.suite, { s with appel := .stopEcrit }, rfl,
          by simp [Systeme.step, suite, hap, hnone, hfin], ?_⟩
        exact reste_lt_of_appel (.inl rfl) (by simp [hap, Appel.reste])
  | stopEcrit =>
      by_cases hpipe : s.objet.iIdPipe = none
      · refine ⟨.suite, s.rendStop, rfl, by simp [Systeme.step, suite, hap, hpipe], ?_⟩
        exact reste_lt_of_appel (.inl rfl) (by simp [hap, Appel.reste, rendStop])
      · refine ⟨.suite, _, rfl, by simp only [Systeme.step, suite, hap, if_neg hpipe]; rfl, ?_⟩
        exact reste_lt_of_appel (.inr rfl) (by simp [hap, Appel.reste])
  | stopTeste =>
      by_cases hj : s.objet.cAutoDelete = false ∧ s.objet.cIsdetachstate = false
      · refine ⟨.suite, _, rfl, by simp only [Systeme.step, suite, hap, if_pos hj]; rfl, ?_⟩
        exact reste_lt_of_appel (.inl rfl) (by simp [hap, Appel.reste])
      · refine ⟨.suite, _, rfl, by simp only [Systeme.step, suite, hap, if_neg hj]; rfl, ?_⟩
        exact reste_lt_of_appel (.inl rfl) (by simp [hap, Appel.reste])
  | stopJoint =>
      refine ⟨.suite, _, rfl, by simp only [Systeme.step, suite, hap, if_pos (hjoint hap)]; rfl, ?_⟩
      exact reste_lt_of_appel (.inl rfl) (by simp [hap, Appel.reste])
  | stopDetache | demEcrit | demLibere =>
      refine ⟨.suite, _, rfl, by simp only [Systeme.step, suite, hap]; rfl, ?_⟩
      exact reste_lt_of_appel (.inl rfl) (by simp [hap, Appel.reste, rendStop])
  | demPose =>
      refine ⟨.suite, _, rfl, by simp only [Systeme.step, suite, hap]; rfl, ?_⟩
      exact reste_lt_of_appel (.inr rfl) (by simp [hap, Appel.reste])

/-! ### The first step of a call -/

theorem create_possible (ha : s.appel = .libre) (hc : s.objet.classe ≠ .cTimer) :
    ∃ s', s.step .create = some s' ∧ s'.reste = s.reste + 2 := by
  refine ⟨_, if_pos ⟨ha, hc⟩, ?_⟩
  simp only [reste, ha, Appel.reste]
  omega

theorem start_possible (usec flag : ℕ) (ha : s.appel = .libre) (hc : s.objet.classe = .cTimer) :
    ∃ s', s.step (.start usec flag) = some s' ∧ s'.reste ≤ s.reste + 2 := by
  simp only [Systeme.step, ha, hc, and_self, if_true]
  split
  · refine ⟨_, rfl, ?_⟩
    simp only [reste, ha, Appel.reste]
    omega
  · exact ⟨_, rfl, Nat.le_add_right _ _⟩

theorem stop_possible (ha : s.appel = .libre) (hc : s.objet.classe = .cTimer) :
    ∃ s', s.step .stop = some s' ∧ s'.reste ≤ s.reste + 5 := by
  simp only [Systeme.step, ha, hc, and_self, if_true]
  split <;> refine ⟨_, rfl, ?_⟩ <;> simp only [reste, rendStop, ha, Appel.reste] <;> omega

theorem demande_possible (ha : s.appel = .libre) (hm : s.objet.mutex = none) :
    ∃ s', s.step .demande = some s' ∧ s'.reste = s.reste + 3 := by
  refine ⟨_, if_pos ⟨ha, hm⟩, ?_⟩
  simp only [reste, ha, Appel.reste]
  omega

end Systeme

end GestAqua
