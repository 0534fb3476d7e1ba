import GestAqua.Source.AquaGest
import GestAqua.Threads.Moves

/-!
The main program.

`main` destroys the main task after it has joined its thread, and the end of that thread is
its last step. Nothing but an error ends it: `main` asks nothing of the object, so the flag
stays down and the pipe empty, and the loop of the main task only ends when `select` or
`pipe` fails. The two loops that stop what is running come after it.
-/

namespace GestAqua

theorem Systeme.step_fil_eq_some {s s' : Systeme} {k : ℕ} {c : Choix}
    (h : s.step (.fil k c) = some s') :
    ∃ f o' f', s.fils[k]? = some f ∧ f.step s.objet k c = some (o', f') ∧
      s' = { s with objet := o', fils := s.fils.set k f' } := by
  simp only [Systeme.step] at h
  split at h
  · rename_i f hk
    obtain ⟨⟨o', f'⟩, hr, rfl⟩ := Option.map_eq_some_iff.mp h
    exact ⟨f, o', f', hk, hr, rfl⟩
  · cases h

theorem Fil.step_of_termine {o : CThread} {k : ℕ} {f : Fil} {c : Choix} (h : f.pc = .termine) :
    f.step o k c = none := by
  cases c <;> simp [Fil.step, h]

/-- Only a thread that deletes its object destroys it. -/
theorem Fil.Mouvement.detruit_eq {o o' : CThread} {k : ℕ} {f f' : Fil} {c : Choix}
    (h : f.Mouvement o k c o' f') (ha : o.cAutoDelete = false) : o'.detruit = o.detruit := by
  cases h with
  | detruit _ hauto =>
      rw [ha] at hauto
      cases hauto
  | _ => rfl

namespace Programme

variable {m m' : Programme} {e : EvtThread}

/-! ### The destruction -/

/-- What `main` has done so far, and that it waits for the thread it has created before it
goes on. -/
structure EnOrdre (m : Programme) : Prop where
  attend : m.attendFin = true
  detruit : m.systeme.objet.detruit = true → m.etape = .fini
  sansFil : m.etape = .create ∨ m.etape = .pipe ∨ m.etape = .pthreadCreate → m.systeme.fils = []
  unFil : m.systeme.fils.length ≤ 1
  fini : m.etape = .retour ∨ m.etape = .fini → ∀ f ∈ m.systeme.fils, f.pc = .termine

/-- A join that returns has found the only thread at its end. -/
theorem termine_of_joint {s : Systeme} (h : s.joint = true) (hun : s.fils.length ≤ 1) :
    ∀ f ∈ s.fils, f.pc = .termine := by
  intro f hf
  obtain ⟨g, hg⟩ := List.length_eq_one_iff.mp
    (Nat.le_antisymm hun (List.length_pos_of_mem hf))
  rw [hg, List.mem_singleton] at hf
  simpa [Systeme.joint, hg, hf] using h

theorem EnOrdre.step (h : m.EnOrdre) (hs : m.step e = some m') : m'.EnOrdre := by
  cases e with
  | create =>
      simp only [Programme.step] at hs
      split at hs
      · rename_i hetape
        obtain ⟨s, hgeste, rfl⟩ := Option.map_eq_some_iff.mp hs
        cases Systeme.geste_of_step hgeste with
        | create => exact ⟨h.attend, fun hd => absurd (h.detruit hd) (by simp [hetape]),
            fun _ => h.sansFil (.inl hetape), h.unFil, by simp⟩
      · cases hs
  | pipe fd =>
      simp only [Programme.step] at hs
      split at hs
      · rename_i hetape
        have hsans := h.sansFil (.inr (.inl hetape))
        have hdetruit : ¬ m.systeme.objet.detruit = true := fun hd => by
          simpa [hetape] using h.detruit hd
        obtain ⟨s, hgeste, rfl⟩ := Option.map_eq_some_iff.mp hs
        cases Systeme.geste_of_step hgeste with
        | pipe | sansPipe =>
            exact ⟨h.attend, fun hd => absurd hd hdetruit, fun _ => hsans, h.unFil, by
              simp [hsans]⟩
      · cases hs
  | pthreadCreate reussi =>
      simp only [Programme.step] at hs
      split at hs
      · rename_i hetape
        have hsans := h.sansFil (.inr (.inr hetape))
        have hdetruit : ¬ m.systeme.objet.detruit = true := fun hd => by
          simpa [hetape] using h.detruit hd
        obtain ⟨s, hgeste, rfl⟩ := Option.map_eq_some_iff.mp hs
        cases Systeme.geste_of_step hgeste with
        | pthreadCreate | sansFil =>
            exact ⟨h.attend, fun hd => absurd hd hdetruit, by simp, by simp [hsans], by simp⟩
      · cases hs
  | suite =>
      simp only [Programme.step] at hs
      split at hs
      · rename_i hetape
        split at hs
        · cases hs
        · rename_i hjoint
          cases hs
          have hfini := termine_of_joint
            (by simpa [h.attend] using hjoint : m.systeme.joint = true) h.unFil
          exact ⟨h.attend, fun hd => absurd (h.detruit hd) (by simp [hetape]), by simp, h.unFil,
            fun _ => hfini⟩
      · rename_i hetape
        cases hs
        exact ⟨h.attend, fun _ => rfl, by simp, h.unFil, fun _ => h.fini (.inl hetape)⟩
      · cases hs
  | fil k c =>
      obtain ⟨s, hfil, rfl⟩ := Option.map_eq_some_iff.mp hs
      obtain ⟨f, o', f', hk, hstep, rfl⟩ := Systeme.step_fil_eq_some hfil
      have hmem := List.mem_of_getElem? hk
      have hm := Fil.mouvement_of_step hstep
      obtain ⟨-, hauto, hdetache⟩ := hm.constantes
      have hattend := h.attend
      simp only [attendFin, Bool.and_eq_true, Bool.not_eq_true'] at hattend
      refine ⟨?_, fun hd => h.detruit ?_, fun hetape => ?_, ?_, fun hetape => ?_⟩
      · simp [attendFin, hauto, hdetache, hattend]
      · rwa [hm.detruit_eq hattend.1.1] at hd
      · rw [h.sansFil hetape] at hk
        cases hk
      · rw [List.length_set]
        exact h.unFil
      · rw [Fil.step_of_termine (h.fini hetape f hmem)] at hstep
        cases hstep
  | start | stop | demande => cases hs

theorem EnOrdre.depart (classe : Classe) (arretThread : ℕ) :
    (depart classe arretThread false false true).EnOrdre :=
  ⟨rfl, by simp [Programme.depart, Systeme.neuf, CThread.construit], fun _ => rfl,
    Nat.zero_le _, by simp [Programme.depart]⟩

/-- In every run of a program that waits for the end of the thread, whichever class the
object has, the thread has ended when the object is destroyed, and nothing more happens to
the object. -/
theorem detruit_apres_fin {classe : Classe} {arretThread : ℕ} {es : List EvtThread}
    (h : Execution.exec step (depart classe arretThread false false true) es = some m)
    (hd : m.systeme.objet.detruit = true) :
    (∀ f ∈ m.systeme.fils, f.pc = .termine) ∧ ∀ e, m.step e = none := by
  have hm : m.EnOrdre :=
    Execution.exec_invariant (fun _ _ _ hI hs => hI.step hs) (.depart classe arretThread) h
  have hetape := hm.detruit hd
  have hfini := hm.fini (.inr hetape)
  refine ⟨hfini, fun e => ?_⟩
  cases e with
  | fil k c =>
      by_contra hne
      obtain ⟨m', hm'⟩ := Option.ne_none_iff_exists'.mp hne
      obtain ⟨s, hs, -⟩ := Option.map_eq_some_iff.mp hm'
      obtain ⟨f, o', f', hk, hstep, -⟩ := Systeme.step_fil_eq_some hs
      rw [Fil.step_of_termine (hfini f (List.mem_of_getElem? hk))] at hstep
      cases hstep
  | create | pipe | pthreadCreate | suite => simp [Programme.step, hetape]
  | start | stop | demande => rfl

def enRoute : List EvtThread :=
  [.create, .pipe (some 3), .pthreadCreate true] ++ List.replicate 8 .pas

/-- `select` fails, and the program ends. -/
theorem detruit_apres_fin_erreur : ∃ m : Programme,
    Execution.exec step (aquaGest 0) (enRoute ++ .fil 0 .erreur ::
      List.replicate 6 .pas ++ [.suite, .suite]) = some m ∧
      (∀ f ∈ m.systeme.fils, f.pc = .termine) ∧ ∀ e, m.step e = none := by
  obtain ⟨m, hm⟩ := Option.isSome_iff_exists.mp
    (show (Execution.exec step (aquaGest 0) (enRoute ++ .fil 0 .erreur ::
      List.replicate 6 .pas ++ [.suite, .suite])).isSome = true by decide +kernel)
  refine ⟨m, hm, detruit_apres_fin hm ?_⟩
  have hval : (Execution.exec step (aquaGest 0) (enRoute ++ .fil 0 .erreur ::
      List.replicate 6 .pas ++ [.suite, .suite])).map (·.systeme.objet.detruit) = some true := by
    decide +kernel
  rw [hm] at hval
  exact Option.some.inj hval

/-! ### The end -/

structure Veille (o : CThread) (p : ℕ) (f : Fil) : Prop where
  pipe : o.iIdPipe = some p
  vide : o.lisibles = []
  classe : o.classe ≠ .cTimer
  arret : f.pc ≠ .initVerrou → f.pc ≠ .initPose → o.arretThread = 0
  boucle : f.pc.horsBoucle = false
  sansLecture : f.pc ≠ .lisible

theorem Veille.step {o o' : CThread} {p k : ℕ} {f f' : Fil} {c : Choix} (h : Veille o p f)
    (hc : c ≠ .erreur) (hs : f.step o k c = some (o', f')) : Veille o' p f' := by
  have hsuite : ∀ f'' : Fil, f.pc ≠ .initVerrou → f.pc ≠ .initPose → f''.pc.horsBoucle = false →
      f''.pc ≠ .lisible → Veille o p f'' := fun f'' hverrou hpose hboucle hlecture =>
    ⟨h.pipe, h.vide, h.classe, fun _ _ => h.arret hverrou hpose, hboucle, hlecture⟩
  cases Fil.mouvement_of_step hs with
  | initVerrou => exact { h with arret := fun _ hpose => absurd rfl hpose, boucle := rfl,
                                 sansLecture := by simp }
  | initPose => exact { h with arret := fun _ _ => rfl, boucle := rfl, sansLecture := by simp }
  | initLibere hpc =>
      exact { h with arret := fun _ _ => h.arret (by simp [hpc]) (by simp [hpc]), boucle := rfl,
                     sansLecture := by simp }
  | entreeAutre hpc | prepare hpc | entre hpc | arme hpc | charge hpc | expire hpc
  | interrompu hpc | agit hpc | action hpc | recommence hpc =>
      exact hsuite _ (by simp [hpc]) (by simp [hpc]) rfl (by simp)
  -- a timer, a missing pipe, a flag that is up, something to read
  | entreeGarde _ hclasse | entreeTimer _ hclasse => exact absurd hclasse h.classe
  | prepareGarde _ hp => simp [h.pipe] at hp
  | drapeau hpc _ ha | renonce hpc _ ha =>
      exact absurd (h.arret (by simp [hpc]) (by simp [hpc])) ha
  | lisible _ hp => simp [CThread.pret, h.vide] at hp
  | quitte hpc | ignore hpc => exact absurd hpc h.sansLecture
  | erreur => exact absurd rfl hc
  | oneshot hpc =>
      have hautre : ¬ (o.classe = .cTimer ∧ o.timer.estOneshot = true) := fun hone =>
        h.classe hone.1
      simp only [Fil.step, hpc, if_neg hautre, Option.some.injEq, Prod.mk.injEq] at hs
      rw [← hs.2]
      exact hsuite _ (by simp [hpc]) (by simp [hpc]) rfl (by simp)
  | sortieTimer hpc | sortieAutre hpc | finVerrou hpc | finPose hpc | finEcrit hpc
  | finLibere hpc | detruit hpc | termine hpc =>
      have hboucle := h.boucle
      rw [hpc] at hboucle
      cases hboucle

/-- What `main` waits for, as long as nothing has failed. -/
def EnVeille (m : Programme) : Prop :=
  match m.etape with
  | .create => m.systeme.fils = [] ∧ m.systeme.objet.lisibles = []
  | .pipe => m.systeme.fils = [] ∧ m.systeme.objet.lisibles = [] ∧
      m.systeme.objet.classe ≠ .cTimer
  | .pthreadCreate => m.systeme.fils = [] ∧ m.systeme.objet.lisibles = [] ∧
      m.systeme.objet.classe ≠ .cTimer ∧ m.systeme.objet.iIdPipe.isSome = true
  | .joint => ∃ p f, m.systeme.fils = [f] ∧ Veille m.systeme.objet p f
  | .retour | .fini => False

/-- A label without failure: `pipe` and `pthread_create` succeed, and `select` does not
return an error other than an interruption. -/
def SansEchec : EvtThread → Prop
  | .pipe fd => fd.isSome = true
  | .pthreadCreate reussi => reussi = true
  | .fil _ c => c ≠ .erreur
  | _ => True

theorem EnVeille.sansFil (h : m.EnVeille) (hetape : m.etape ≠ .joint) : m.systeme.fils = [] := by
  unfold EnVeille at h
  split at h
  · exact h.1
  · exact h.1
  · exact h.1
  · exact absurd ‹_› hetape
  all_goals exact h.elim

theorem EnVeille.step (hw : m.attendFin = true) (h : m.EnVeille) (he : SansEchec e)
    (hs : m.step e = some m') : m'.EnVeille := by
  cases e with
  | create =>
      simp only [Programme.step] at hs
      split at hs
      · rename_i hetape
        simp only [EnVeille, hetape] at h
        obtain ⟨s, hgeste, rfl⟩ := Option.map_eq_some_iff.mp hs
        cases Systeme.geste_of_step hgeste with
        | create _ hclasse => exact ⟨h.1, h.2, hclasse⟩
      · cases hs
  | pipe fd =>
      simp only [Programme.step] at hs
      split at hs
      · rename_i hetape
        simp only [EnVeille, hetape] at h
        obtain ⟨s, hgeste, rfl⟩ := Option.map_eq_some_iff.mp hs
        cases Systeme.geste_of_step hgeste with
        | pipe => exact ⟨h.1, h.2.1, h.2.2, rfl⟩
        | sansPipe => cases he
      · cases hs
  | pthreadCreate reussi =>
      simp only [Programme.step] at hs
      split at hs
      · rename_i hetape
        simp only [EnVeille, hetape] at h
        obtain ⟨hfils, hvide, hclasse, hpipe⟩ := h
        obtain ⟨p, hp⟩ := Option.isSome_iff_exists.mp hpipe
        obtain ⟨s, hgeste, rfl⟩ := Option.map_eq_some_iff.mp hs
        cases Systeme.geste_of_step hgeste with
        | @pthreadCreate flag =>
            exact ⟨p, .cree flag, by simp [hfils],
              ⟨hp, hvide, hclasse, fun hne => absurd rfl hne, rfl, by simp [Fil.cree]⟩⟩
        | sansFil => cases he
      · cases hs
  | suite =>
      simp only [Programme.step] at hs
      split at hs
      · rename_i hetape
        simp only [EnVeille, hetape] at h
        obtain ⟨p, f, hfils, hveille⟩ := h
        split at hs
        · cases hs
        · -- the join has not come to an end
          rename_i hjoint
          have hfini : f.pc = .termine := by simpa [hw, Systeme.joint, hfils] using hjoint
          have hboucle := hveille.boucle
          rw [hfini] at hboucle
          cases hboucle
      · rename_i hetape
        simp only [EnVeille, hetape] at h
      · cases hs
  | fil k c =>
      obtain ⟨s, hfil, rfl⟩ := Option.map_eq_some_iff.mp hs
      obtain ⟨f, o', f', hk, hstep, rfl⟩ := Systeme.step_fil_eq_some hfil
      by_cases hetape : m.etape = .joint
      · simp only [EnVeille, hetape] at h ⊢
        obtain ⟨p, g, hfils, hveille⟩ := h
        rw [hfils] at hk ⊢
        obtain ⟨rfl, rfl⟩ := Systeme.getElem?_seul hk
        exact ⟨p, f', rfl, hveille.step he hstep⟩
      · rw [h.sansFil hetape] at hk
        cases hk
  | start | stop | demande => cases hs

/-- As long as nothing fails, the main task stays in its loop: `main` does not come back
from `Create`, and nothing that is running is stopped. -/
theorem sans_fin {classe : Classe} {arretThread : ℕ} {es : List EvtThread}
    (he : ∀ e ∈ es, SansEchec e)
    (h : Execution.exec step (depart classe arretThread false false true) es = some m) :
    m.etape ≠ .retour ∧ m.systeme.objet.detruit = false ∧
      ∀ f ∈ m.systeme.fils, f.pc.horsBoucle = false := by
  obtain ⟨hordre, hveille⟩ : m.EnOrdre ∧ m.EnVeille :=
    Execution.exec_invariant_of_labels (I := fun m => m.EnOrdre ∧ m.EnVeille)
      (fun _ _ _ hI he hs => ⟨hI.1.step hs, hI.2.step hI.1.attend he hs⟩) he
      ⟨.depart classe arretThread, rfl, rfl⟩ h
  have hfini : m.etape ≠ .retour ∧ m.etape ≠ .fini := by
    constructor <;> intro hetape <;> simp [EnVeille, hetape] at hveille
  refine ⟨hfini.1, by simpa using fun hd => hfini.2 (hordre.detruit hd), fun f hf => ?_⟩
  by_cases hetape : m.etape = .joint
  · simp only [EnVeille, hetape] at hveille
    obtain ⟨p, g, hfils, hveille⟩ := hveille
    rw [hfils, List.mem_singleton] at hf
    rw [hf]
    exact hveille.boucle
  · rw [hveille.sansFil hetape] at hf
    cases hf

/-- A second of the main task, interrupted once. -/
theorem sans_fin_une_seconde : ∃ m : Programme,
    Execution.exec step (aquaGest 0) (enRoute ++ [.fil 0 .interrompu, .pas, .pas, .pas,
      .fil 0 .expire, .pas, .pas]) = some m ∧ (∀ f ∈ m.systeme.fils, f.pc.horsBoucle = false) := by
  obtain ⟨m, hm⟩ := Option.isSome_iff_exists.mp
    (show (Execution.exec step (aquaGest 0) (enRoute ++ [.fil 0 .interrompu, .pas, .pas, .pas,
      .fil 0 .expire, .pas, .pas])).isSome = true by decide +kernel)
  exact ⟨m, hm, (sans_fin (by simp [enRoute, SansEchec, EvtThread.pas]) hm).2.2⟩

end Programme

end GestAqua
