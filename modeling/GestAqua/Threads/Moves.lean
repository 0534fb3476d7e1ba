import GestAqua.Base.Execution
import GestAqua.Source.Thread

/-!
What a step of a thread and a step of the owner can do.

`Mouvement` has one constructor for each transition of a thread and `Geste` one
for each transition of the owner, with the tests that lead to it. The invariants
of the threads are proved by cases on these two relations.
-/

namespace GestAqua

namespace Pc

def horsBoucle : Pc → Bool
  | .sortie | .finVerrou | .finPose | .finEcrit | .finLibere | .destruction | .termine => true
  | _ => false

theorem horsBoucle_of_termine {pc : Pc} (h : pc = .termine) : pc.horsBoucle = true := by
  rw [h]
  rfl

/-- The thread is past `m_bStarted=true`. -/
def demarre : Pc → Bool
  | .initVerrou | .initPose | .initLibere | .entree => false
  | _ => true

/-- The thread is between `m_bStarted=true` and `m_bStarted=false`. -/
def enCorps : Pc → Bool
  | .prepare | .boucle | .arme | .charge | .attend | .lisible | .expire | .action | .apres
  | .sortie => true
  | _ => false

def revenu : Pc → Bool
  | .finVerrou | .finPose | .finEcrit | .finLibere | .destruction | .termine => true
  | _ => false

theorem revenu_of_demarre {pc : Pc} (hd : pc.demarre = true) (hc : pc.enCorps = false) :
    pc.revenu = true := by
  revert hd hc
  cases pc <;> decide

theorem not_enCorps_of_revenu {pc : Pc} (h : pc.revenu = true) : pc.enCorps = false := by
  revert h
  cases pc <;> decide

def entreDrapeaux (pc : Pc) : Bool := pc == .initLibere || pc == .entree || pc.enCorps

end Pc

/-- The transitions of thread `k`. -/
inductive Fil.Mouvement (o : CThread) (k : ℕ) (f : Fil) : Choix → CThread → Fil → Prop
  | initVerrou (hpc : f.pc = .initVerrou) (hm : o.mutex = none) :
      Mouvement o k f .suite { o with mutex := some (.fil k) } { f with pc := .initPose }
  | initPose (hpc : f.pc = .initPose) :
      Mouvement o k f .suite { o with arretThread := 0 } { f with pc := .initLibere }
  | initLibere (hpc : f.pc = .initLibere) :
      Mouvement o k f .suite { o with mutex := none } { f with pc := .entree }
  | entreeGarde (hpc : f.pc = .entree) (hc : o.classe = .cTimer)
      (hu : o.timer.ui64TpsUsec = 0) :
      Mouvement o k f .suite o { f with pc := .finVerrou, cause := some .garde }
  | entreeTimer (hpc : f.pc = .entree) (hc : o.classe = .cTimer)
      (hu : o.timer.ui64TpsUsec ≠ 0) :
      Mouvement o k f .suite { o with timer := { o.timer with bStarted := true } }
        { f with pc := .prepare }
  | entreeAutre (hpc : f.pc = .entree) (hc : o.classe ≠ .cTimer) :
      Mouvement o k f .suite o { f with pc := .prepare }
  | prepareGarde (hpc : f.pc = .prepare) (hp : o.iIdPipe = none) :
      Mouvement o k f .suite o (f.quitte .garde)
  | prepare (hpc : f.pc = .prepare) (p : ℕ) (hp : o.iIdPipe = some p) :
      Mouvement o k f .suite o { f with pc := .boucle, n := p + 1, rfds := [] }
  | entre (hpc : f.pc = .boucle) (hm : o.mutex = none) (ha : o.arretThread = 0) :
      Mouvement o k f .suite o { f with pc := .arme, entrees := f.entrees + 1 }
  | drapeau (hpc : f.pc = .boucle) (hm : o.mutex = none) (ha : o.arretThread ≠ 0) :
      Mouvement o k f .suite o (f.quitte .drapeau)
  | arme (hpc : f.pc = .arme) :
      Mouvement o k f .suite o { f with pc := .charge, rfds := o.iIdPipe.toList ++ f.rfds }
  | charge (hpc : f.pc = .charge) :
      Mouvement o k f .suite o { f with pc := .attend }
  | lisible (hpc : f.pc = .attend) (hp : o.pret f.n f.rfds = true) :
      Mouvement o k f .lisible o { f with pc := .lisible, rfds := f.reste o }
  | expire (hpc : f.pc = .attend) (hp : o.pret f.n f.rfds = false) :
      Mouvement o k f .expire o { f with pc := .expire, rfds := f.reste o }
  | interrompu (hpc : f.pc = .attend) :
      Mouvement o k f .interrompu o { f with pc := .boucle }
  | erreur (hpc : f.pc = .attend) :
      Mouvement o k f .erreur o (f.quitte .erreur)
  | quitte (hpc : f.pc = .lisible) :
      Mouvement o k f .suite o (f.quitte .lisible)
  | ignore (hpc : f.pc = .lisible) (hp : ∀ p, o.iIdPipe = some p → p ∉ f.rfds) :
      Mouvement o k f .suite o { f with pc := .boucle }
  | agit (hpc : f.pc = .expire) (hm : o.mutex = none) (ha : o.arretThread = 0) :
      Mouvement o k f .suite o { f with pc := .action }
  | renonce (hpc : f.pc = .expire) (hm : o.mutex = none) (ha : o.arretThread ≠ 0) :
      Mouvement o k f .suite o { f with pc := .boucle }
  | action (hpc : f.pc = .action) :
      Mouvement o k f .suite o { f with pc := .apres, rappels := f.rappels + 1 }
  | oneshot (hpc : f.pc = .apres) (hf : o.timer.estOneshot = true) :
      Mouvement o k f .suite o (f.quitte .oneshot)
  | recommence (hpc : f.pc = .apres) (hf : o.classe = .cTimer → o.timer.estOneshot = false) :
      Mouvement o k f .suite o { f with pc := .boucle }
  | sortieTimer (hpc : f.pc = .sortie) (hc : o.classe = .cTimer) :
      Mouvement o k f .suite { o with timer := { o.timer with bStarted := false } }
        { f with pc := .finVerrou }
  | sortieAutre (hpc : f.pc = .sortie) (hc : o.classe ≠ .cTimer) :
      Mouvement o k f .suite o { f with pc := .finVerrou }
  | finVerrou (hpc : f.pc = .finVerrou) (hm : o.mutex = none) :
      Mouvement o k f .suite { o with mutex := some (.fil k) } { f with pc := .finPose }
  | finPose (hpc : f.pc = .finPose) :
      Mouvement o k f .suite { o with arretThread := 2 } { f with pc := .finEcrit }
  | finEcrit (hpc : f.pc = .finEcrit) :
      Mouvement o k f .suite o.ecrit { f with pc := .finLibere }
  | finLibere (hpc : f.pc = .finLibere) :
      Mouvement o k f .suite { o with mutex := none } { f with pc := .destruction }
  | detruit (hpc : f.pc = .destruction) (ha : o.cAutoDelete = true) :
      Mouvement o k f .suite { o with detruit := true, iIdPipe := none } { f with pc := .termine }
  | termine (hpc : f.pc = .destruction) (ha : o.cAutoDelete = false) :
      Mouvement o k f .suite o { f with pc := .termine }

namespace Fil

theorem mouvement_of_suite {o o' : CThread} {k : ℕ} {f f' : Fil}
    (h : f.step o k .suite = some (o', f')) : Mouvement o k f .suite o' f' := by
  cases hpc : f.pc <;> simp only [step, hpc] at h
  case initVerrou =>
    split at h
    · cases h
      exact .initVerrou hpc ‹_›
    · cases h
  case initPose =>
    cases h
    exact .initPose hpc
  case initLibere =>
    cases h
    exact .initLibere hpc
  case entree =>
    split at h
    · split at h
      · cases h
        exact .entreeGarde hpc ‹_› ‹_›
      · cases h
        exact .entreeTimer hpc ‹_› ‹_›
    · cases h
      exact .entreeAutre hpc ‹_›
  case prepare =>
    split at h
    · cases h
      exact .prepareGarde hpc ‹_›
    · cases h
      exact .prepare hpc _ ‹_›
  case boucle =>
    split at h
    · split at h
      · cases h
        exact .entre hpc ‹_› ‹_›
      · cases h
        exact .drapeau hpc ‹_› ‹_›
    · cases h
  case arme =>
    cases h
    exact .arme hpc
  case charge =>
    split at h
    · cases h
    · cases h
      exact .charge hpc
  case attend => cases h
  case lisible =>
    split at h
    · cases h
      exact .quitte hpc
    · rename_i hne
      cases h
      exact .ignore hpc fun p hp hmem => hne (.inr ⟨p, hp, hmem⟩)
  case expire =>
    split at h
    · split at h
      · cases h
        exact .agit hpc ‹_› ‹_›
      · cases h
        exact .renonce hpc ‹_› ‹_›
    · cases h
  case action =>
    cases h
    exact .action hpc
  case apres =>
    split at h
    · rename_i hone
      cases h
      exact .oneshot hpc hone.2
    · rename_i hne
      cases h
      exact .recommence hpc fun hc => by simpa using fun hone => hne ⟨hc, hone⟩
  case sortie =>
    split at h
    · cases h
      exact .sortieTimer hpc ‹_›
    · cases h
      exact .sortieAutre hpc ‹_›
  case finVerrou =>
    split at h
    · cases h
      exact .finVerrou hpc ‹_›
    · cases h
  case finPose =>
    cases h
    exact .finPose hpc
  case finEcrit =>
    cases h
    exact .finEcrit hpc
  case finLibere =>
    cases h
    exact .finLibere hpc
  case destruction =>
    split at h
    · cases h
      exact .detruit hpc ‹_›
    · rename_i hauto
      cases h
      exact .termine hpc (by simpa using hauto)
  case termine => cases h

theorem mouvement_of_step {o o' : CThread} {k : ℕ} {f f' : Fil} {c : Choix}
    (h : f.step o k c = some (o', f')) : Mouvement o k f c o' f' := by
  cases c with
  | suite => exact mouvement_of_suite h
  | lisible =>
      simp only [step] at h
      split at h
      · rename_i hpc
        cases h
        exact .lisible hpc.1 hpc.2
      · cases h
  | expire =>
      simp only [step] at h
      split at h
      · rename_i hpc
        cases h
        exact .expire hpc.1 hpc.2
      · cases h
  | interrompu =>
      simp only [step] at h
      split at h
      · cases h
        exact .interrompu ‹_›
      · cases h
  | erreur =>
      simp only [step] at h
      split at h
      · cases h
        exact .erreur ‹_›
      · cases h

end Fil

namespace Fil.Mouvement

variable {o o' : CThread} {k : ℕ} {f f' : Fil} {c : Choix}

theorem demarre (h : f.Mouvement o k c o' f') (hpc : f.pc.demarre = true) :
    f'.pc.demarre = true := by
  cases h with
  | initVerrou hpc' | initPose hpc' | initLibere hpc' =>
      rw [hpc'] at hpc
      cases hpc
  | _ => rfl

/-- The thread of a timer keeps `m_bStarted` set while it is in its body. -/
theorem started (h : f.Mouvement o k c o' f') (hc : o.classe = .cTimer)
    (hb : o.timer.bStarted = f.pc.enCorps) : o'.timer.bStarted = f'.pc.enCorps := by
  cases h with
  | entreeTimer | sortieTimer => rfl
  | entreeAutre _ hc' | sortieAutre _ hc' => exact absurd hc hc'
  | _ hpc =>
      rw [hpc] at hb
      exact hb

/-- Between the two writes of the thread the flag is not `2`. -/
theorem arret (h : f.Mouvement o k c o' f')
    (ha : f.pc.entreDrapeaux = true → o.arretThread ≠ 2) (hpc' : f'.pc.entreDrapeaux = true) :
    o'.arretThread ≠ 2 := by
  cases h with
  | initPose => exact Nat.zero_ne_add_one 1
  | initVerrou | entreeGarde | sortieTimer | sortieAutre | finVerrou | finPose | finEcrit
  | finLibere | detruit | termine => cases hpc'
  | _ hpc =>
      apply ha
      rw [hpc]
      rfl

theorem constantes (h : f.Mouvement o k c o' f') : o'.classe = o.classe ∧
    o'.cAutoDelete = o.cAutoDelete ∧ o'.cIsdetachstate = o.cIsdetachstate := by
  cases h <;> exact ⟨rfl, rfl, rfl⟩

theorem timer (h : f.Mouvement o k c o' f') :
    o'.timer.ui64TpsUsec = o.timer.ui64TpsUsec ∧ o'.timer.uiFlagEvent = o.timer.uiFlagEvent := by
  cases h <;> exact ⟨rfl, rfl⟩

theorem horsBoucle (h : f.Mouvement o k c o' f') (hout : f.pc.horsBoucle = true) :
    f'.pc.horsBoucle = true := by
  cases h with
  | sortieTimer | sortieAutre | finVerrou | finPose | finEcrit | finLibere | detruit | termine =>
      rfl
  | _ hpc =>
      rw [hpc] at hout
      cases hout

theorem revenu (h : f.Mouvement o k c o' f') (hrev : f.pc.revenu = true) :
    f'.pc.revenu = true := by
  cases h with
  | finVerrou | finPose | finEcrit | finLibere | detruit | termine => rfl
  | _ hpc =>
      rw [hpc] at hrev
      cases hrev

/-- A thread whose `Thread` has returned leaves the members of the timer. -/
theorem timer_of_revenu (h : f.Mouvement o k c o' f') (hrev : f.pc.revenu = true) :
    o'.timer = o.timer := by
  cases h with
  | entreeTimer hpc | sortieTimer hpc =>
      rw [hpc] at hrev
      cases hrev
  | _ => rfl

theorem lisibles (h : f.Mouvement o k c o' f') {p : ℕ} (hp : p ∈ o.lisibles) :
    p ∈ o'.lisibles := by
  cases h with
  | finEcrit => exact List.mem_append_right _ hp
  | _ => exact hp

end Fil.Mouvement

namespace Systeme

/-- The transitions of the whole: a thread moves, or the owner does. -/
inductive Geste (s : Systeme) : EvtThread → Systeme → Prop
  | fil {k : ℕ} {f f' : Fil} {c : Choix} {o' : CThread} (hk : s.fils[k]? = some f)
      (h : f.Mouvement s.objet k c o' f') :
      Geste s (.fil k c) { s with objet := o', fils := s.fils.set k f' }
  | startVain (usec flag : ℕ) (ha : s.appel = .libre) : Geste s (.start usec flag) s
  | start {usec flag : ℕ} (ha : s.appel = .libre) (hb : s.objet.timer.bStarted = false)
      (hu : usec ≠ 0) :
      Geste s (.start usec flag) { s with
        objet := { s.objet with timer := ⟨false, usec, some (), flag⟩ }
        appel := .pipe flag }
  | create (ha : s.appel = .libre) (hc : s.objet.classe ≠ .cTimer) :
      Geste s .create { s with appel := .pipe 0 }
  | pipe {flag p : ℕ} (ha : s.appel = .pipe flag) (hp : p ∉ s.objet.ouverts) :
      Geste s (.pipe (some p)) { s with
        objet := { s.objet with iIdPipe := some p, ouverts := p :: s.objet.ouverts }
        appel := .pthreadCreate flag }
  | sansPipe {flag : ℕ} (ha : s.appel = .pipe flag) :
      Geste s (.pipe none) { s with
        objet := { s.objet with iIdPipe := none }
        appel := .libre }
  | pthreadCreate {flag : ℕ} (ha : s.appel = .pthreadCreate flag) :
      Geste s (.pthreadCreate true) { s with
        fils := s.fils ++ [.cree flag]
        appel := .libre }
  | sansFil {flag : ℕ} (ha : s.appel = .pthreadCreate flag) :
      Geste s (.pthreadCreate false) { s with appel := .libre }
  | stopVain (ha : s.appel = .libre) (hb : s.objet.timer.bStarted = false) :
      Geste s .stop { s with avant := s.avantAction }.rendStop
  | stop (ha : s.appel = .libre) (hb : s.objet.timer.bStarted = true) :
      Geste s .stop { s with appel := .stopDrapeau, avant := s.avantAction }
  | stopFini (ha : s.appel = .stopDrapeau) (hf : s.objet.arretThread = 2) :
      Geste s .suite s.rendStop
  | stopDrapeau (ha : s.appel = .stopDrapeau) (hf : s.objet.arretThread ≠ 2) :
      Geste s .suite { s with appel := .stopEcrit }
  | stopFerme (ha : s.appel = .stopEcrit) (hp : s.objet.iIdPipe = none) :
      Geste s .suite s.rendStop
  | stopEcrit (ha : s.appel = .stopEcrit) (p : ℕ) (hp : s.objet.iIdPipe = some p) :
      Geste s .suite { s with objet := s.objet.ecrit, fils := s.marque, appel := .stopTeste }
  | stopJoint (ha : s.appel = .stopTeste)
      (hj : s.objet.cAutoDelete = false ∧ s.objet.cIsdetachstate = false) :
      Geste s .suite { s with appel := .stopJoint }
  | stopLibre (ha : s.appel = .stopTeste)
      (hj : ¬ (s.objet.cAutoDelete = false ∧ s.objet.cIsdetachstate = false)) :
      Geste s .suite { s with appel := .stopDetache }
  | joint (ha : s.appel = .stopJoint) (hj : s.joint = true) :
      Geste s .suite { s with appel := .stopDetache }
  | stopDetache (ha : s.appel = .stopDetache) :
      Geste s .suite ({ s with objet := { s.objet with
        timer := { s.objet.timer with hObjetAttache := none } } } : Systeme).rendStop
  | demande (ha : s.appel = .libre) (hm : s.objet.mutex = none) :
      Geste s .demande { s with
        objet := { s.objet with mutex := some .proprietaire }
        appel := .demPose }
  | demPose (ha : s.appel = .demPose) :
      Geste s .suite { s with
        objet := { s.objet with arretThread := 1 }
        fils := s.marque
        appel := .demEcrit }
  | demEcrit (ha : s.appel = .demEcrit) :
      Geste s .suite { s with objet := s.objet.ecrit, appel := .demLibere }
  | demLibere (ha : s.appel = .demLibere) :
      Geste s .suite { s with objet := { s.objet with mutex := none }, appel := .libre }

theorem geste_of_suite {s s' : Systeme} (h : s.suite = some s') : Geste s .suite s' := by
  cases ha : s.appel <;> simp only [suite, ha] at h
  case libre => cases h
  case pipe => cases h
  case pthreadCreate => cases h
  case stopDrapeau =>
    split at h
    · split at h
      · cases h
        exact .stopFini ha ‹_›
      · cases h
        exact .stopDrapeau ha ‹_›
    · cases h
  case stopEcrit =>
    split at h
    · cases h
      exact .stopFerme ha ‹_›
    · rename_i hp
      cases h
      obtain ⟨p, hp⟩ := Option.ne_none_iff_exists'.mp hp
      exact .stopEcrit ha p hp
  case stopTeste =>
    split at h
    · cases h
      exact .stopJoint ha ‹_›
    · cases h
      exact .stopLibre ha ‹_›
  case stopJoint =>
    split at h
    · cases h
      exact .joint ha ‹_›
    · cases h
  case stopDetache =>
    cases h
    exact .stopDetache ha
  case demPose =>
    cases h
    exact .demPose ha
  case demEcrit =>
    cases h
    exact .demEcrit ha
  case demLibere =>
    cases h
    exact .demLibere ha

theorem geste_of_step {s s' : Systeme} {e : EvtThread} (h : s.step e = some s') :
    Geste s e s' := by
  cases e <;> simp only [step] at h
  case start usec flag =>
    split at h
    · rename_i ha
      split at h
      · rename_i timer ht
        simp only [CTimer.start] at ht
        split at ht
        · cases ht
        · rename_i hne
          rw [not_or, Bool.not_eq_true] at hne
          cases ht
          cases h
          rw [hne.1]
          exact .start ha.1 hne.1 hne.2
      · cases h
        exact .startVain usec flag ha.1
    · cases h
  case create =>
    split at h
    · rename_i ha
      cases h
      exact .create ha.1 ha.2
    · cases h
  case stop =>
    split at h
    · rename_i ha
      split at h
      · cases h
        exact .stop ha.1 ‹_›
      · rename_i hb
        cases h
        exact .stopVain ha.1 (by simpa using hb)
    · cases h
  case demande =>
    split at h
    · rename_i ha
      cases h
      exact .demande ha.1 ha.2
    · cases h
  case pipe fd =>
    split at h
    · rename_i flag ha
      split at h
      · split at h
        · cases h
        · cases h
          exact .pipe ha ‹_›
      · cases h
        exact .sansPipe ha
    · cases h
  case pthreadCreate reussi =>
    split at h
    · rename_i flag ha
      cases reussi with
      | true =>
          cases h
          exact .pthreadCreate ha
      | false =>
          cases h
          exact .sansFil ha
    · cases h
  case suite => exact geste_of_suite h
  case fil k c =>
    split at h
    · rename_i f hk
      obtain ⟨⟨o', f'⟩, hr, rfl⟩ := Option.map_eq_some_iff.mp h
      exact .fil hk (Fil.mouvement_of_step hr)
    · cases h

def pcs (s : Systeme) : List Pc := s.fils.map (·.pc)

theorem pcs_marque (s : Systeme) : s.marque.map (·.pc) = s.pcs := by
  simp [marque, pcs, Function.comp_def]

/-- What the constructor of the object has set. -/
def Nature (s : Systeme) : Classe × Bool × Bool :=
  (s.objet.classe, s.objet.cAutoDelete, s.objet.cIsdetachstate)

theorem nature_of_step {s s' : Systeme} {e : EvtThread} (h : s.step e = some s') :
    s'.Nature = s.Nature := by
  cases geste_of_step h with
  | fil hk hm =>
      obtain ⟨hclasse, hauto, hdetache⟩ := hm.constantes
      simp [Nature, hclasse, hauto, hdetache]
  | _ => rfl

def fil (s : Systeme) : Fil := s.fils.headD (.cree 0)

theorem getElem?_seul {α : Type} {f g : α} {k : ℕ} (h : [f][k]? = some g) : k = 0 ∧ g = f := by
  rw [List.getElem?_singleton] at h
  split at h
  · exact ⟨‹_›, (Option.some.inj h).symm⟩
  · cases h

theorem mouvement_of_step {s s' : Systeme} {pc : Pc} {c : Choix} (hpc : s.pcs = [pc])
    (h : s.step (.fil 0 c) = some s') : ∃ f f' o', f.pc = pc ∧ s.fils = [f] ∧
      f.Mouvement s.objet 0 c o' f' ∧ s' = { s with objet := o', fils := [f'] } := by
  obtain ⟨f, hfils, rfl⟩ := List.map_eq_singleton_iff.mp hpc
  cases geste_of_step h with
  | fil hk hm =>
      rw [hfils] at hk ⊢
      obtain ⟨-, rfl⟩ := getElem?_seul hk
      exact ⟨_, _, _, rfl, rfl, hm, rfl⟩

end Systeme

end GestAqua
