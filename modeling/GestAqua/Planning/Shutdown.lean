import GestAqua.Planning.Launchers
import GestAqua.Planning.StopBlocks

/-!
The end of `CMainTask::Thread`: the two loops that stop every timer.

The loops are programs of atomic steps, over the main task of `Launchers.lean`
whose timers still begin, time out and call back between them. At the end no
launcher is left that could start a profile, no profile runs that has not been
asked to stop, and every parameter block of a stop timer has been deleted once, as
long as `EnOrdre` holds at every step: `Stop` finds a thread that has begun, and no
timer calls back while a loop has it in hand.
-/

namespace GestAqua

/-! ### The operations of the two loops -/

namespace TimerTache

/-- `SetAutoDelete (1)`, on the timer at an address. -/
def setAutoDelete (a : ℕ) (t : TimerTache) : TimerTache :=
  if t.adresse = a then { t with cAutoDelete := true } else t

@[simp] theorem setAutoDelete_adresse (a : ℕ) (t : TimerTache) :
    (t.setAutoDelete a).adresse = t.adresse := by
  unfold setAutoDelete
  split <;> rfl

@[simp] theorem setAutoDelete_timer (a : ℕ) (t : TimerTache) :
    (t.setAutoDelete a).timer = t.timer := by
  unfold setAutoDelete
  split <;> rfl

def lance (t : TimerTache) : Bool :=
  t.timer.bStarted && match t.timer.hObjetAttache with
    | some (.fctStartProfil _) => true
    | _ => false

theorem lance_iff {t : TimerTache} : t.lance = true ↔ ∃ n, t.lanceurDe n = true := by
  simp only [lanceurDe_iff]
  unfold lance
  split <;> simp_all

end TimerTache

namespace CMainTask

/-- `pTimer->SetAutoDelete (1)`. -/
def setAutoDelete (a : ℕ) (s : CMainTask) : CMainTask :=
  { s with timers := s.timers.map (TimerTache.setAutoDelete a) }

/-- `pTimer->GetObjetAttache ()`, for a timer of `mStopProfil`. -/
def getObjetAttache (a : ℕ) (s : CMainTask) : Option ParamCallbackStopProfil :=
  (s.timers.find? (·.adresse == a)).bind fun t => match t.timer.hObjetAttache with
    | some (.fctStopProfil pParam) => some pParam
    | _ => none

/-- `pProfil->SetAutoDelete (1)` and `pProfil->SetArretThread (1)`. -/
def setArretThread (pProfil : ℕ) (s : CMainTask) : CMainTask :=
  { s with profils := s.profils.filter (·.adresse ≠ pProfil) }

/-- `mLanceurProfil.clear ()`. -/
def videLanceurs (s : CMainTask) : CMainTask := { s with mLanceurProfil := fun _ => none }

/-- `mStopProfil.clear ()`. -/
def videArrets (s : CMainTask) : CMainTask := { s with mStopProfil := fun _ => none }

theorem lanceurs_setAutoDelete (n : UInt8) (a : ℕ) (s : CMainTask) :
    (s.setAutoDelete a).lanceurs n = (s.lanceurs n).map (TimerTache.setAutoDelete a) := by
  rw [lanceurs, setAutoDelete, List.filter_map]
  exact congrArg _ (List.filter_congr fun t _ => by simp [TimerTache.lanceurDe])

theorem getObjetAttache_eq {s : CMainTask} (h : BienForme s) {t : TimerTache} (ht : t ∈ s.timers)
    {q : ParamCallbackStopProfil} (hq : t.timer.hObjetAttache = some (.fctStopProfil q)) :
    s.getObjetAttache t.adresse = some q := by
  have hfind : s.timers.find? (·.adresse == t.adresse) = some t := by
    cases hf : s.timers.find? (·.adresse == t.adresse) with
    | none => simpa using List.find?_eq_none.mp hf t ht
    | some u =>
        have hu := List.find?_some hf
        exact congrArg some
          (h.adresse_inj u (List.mem_of_find?_eq_some hf) t ht (by simpa using hu))
  simp [getObjetAttache, hfind, hq]

end CMainTask

theorem BienForme.setAutoDelete {s : CMainTask} (h : BienForme s) (a : ℕ) :
    BienForme (s.setAutoDelete a) where
  suivant_pos := h.suivant_pos
  adresse_lt := List.forall_mem_map.mpr fun t ht => by
    rw [TimerTache.setAutoDelete_adresse]
    exact h.adresse_lt t ht
  adresse_inj := List.forall_mem_map.mpr fun t ht => List.forall_mem_map.mpr fun u hu heq => by
    rw [h.adresse_inj t ht u hu (by simpa using heq)]
  lanceur := fun n b hb => ⟨(h.lanceur n b hb).1, List.forall_mem_map.mpr fun t ht hadr hst => by
    simpa [TimerTache.lanceurDe] using
      (h.lanceur n b hb).2 t ht (by simpa using hadr) (by simpa using hst)⟩
  attache := List.forall_mem_map.mpr fun t ht => by simpa using h.attache t ht
  planif_ne_zero := List.forall_mem_map.mpr fun t ht => by simpa using h.planif_ne_zero t ht
  profil_lt := h.profil_lt
  arret := List.forall_mem_map.mpr fun t ht => by
    rw [TimerTache.setAutoDelete_timer]
    exact h.arret t ht

/-- The first entry of a map from a key on: `begin ()`, and `it++` after the key
before. -/
def entree (m : UInt8 → Option ℕ) (k : ℕ) : Option (UInt8 × ℕ) :=
  ((List.range' k (256 - k)).find? fun n => (m (.ofNat n)).isSome).bind fun n =>
    (m (.ofNat n)).map fun a => (.ofNat n, a)

theorem entree_eq_some {m : UInt8 → Option ℕ} {k a : ℕ} {n : UInt8}
    (h : entree m k = some (n, a)) :
    m n = some a ∧ k ≤ n.toNat ∧ ∀ p : UInt8, k ≤ p.toNat → p.toNat < n.toNat → m p = none := by
  obtain ⟨i, hi, hm⟩ := Option.bind_eq_some_iff.mp h
  obtain ⟨b, hb, heq⟩ := Option.map_eq_some_iff.mp hm
  obtain ⟨rfl, rfl⟩ := Prod.mk.inj heq
  obtain ⟨-, hrange, hmin⟩ := List.find?_range'_eq_some.mp hi
  have hi : k ≤ i ∧ i < 256 := by
    have := List.mem_range'_1.mp hrange
    omega
  have hnat : (UInt8.ofNat i).toNat = i := UInt8.toNat_ofNat_of_lt' hi.2
  rw [hnat]
  exact ⟨hb, hi.1, fun p hk hp => by simpa using hmin p.toNat hk hp⟩

theorem entree_eq_none {m : UInt8 → Option ℕ} {k : ℕ} (h : entree m k = none) (p : UInt8)
    (hk : k ≤ p.toNat) : m p = none := by
  have hlt := p.toNat_lt
  cases hf : (List.range' k (256 - k)).find? fun n => (m (.ofNat n)).isSome with
  | none => simpa using List.find?_range'_eq_none.mp hf p.toNat hk (by omega)
  | some i =>
      have hi := List.find?_some hf
      obtain ⟨a, ha⟩ := Option.isSome_iff_exists.mp hi
      rw [entree, hf, Option.bind_some, ha] at h
      cases h

/-! ### The machine -/

/-- The next atomic step of the shutdown: that of the first loop on the entry `n`
of `mLanceurProfil`, whose timer is at `a`, and that of the second loop on the
entry `p` of `mStopProfil`. -/
inductive EtapeArret
  -- the loop of `select`
  | tourne
  | lanceurAuto (n : UInt8) (a : ℕ)
  | lanceurStop (n : UInt8) (a : ℕ)
  | lanceurSuivant (n : UInt8)
  | videLanceurs
  | arretObjet (p : UInt8) (a : ℕ)
  | arretDemande (p : UInt8) (a : ℕ) (pParam : ParamCallbackStopProfil)
  | arretSupprime (p : UInt8) (a : ℕ) (pParam : ParamCallbackStopProfil)
  | arretAuto (p : UInt8) (a : ℕ)
  | arretStop (p : UInt8) (a : ℕ)
  | arretSuivant (p : UInt8)
  | videArrets
  | fini
  deriving DecidableEq, Repr

/-- The main task with its shutdown, the timers whose object `Stop` has set to
`NULL` behind a `select` that had timed out, and the blocks that the launches have
allocated for stop timers. -/
structure Fermeture where
  course : Course
  arret : EtapeArret
  nuls : List ℕ
  blocsArret : List ℕ

/-- `suite` is a step of the shutdown, `rappelleNul` the callback with `NULL` of a
timer of `nuls` and the end of its thread. -/
inductive EvtFermeture
  | course (e : EvtCourse)
  | suite
  | rappelleNul (a : ℕ)
  deriving DecidableEq, Repr

namespace Fermeture

def depart (t0 : ℤ) : Fermeture where
  course := .depart t0
  arret := .tourne
  nuls := []
  blocsArret := []

def passe (f : CMainTask → CMainTask) (arret : EtapeArret) (m : Fermeture) : Fermeture :=
  { m with course := { m.course with tache := f m.course.tache }, arret := arret }

/-- `CTimer::Stop`, where the thread of the timer is. The step is the assignment at
the end of `Stop`: a callback that comes before it still has the object. -/
def stop (a : ℕ) (m : Fermeture) : Option Fermeture :=
  match m.course.tache.enMarche a with
  | none => some m
  | some t =>
    match m.course.phase a with
    -- `m_bStarted` is not set yet and `Stop` returns
    | .cree => some m
    | .attend => some (m.passe (CMainTask.stop a) m.arret)
    -- the pipe is read by nobody; `pthread_join` waits for the callback
    | .expire =>
      if t.cAutoDelete then some { m.passe (CMainTask.stop a) m.arret with nuls := a :: m.nuls }
      else none

def premierLanceur (k : ℕ) (m : Fermeture) : EtapeArret :=
  match entree m.course.tache.mLanceurProfil k with
  | some (n, a) => .lanceurAuto n a
  | none => .videLanceurs

def premierArret (k : ℕ) (m : Fermeture) : EtapeArret :=
  match entree m.course.tache.mStopProfil k with
  | some (p, a) => .arretObjet p a
  | none => .videArrets

def suite (m : Fermeture) : Option Fermeture :=
  match m.arret with
  | .tourne =>
    if m.course.etape = .repos then some { m with arret := m.premierLanceur 0 } else none
  | .lanceurAuto n a => some (m.passe (.setAutoDelete a) (.lanceurStop n a))
  | .lanceurStop n a => (m.stop a).map fun m => { m with arret := .lanceurSuivant n }
  | .lanceurSuivant n => some { m with arret := m.premierLanceur (n.toNat + 1) }
  | .videLanceurs => some (m.passe .videLanceurs (m.premierArret 0))
  | .arretObjet p a =>
    some { m with arret := match m.course.tache.getObjetAttache a with
      | some pParam => .arretDemande p a pParam
      | none => .arretAuto p a }
  | .arretDemande p a pParam =>
    some (m.passe (.setArretThread pParam.pProfil) (.arretSupprime p a pParam))
  | .arretSupprime p a pParam => some (m.passe (.supprime pParam.bloc) (.arretAuto p a))
  | .arretAuto p a => some (m.passe (.setAutoDelete a) (.arretStop p a))
  | .arretStop p a => (m.stop a).map fun m => { m with arret := .arretSuivant p }
  | .arretSuivant p => some { m with arret := m.premierArret (p.toNat + 1) }
  | .videArrets => some (m.passe .videArrets .fini)
  | .fini => none

/-- The blocks for stop timers after a step of the main task: a callback allocates
no other block. -/
def blocsApres (m : Fermeture) (c : Course) : EvtCourse → List ℕ
  | .rappelle _ => m.course.tache.nouveauxBlocs c.tache ++ m.blocsArret
  | .planifie | .pas | .debute _ | .depasse _ | .avance _ => m.blocsArret

def step (env : Env) (m : Fermeture) : EvtFermeture → Option Fermeture
  | .course e =>
    -- the main thread plans only from the loop of `select`
    if e = .planifie ∧ m.arret ≠ .tourne then none
    else (m.course.step env e).map fun c =>
      { m with course := c, blocsArret := m.blocsApres c e }
  | .suite => m.suite
  | .rappelleNul a =>
    if a ∈ m.nuls then
      some { m.passe (.rappelle env toujours none) m.arret with nuls := m.nuls.erase a }
    else none

/-! ### The condition and the property -/

/-- The timer that a loop has in hand, from the read of `it->second` to `Stop`. -/
def enMain : EtapeArret → Option ℕ
  | .lanceurAuto _ a | .lanceurStop _ a | .arretObjet _ a | .arretDemande _ a _
  | .arretSupprime _ a _ | .arretAuto _ a | .arretStop _ a => some a
  | .tourne | .lanceurSuivant _ | .videLanceurs | .arretSuivant _ | .videArrets | .fini => none

/-- The timer on which the next step calls `Stop`. -/
def aStopper : EtapeArret → Option ℕ
  | .lanceurStop _ a | .arretStop _ a => some a
  | _ => none

/-- The conditions under which the shutdown leaves nothing. Planning and callbacks
are in order until the shutdown begins; a launch registers each of its profiles,
under a free number that is not zero; no timer calls back while a loop has it in
hand; and the thread of a timer, if it has one, has begun when `Stop` is called. -/
def EnOrdre (env : Env) (m : Fermeture) : EvtFermeture → Prop
  | .course (.rappelle a) => m.course.EnOrdre (.rappelle a) ∧ enMain m.arret ≠ some a ∧
      ∀ t ∈ m.course.tache.timers, t.adresse = a →
        CMainTask.LancementTenu env m.course.tache t
  | .course e => m.course.EnOrdre e
  | .suite => ∀ a ∈ aStopper m.arret, m.course.tache.enMarche a ≠ none → m.course.phase a ≠ .cree
  | .rappelleNul _ => True

/-- No block is deleted twice; and at the end of the shutdown no timer is armed for
a launch, no profile runs that has not been asked to stop, and no block of a stop
timer is left. -/
structure RienNeReste (m : Fermeture) : Prop where
  unique : m.course.tache.doubleDelete = false
  lanceurs : m.arret = .fini → ∀ t ∈ m.course.tache.timers, t.lance = false
  profils : m.arret = .fini → m.course.tache.profils = []
  blocs : m.arret = .fini → ∀ b ∈ m.blocsArret, b ∉ m.course.tache.blocs

instance (env : Env) (m : Fermeture) : ∀ ev, Decidable (m.EnOrdre env ev)
  | .course (.rappelle a) => inferInstanceAs (Decidable (m.course.EnOrdre (.rappelle a) ∧
      enMain m.arret ≠ some a ∧
      ∀ t ∈ m.course.tache.timers, t.adresse = a →
        CMainTask.LancementTenu env m.course.tache t))
  | .course .planifie => inferInstanceAs (Decidable (m.course.EnOrdre .planifie))
  | .course .pas => inferInstanceAs (Decidable (m.course.EnOrdre .pas))
  | .course (.debute a) => inferInstanceAs (Decidable (m.course.EnOrdre (.debute a)))
  | .course (.depasse a) => inferInstanceAs (Decidable (m.course.EnOrdre (.depasse a)))
  | .course (.avance t) => inferInstanceAs (Decidable (m.course.EnOrdre (.avance t)))
  | .suite => inferInstanceAs (Decidable (∀ a ∈ aStopper m.arret,
      m.course.tache.enMarche a ≠ none → m.course.phase a ≠ .cree))
  | .rappelleNul _ => isTrue trivial

/-! ### The invariant -/

def LanceursDepuis (k : ℕ) (s : CMainTask) : Prop := ∀ n, ∀ t ∈ s.lanceurs n, k ≤ n.toNat

/-- The first loop is done with the plans below. -/
def finLanceurs : EtapeArret → ℕ
  | .tourne => 0
  | .lanceurAuto n _ | .lanceurStop n _ => n.toNat
  | .lanceurSuivant n => n.toNat + 1
  | .videLanceurs | .arretObjet _ _ | .arretDemande _ _ _ | .arretSupprime _ _ _
  | .arretAuto _ _ | .arretStop _ _ | .arretSuivant _ | .videArrets | .fini => 256

/-- The second loop is done with the profiles below. -/
def finArrets : EtapeArret → ℕ
  | .tourne | .lanceurAuto _ _ | .lanceurStop _ _ | .lanceurSuivant _ | .videLanceurs => 0
  | .arretObjet p _ | .arretDemande p _ _ | .arretSupprime p _ _ | .arretAuto p _
  | .arretStop p _ => p.toNat
  | .arretSuivant p => p.toNat + 1
  | .videArrets | .fini => 256

/-- The timer whose block is deleted while the timer is armed. -/
def sansBloc : EtapeArret → Option ℕ
  | .arretAuto _ a | .arretStop _ a => some a
  | _ => none

/-- The timer whose profile has been asked to stop while the timer is armed. -/
def demande : EtapeArret → Option ℕ
  | .arretSupprime _ a _ | .arretAuto _ a | .arretStop _ a => some a
  | _ => none

def EntreeTenue (s : CMainTask) : EtapeArret → Prop
  | .lanceurAuto n a | .lanceurStop n a => s.mLanceurProfil n = some a
  | .arretObjet p a | .arretAuto p a | .arretStop p a => s.mStopProfil p = some a
  | .arretDemande p a pParam | .arretSupprime p a pParam => s.mStopProfil p = some a ∧
      ∃ t ∈ s.armes, t.adresse = a ∧ t.timer.hObjetAttache = some (.fctStopProfil pParam)
  | .tourne | .lanceurSuivant _ | .videLanceurs | .arretSuivant _ | .videArrets | .fini => True

structure Sain (m : Fermeture) : Prop where
  course : m.course.Sain
  repos : m.arret ≠ .tourne → m.course.etape = .repos
  lanceurs : LanceursDepuis (finLanceurs m.arret) m.course.tache
  tenus : m.course.tache.ArretsTenus (finArrets m.arret) (sansBloc m.arret) (demande m.arret)
    m.blocsArret
  entree : EntreeTenue m.course.tache m.arret

variable {env : Env} {m m' : Fermeture} {c : Course} {a : ℕ}

theorem Sain.depart (t0 : ℤ) : Sain (depart t0) where
  course := .depart t0
  repos := fun h => absurd rfl h
  lanceurs := fun _ _ _ => Nat.zero_le _
  tenus := .construit t0
  entree := trivial

/-! ### Steps on the main task -/

theorem avecTache (h : c.Sain) (hrepos : c.etape = .repos) {s : CMainTask} (hforme : BienForme s)
    (hlan : ∀ n, ∀ t ∈ s.lanceurs n, s.mLanceurProfil n = some t.adresse)
    (hreg : ∀ n a, s.mLanceurProfil n = some a → c.tache.mLanceurProfil n = some a)
    (hsuiv : s.suivant = c.tache.suivant) : Course.Sain { c with tache := s } where
  forme := hforme
  lanceurs := fun n t ht => .inl (hlan n t ht)
  sansReste := fun n a ha => h.sansReste n a (hreg n a ha)
  tires_lt := fun a ha => hsuiv ▸ h.tires_lt a ha
  etape := by
    show Course.EtapeSaine s c.tires c.etape
    rw [hrepos]
    trivial

/-- At rest the armed launchers are the entries of their plans. -/
theorem registre_repos (h : c.Sain) (hrepos : c.etape = .repos) {n : UInt8} {t : TimerTache}
    (ht : t ∈ c.tache.lanceurs n) : c.tache.mLanceurProfil n = some t.adresse :=
  h.registre ht fun k hk => by
    rw [hrepos] at hk
    cases hk

theorem memesTimers (h : c.Sain) (hrepos : c.etape = .repos) {s : CMainTask}
    (hforme : BienForme s) (htimers : s.timers = c.tache.timers)
    (hreg : s.mLanceurProfil = c.tache.mLanceurProfil) (hsuiv : s.suivant = c.tache.suivant) :
    Course.Sain { c with tache := s } := by
  refine avecTache h hrepos hforme (fun n t ht => ?_) (fun n a ha => ?_) hsuiv
  · rw [CMainTask.lanceurs, htimers] at ht
    rw [hreg]
    exact registre_repos h hrepos ht
  · rwa [hreg] at ha

theorem stop_sain (h : c.Sain) (hrepos : c.etape = .repos) (a : ℕ) :
    Course.Sain { c with tache := c.tache.stop a } :=
  avecTache h hrepos (h.forme.stop a)
    (fun n t ht => by
      rw [CMainTask.lanceurs_stop, List.mem_filter] at ht
      exact registre_repos h hrepos ht.1)
    (fun _ _ ha => ha) rfl

theorem setAutoDelete_sain (h : c.Sain) (hrepos : c.etape = .repos) (a : ℕ) :
    Course.Sain { c with tache := c.tache.setAutoDelete a } :=
  avecTache h hrepos (h.forme.setAutoDelete a)
    (fun n t ht => by
      rw [CMainTask.lanceurs_setAutoDelete] at ht
      obtain ⟨u, hu, rfl⟩ := List.mem_map.mp ht
      rw [TimerTache.setAutoDelete_adresse]
      exact registre_repos h hrepos hu)
    (fun _ _ ha => ha) rfl

theorem LanceursDepuis.stop {k : ℕ} {s : CMainTask} (h : LanceursDepuis k s) (a : ℕ) :
    LanceursDepuis k (s.stop a) := by
  intro n t ht
  rw [CMainTask.lanceurs_stop] at ht
  exact h n t (List.mem_of_mem_filter ht)

theorem LanceursDepuis.setAutoDelete {k : ℕ} {s : CMainTask} (h : LanceursDepuis k s) (a : ℕ) :
    LanceursDepuis k (s.setAutoDelete a) := by
  intro n t ht
  rw [CMainTask.lanceurs_setAutoDelete] at ht
  obtain ⟨u, hu, -⟩ := List.mem_map.mp ht
  exact h n u hu

/-- Stopping the launcher that the registry holds for a plan leaves no other of this
plan. -/
theorem LanceursDepuis.stop_succ {n : UInt8} (h : c.Sain) (hrepos : c.etape = .repos)
    (hlan : LanceursDepuis n.toNat c.tache) (ha : c.tache.mLanceurProfil n = some a) :
    LanceursDepuis (n.toNat + 1) (c.tache.stop a) := by
  intro k t ht
  rw [CMainTask.lanceurs_stop, List.mem_filter] at ht
  have hk := hlan k t ht.1
  have hne : k.toNat ≠ n.toNat := by
    intro heq
    have hreg := registre_repos h hrepos ht.1
    rw [UInt8.toNat_inj.mp heq, ha] at hreg
    simp [Option.some.inj hreg] at ht
  omega

theorem Sain.premierLanceur (h : m.course.Sain) (hrepos : m.course.etape = .repos) (k : ℕ)
    (hlan : LanceursDepuis k m.course.tache)
    (htenus : m.course.tache.ArretsTenus 0 none none m.blocsArret) :
    Sain { m with arret := m.premierLanceur k } := by
  unfold Fermeture.premierLanceur
  cases he : GestAqua.entree m.course.tache.mLanceurProfil k with
  | none =>
      refine ⟨h, fun _ => hrepos, fun n t ht => ?_, htenus, trivial⟩
      have hreg := registre_repos h hrepos ht
      rw [entree_eq_none he n (hlan n t ht)] at hreg
      cases hreg
  | some e =>
      obtain ⟨n, a⟩ := e
      obtain ⟨ha, -, hvide⟩ := entree_eq_some he
      refine ⟨h, fun _ => hrepos, fun p t ht => Nat.le_of_not_lt fun hlt => ?_, htenus, ha⟩
      have hreg := registre_repos h hrepos ht
      rw [hvide p (hlan p t ht) hlt] at hreg
      cases hreg

theorem Sain.premierArret (h : m.course.Sain) (hrepos : m.course.etape = .repos) (k : ℕ)
    (hlan : LanceursDepuis 256 m.course.tache)
    (htenus : m.course.tache.ArretsTenus k none none m.blocsArret) (hk : k ≤ 256) :
    Sain { m with arret := m.premierArret k } := by
  unfold Fermeture.premierArret
  cases he : GestAqua.entree m.course.tache.mStopProfil k with
  | none =>
      exact ⟨h, fun _ => hrepos, hlan, htenus.saute hk fun p hp _ => entree_eq_none he p hp,
        trivial⟩
  | some e =>
      obtain ⟨p, a⟩ := e
      obtain ⟨ha, hkp, hvide⟩ := entree_eq_some he
      exact ⟨h, fun _ => hrepos, hlan, htenus.saute hkp hvide, ha⟩

theorem stop_cases (hs : m.stop a = some m') :
    m' = m ∧ (m.course.tache.enMarche a ≠ none → m.course.phase a = .cree) ∨
      ∃ l, m' = { m with
        course := { m.course with tache := m.course.tache.stop a }
        nuls := l } := by
  unfold Fermeture.stop at hs
  cases hmarche : m.course.tache.enMarche a with
  | none =>
      simp only [hmarche] at hs
      exact .inl ⟨(Option.some.inj hs).symm, fun h => absurd rfl h⟩
  | some t =>
      simp only [hmarche] at hs
      cases hphase : m.course.phase a with
      | cree =>
          rw [hphase] at hs
          exact .inl ⟨(Option.some.inj hs).symm, fun _ => rfl⟩
      | attend =>
          rw [hphase] at hs
          exact .inr ⟨m.nuls, (Option.some.inj hs).symm⟩
      | expire =>
          simp only [hphase] at hs
          split at hs
          · exact .inr ⟨a :: m.nuls, (Option.some.inj hs).symm⟩
          · cases hs

theorem stop_eq (h : m.course.tache.enMarche a ≠ none → m.course.phase a ≠ .cree)
    (hs : m.stop a = some m') : ∃ l, m' = { m with
      course := { m.course with tache := m.course.tache.stop a }
      nuls := l } := by
  rcases stop_cases hs with ⟨rfl, hcree⟩ | hstop
  · have hmarche : m'.course.tache.enMarche a = none := by
      by_contra hne
      exact h hne (hcree hne)
    exact ⟨m'.nuls, by rw [Course.stop_not_armed hmarche]⟩
  · exact hstop

theorem Sain.suite (h : Sain m)
    (hg : ∀ a ∈ aStopper m.arret, m.course.tache.enMarche a ≠ none → m.course.phase a ≠ .cree)
    (hs : m.suite = some m') : Sain m' := by
  obtain ⟨hcourse, hrepos, hlan, htenus, hentree⟩ := h
  unfold Fermeture.suite at hs
  cases het : m.arret with
  | tourne =>
      rw [het] at hs hlan htenus
      dsimp only at hs
      split at hs
      · rename_i hre
        obtain rfl := Option.some.inj hs
        exact .premierLanceur hcourse hre 0 hlan htenus
      · cases hs
  | lanceurAuto n a =>
      rw [het] at hs hlan htenus hentree
      have hre := hrepos (by simp [het])
      obtain rfl := Option.some.inj hs
      exact ⟨setAutoDelete_sain hcourse hre a, fun _ => hre, hlan.setAutoDelete a,
        htenus.image (TimerTache.setAutoDelete_adresse a) (TimerTache.setAutoDelete_timer a),
        hentree⟩
  | lanceurStop n a =>
      rw [het] at hs hlan htenus hentree hg
      have hre := hrepos (by simp [het])
      obtain ⟨r, hr, rfl⟩ := Option.map_eq_some_iff.mp hs
      obtain ⟨l, rfl⟩ := stop_eq (hg a rfl) hr
      exact ⟨stop_sain hcourse hre a, fun _ => hre, hlan.stop_succ hcourse hre hentree,
        htenus.stopLanceur hcourse.forme hentree, trivial⟩
  | lanceurSuivant n =>
      rw [het] at hs hlan htenus
      obtain rfl := Option.some.inj hs
      exact .premierLanceur hcourse (hrepos (by simp [het])) _ hlan htenus
  | videLanceurs =>
      rw [het] at hs hlan htenus
      have hre := hrepos (by simp [het])
      obtain rfl := Option.some.inj hs
      have hno : ∀ n, ∀ t, t ∉ m.course.tache.lanceurs n := fun n t ht => by
        have : 256 ≤ n.toNat := hlan n t ht
        have := n.toNat_lt
        omega
      have hforme : BienForme m.course.tache.videLanceurs :=
        { hcourse.forme with lanceur := fun n a ha => by cases ha }
      exact .premierArret (m := m.passe .videLanceurs m.arret)
        (avecTache hcourse hre hforme (fun n t ht => absurd ht (hno n t))
          (fun n a ha => by cases ha) rfl) hre 0 hlan { htenus with } (by decide)
  | arretObjet p a =>
      rw [het] at hs hlan htenus hentree
      have hre := hrepos (by simp [het])
      obtain ⟨t, ht, rfl, hcle⟩ := htenus.entree p a (Nat.le_refl _) hentree
      obtain ⟨q, hq⟩ := CMainTask.arret_of_cle hcle
      have hobjet := CMainTask.getObjetAttache_eq hcourse.forme (CMainTask.mem_armes.mp ht).1 hq
      simp only [hobjet] at hs
      obtain rfl := Option.some.inj hs
      exact ⟨hcourse, fun _ => hre, hlan, htenus, hentree, t, ht, rfl, hq⟩
  | arretDemande p a q =>
      rw [het] at hs hlan htenus hentree
      have hre := hrepos (by simp [het])
      obtain ⟨hreg, t, ht, rfl, hq⟩ := hentree
      obtain rfl := Option.some.inj hs
      exact ⟨memesTimers hcourse hre (hcourse.forme.filtreProfils _) rfl rfl rfl, fun _ => hre,
        hlan, htenus.demande hcourse.forme ht hq, hreg, t, ht, rfl, hq⟩
  | arretSupprime p a q =>
      rw [het] at hs hlan htenus hentree
      have hre := hrepos (by simp [het])
      obtain ⟨hreg, t, ht, rfl, hq⟩ := hentree
      obtain rfl := Option.some.inj hs
      exact ⟨memesTimers hcourse hre (hcourse.forme.supprime _) rfl rfl rfl, fun _ => hre, hlan,
        htenus.supprimeTenu hcourse.forme ht (CMainTask.cle_of_arret hq).2, hreg⟩
  | arretAuto p a =>
      rw [het] at hs hlan htenus hentree
      have hre := hrepos (by simp [het])
      obtain rfl := Option.some.inj hs
      exact ⟨setAutoDelete_sain hcourse hre a, fun _ => hre, hlan.setAutoDelete a,
        htenus.image (TimerTache.setAutoDelete_adresse a) (TimerTache.setAutoDelete_timer a),
        hentree⟩
  | arretStop p a =>
      rw [het] at hs hlan htenus hentree hg
      have hre := hrepos (by simp [het])
      obtain ⟨r, hr, rfl⟩ := Option.map_eq_some_iff.mp hs
      obtain ⟨l, rfl⟩ := stop_eq (hg a rfl) hr
      exact ⟨stop_sain hcourse hre a, fun _ => hre, hlan.stop a,
        htenus.arrete hcourse.forme rfl hentree, trivial⟩
  | arretSuivant p =>
      rw [het] at hs hlan htenus
      obtain rfl := Option.some.inj hs
      have := p.toNat_lt
      exact .premierArret hcourse (hrepos (by simp [het])) _ hlan htenus (by omega)
  | videArrets =>
      rw [het] at hs hlan htenus
      have hre := hrepos (by simp [het])
      obtain rfl := Option.some.inj hs
      exact ⟨memesTimers hcourse hre { hcourse.forme with } rfl rfl rfl, fun _ => hre, hlan,
        htenus.vide, trivial⟩
  | fini =>
      rw [het] at hs
      cases hs

/-! ### Planning and the callbacks -/

/-- A step of planning concerns neither the stop timers nor their blocks. -/
theorem tenus_pas {c' : Course} {l : List ℕ} (h : c.tache.ArretsTenus 0 none none l)
    (hsain : c.Sain) (hg : c.PasEnOrdre c.etape) (hs : c.pas env = some c') :
    c'.tache.ArretsTenus 0 none none l := by
  unfold Course.pas at hs
  cases het : c.etape with
  | repos =>
      rw [het] at hs
      cases hs
  | boucle off reste =>
      rw [het] at hs
      have htache : c'.tache = c.tache := by
        cases reste with
        | nil =>
            obtain rfl := Option.some.inj hs
            rfl
        | cons e reste =>
            dsimp only at hs
            split at hs
            · obtain rfl := Option.some.inj hs
              rfl
            · split at hs
              · split at hs <;>
                · obtain rfl := Option.some.inj hs
                  rfl
              · split at hs <;>
                · obtain rfl := Option.some.inj hs
                  rfl
      rw [htache]
      exact h
  | stoppe off e reste a =>
      have hetape := hsain.etape
      rw [het] at hs hg hetape
      obtain ⟨r, hr, rfl⟩ := Option.map_eq_some_iff.mp hs
      rcases Course.stop_cases hr hg.2 with ⟨rfl, -⟩ | rfl
      · exact h
      · exact h.stopLanceur hsain.forme (hetape.2.resolve_right hg.1)
  | efface off e reste a =>
      rw [het] at hs
      obtain rfl := Option.some.inj hs
      exact { h with }
  | demarre off e reste differe =>
      rw [het] at hs
      obtain rfl := Option.some.inj hs
      exact { h.creeLanceur env e.ucNumeroPlanif differe _ with }
  | insere off e reste differe a =>
      rw [het] at hs
      obtain rfl := Option.some.inj hs
      exact { h with }

variable (env) in
/-- The expiry of an armed timer arms no launcher. -/
theorem LanceursDepuis.expire {k : ℕ} {s : CMainTask} (h : LanceursDepuis k s)
    (hforme : BienForme s) {t : TimerTache} (ht : t ∈ s.armes) :
    LanceursDepuis k (s.expire env toujours t) := by
  intro n u hu
  obtain ⟨hmem, hst⟩ := CMainTask.mem_armes.mp ht
  have hvue := congrArg VueLanceur.lanceurs (Course.vueLanceur_expire_arme env hforme hmem hst n)
  rw [apply_ite VueLanceur.lanceurs] at hvue
  rw [show (s.expire env toujours t).lanceurs n = _ from hvue] at hu
  split at hu
  · exact h n u (List.mem_of_mem_filter hu)
  · exact h n u hu

theorem mLanceurProfil_expire (h : c.Sain) (hrepos : c.etape = .repos) {t : TimerTache}
    (ht : t ∈ c.tache.armes) {n : UInt8} (ha : c.tache.mLanceurProfil n = some a)
    (hne : a ≠ t.adresse) : (c.tache.expire env toujours t).mLanceurProfil n = some a := by
  obtain ⟨hmem, hst⟩ := CMainTask.mem_armes.mp ht
  have hvue := congrArg VueLanceur.registre (Course.vueLanceur_expire_arme env h.forme hmem hst n)
  rw [apply_ite VueLanceur.registre] at hvue
  refine Eq.trans hvue ((if_neg fun hn => hne ?_).trans ha)
  have hreg := registre_repos h hrepos (CMainTask.mem_lanceurs.mpr ⟨hmem, hn⟩)
  exact Option.some.inj (ha.symm.trans hreg)

theorem enMain_of_sansBloc {e : EtapeArret} (h : sansBloc e = some a) : enMain e = some a := by
  cases e <;> first | exact h | cases h

theorem EntreeTenue.mono {s s' : CMainTask} {e : EtapeArret} (h : EntreeTenue s e)
    (hL : ∀ n a, enMain e = some a → s.mLanceurProfil n = some a → s'.mLanceurProfil n = some a)
    (hS : ∀ p a, enMain e = some a → s.mStopProfil p = some a → s'.mStopProfil p = some a)
    (hA : ∀ a, enMain e = some a → ∀ t ∈ s.armes, t.adresse = a → t ∈ s'.armes) :
    EntreeTenue s' e := by
  cases e with
  | tourne | lanceurSuivant | videLanceurs | arretSuivant | videArrets | fini => trivial
  | lanceurAuto n a | lanceurStop n a => exact hL n a rfl h
  | arretObjet p a | arretAuto p a | arretStop p a => exact hS p a rfl h
  | arretDemande p a q | arretSupprime p a q =>
      obtain ⟨ha, t, ht, hta, hq⟩ := h
      exact ⟨hS p a rfl ha, t, hA a rfl t ht hta, hta, hq⟩

def apresRappel (env : Env) (t : TimerTache) (m : Fermeture) : Fermeture :=
  { m with
    course := { m.course with
      tache := m.course.tache.expire env toujours t
      tires := t.adresse :: m.course.tires }
    blocsArret :=
      m.course.tache.nouveauxBlocs (m.course.tache.expire env toujours t) ++ m.blocsArret }

/-- The callback of a launcher: the first loop has not come to its plan. -/
theorem Sain.rappelle_lanceur (h : Sain m) {t : TimerTache} (ht : t ∈ m.course.tache.armes)
    {n : UInt8} (hn : t.lanceurDe n = true) (hc : (m.apresRappel env t).course.Sain)
    (hmain : enMain m.arret ≠ some t.adresse)
    (hlance : CMainTask.LancementTenu env m.course.tache t) : Sain (m.apresRappel env t) := by
  obtain ⟨hcourse, hrepos, hlan, htenus, hentree⟩ := h
  have hforme := hcourse.forme
  have hlan' := hlan.expire env hforme ht
  obtain ⟨-, q, hq, -⟩ := TimerTache.lanceurDe_iff.mp hn
  have hle := hlan n t (CMainTask.mem_lanceurs.mpr ⟨(CMainTask.mem_armes.mp ht).1, hn⟩)
  have hlt := n.toNat_lt
  unfold apresRappel at hc ⊢
  cases het : m.arret with
  | tourne =>
      rw [het] at htenus hlan'
      exact ⟨hc, fun hne => absurd rfl hne, hlan', htenus.expire_lanceur hforme ht hq hlance,
        trivial⟩
  | lanceurSuivant k =>
      have hre := hrepos (by simp [het])
      rw [het] at htenus hlan'
      exact ⟨hc, fun _ => hre, hlan', htenus.expire_lanceur hforme ht hq hlance, trivial⟩
  | lanceurAuto k a | lanceurStop k a =>
      have hre := hrepos (by simp [het])
      rw [het] at htenus hlan' hentree hmain
      exact ⟨hc, fun _ => hre, hlan', htenus.expire_lanceur hforme ht hq hlance,
        mLanceurProfil_expire hcourse hre ht hentree fun heq => hmain (congrArg some heq)⟩
  | videLanceurs | arretObjet | arretDemande | arretSupprime | arretAuto | arretStop
  | arretSuivant | videArrets | fini =>
      rw [het] at hle
      simp only [finLanceurs] at hle
      omega

theorem Sain.rappelle_arret (h : Sain m) {t : TimerTache} (ht : t ∈ m.course.tache.armes)
    {q : ParamCallbackStopProfil} (hq : t.timer.hObjetAttache = some (.fctStopProfil q))
    (hc : (m.apresRappel env t).course.Sain) (hmain : enMain m.arret ≠ some t.adresse) :
    Sain (m.apresRappel env t) := by
  obtain ⟨hcourse, hrepos, hlan, htenus, hentree⟩ := h
  have hforme := hcourse.forme
  have hne : ∀ a, enMain m.arret = some a → a ≠ t.adresse := by
    rintro a hin rfl
    exact hmain hin
  refine ⟨hc, hrepos, hlan.expire env hforme ht, htenus.expire_arret hforme ht hq
    fun heq => hmain (enMain_of_sansBloc heq.symm), hentree.mono ?_ ?_ ?_⟩
  · intro n a hin ha
    have hre := hrepos (by
      rintro htourne
      rw [htourne] at hin
      cases hin)
    exact mLanceurProfil_expire hcourse hre ht ha (hne a hin)
  · exact fun p a hin => htenus.mStopProfil_expire_arret hforme ht hq (hne a hin)
  · rintro a hin u hu rfl
    refine (htenus.mem_armes_expire_arret hforme ht hq).mpr ⟨hu, ?_⟩
    rintro rfl
    exact hmain hin

theorem Sain.rappelle (h : Sain m) {t : TimerTache} (ht : t ∈ m.course.tache.armes)
    (hc : (m.apresRappel env t).course.Sain) (hmain : enMain m.arret ≠ some t.adresse)
    (hlance : CMainTask.LancementTenu env m.course.tache t) : Sain (m.apresRappel env t) := by
  obtain ⟨hmem, hst⟩ := CMainTask.mem_armes.mp ht
  rcases h.course.forme.armes hmem hst with ⟨n, hn⟩ | ⟨p, hp⟩
  · exact h.rappelle_lanceur ht hn hc hmain hlance
  · obtain ⟨-, q, hq, -⟩ := TimerTache.arretDe_iff.mp hp
    exact h.rappelle_arret ht hq hc hmain

/-! ### Runs -/

theorem Sain.step (h : Sain m) {ev : EvtFermeture} (hg : m.EnOrdre env ev)
    (hs : m.step env ev = some m') : Sain m' := by
  cases ev with
  | suite => exact h.suite hg hs
  | rappelleNul a =>
      simp only [Fermeture.step] at hs
      split at hs
      · obtain rfl := Option.some.inj hs
        exact { h with }
      · cases hs
  | course e =>
      simp only [Fermeture.step] at hs
      split at hs
      · cases hs
      · rename_i hplan
        obtain ⟨c, hc, rfl⟩ := Option.map_eq_some_iff.mp hs
        have hgc : m.course.EnOrdre e := by
          cases e with
          | rappelle a => exact hg.1
          | planifie | pas | debute | depasse | avance => exact hg
        have hsain := h.course.step hgc hc
        rcases Course.step_cases hc with ⟨rfl, -, rfl⟩ | ⟨rfl, hpas⟩ | ⟨t, -, rfl, -, -, rfl⟩ |
          ⟨t, -, rfl, -, -, -, rfl⟩ | ⟨t, ht, rfl, hst, -, rfl⟩ | ⟨t, rfl, -, rfl⟩
        · have htourne : m.arret = .tourne := by simpa using hplan
          exact ⟨hsain, fun hne => absurd htourne hne, h.lanceurs, h.tenus, h.entree⟩
        · have htourne : m.arret = .tourne := by
            by_contra hne
            rw [Course.pas, h.repos hne] at hpas
            cases hpas
          have htenus := h.tenus
          rw [htourne] at htenus
          refine ⟨hsain, fun hne => absurd htourne hne, ?_, ?_, ?_⟩ <;>
            simp only [blocsApres, htourne]
          · exact fun _ _ _ => Nat.zero_le _
          · exact tenus_pas htenus h.course hgc hpas
          · trivial
        · exact ⟨hsain, h.repos, h.lanceurs, h.tenus, h.entree⟩
        · exact ⟨hsain, h.repos, h.lanceurs, h.tenus, h.entree⟩
        · exact h.rappelle (CMainTask.mem_armes.mpr ⟨ht, hst⟩) hsain hg.2.1 (hg.2.2 t ht rfl)
        · exact ⟨hsain, h.repos, h.lanceurs, { h.tenus with },
            h.entree.mono (fun _ _ _ ha => ha) (fun _ _ _ ha => ha) (fun _ _ _ hu _ => hu)⟩

theorem Sain.rienNeReste (h : Sain m) : RienNeReste m where
  unique := h.tenus.unique
  lanceurs hfini t ht := by
    by_contra hlance
    obtain ⟨n, hn⟩ := TimerTache.lance_iff.mp (by simpa using hlance)
    have hle := h.lanceurs n t (CMainTask.mem_lanceurs.mpr ⟨ht, hn⟩)
    have hlt := n.toNat_lt
    rw [hfini] at hle
    simp only [finLanceurs] at hle
    omega
  profils hfini := by
    have htenus := h.tenus
    rw [hfini] at htenus
    exact htenus.rien.1
  blocs hfini := by
    have htenus := h.tenus
    rw [hfini] at htenus
    exact htenus.rien.2

/-- Along a run in order nothing is left when the shutdown has ended, whatever the
timers have done and still do. -/
theorem arret_complet (env : Env) (t0 : ℤ) (es : List EvtFermeture)
    (hg : Execution.Meets (step env) (EnOrdre env) (depart t0) es) :
    Execution.Always (step env) RienNeReste (depart t0) es :=
  Execution.always_of_guarded (I := Sain) (fun _ h => h.rienNeReste)
    (fun _ _ _ h hg hs => h.step hg hs) (.depart t0) hg

/-- A shutdown at 50, with a profile that runs and a launcher that waits. -/
theorem arret_complet_en_cours :
    Execution.Always (step (.zoneFixe 1 0 [.planifie 1 1 50 100, .planifie 2 2 100 100]))
      RienNeReste (depart 0)
      (List.map EvtFermeture.course [.planifie, .pas, .pas, .pas, .pas, .pas, .pas, .pas,
          .debute 2, .debute 4, .avance 50, .depasse 2, .rappelle 2, .debute 7] ++
        List.replicate 12 EvtFermeture.suite) :=
  arret_complet (.zoneFixe 1 0 [.planifie 1 1 50 100, .planifie 2 2 100 100]) 0 _ (by decide)

/-- A launcher whose thread has not begun when `Stop` is called on it is armed after
the shutdown, and starts its profile; and a stop timer that calls back while the
second loop has it in hand deletes its block a second time. -/
theorem arret_incomplet :
    ¬ Execution.Always (step (.zoneFixe 1 0 [.planifie 1 1 50 100])) RienNeReste (depart 0)
        (List.map EvtFermeture.course [.planifie, .pas, .pas, .pas, .pas] ++
          List.replicate 6 EvtFermeture.suite ++
          List.map EvtFermeture.course [.debute 2, .avance 50, .depasse 2, .rappelle 2]) ∧
      ¬ Execution.Always (step (.zoneFixe 1 0 [.planifie 1 1 50 100])) RienNeReste (depart 0)
        (List.map EvtFermeture.course [.planifie, .pas, .pas, .pas, .pas, .debute 2, .avance 50,
            .depasse 2, .rappelle 2, .debute 5] ++
          List.replicate 5 EvtFermeture.suite ++
          List.map EvtFermeture.course [.avance 150, .depasse 5, .rappelle 5]) := by
  constructor
  · intro h
    have hfini := h.get (by decide)
    exact absurd (hfini.profils (by decide)) (by decide)
  · intro h
    have hmilieu := h.get (by decide)
    exact absurd hmilieu.unique (by decide)

end Fermeture

end GestAqua
