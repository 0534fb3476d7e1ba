import GestAqua.Planning.Machines

/-!
The launcher registry while planning and callbacks interleave.

Here `iInitPlanification` is a program of atomic steps (lookup, `Stop`, `erase`,
`Start`, insertion) and the thread of every timer moves on its own between them:
it begins, its `select` times out, its callback runs. A callback finds its own
entry in the registry as long as `EnOrdre` holds at every step: no launcher fires
between its `Start` and its insertion, an old launcher is stopped while its thread
waits in `select`, and an immediate launcher is not inserted over another one.
-/

namespace GestAqua

namespace CMainTask

/-- `creeLanceur` up to `Start`, before the map insertion. -/
def armeLanceur (env : Env) (cree : ℕ → Bool) (ucNumeroPlanif : UInt8) (cAutoDelete : Bool)
    (ui64Usec : ℕ) (s : CMainTask) : CMainTask :=
  { s.creeLanceur env cree ucNumeroPlanif cAutoDelete ui64Usec with
    mLanceurProfil := s.mLanceurProfil }

/-- `mLanceurProfil [ucNumeroPlanif]=LanceTacheprofil`. -/
def insereLanceur (ucNumeroPlanif : UInt8) (a : ℕ) (s : CMainTask) : CMainTask :=
  { s with mLanceurProfil := Function.update s.mLanceurProfil ucNumeroPlanif (some a) }

theorem insereLanceur_armeLanceur (env : Env) (cree : ℕ → Bool) (n : UInt8) (auto : Bool)
    (usec : ℕ) (s : CMainTask) :
    (s.armeLanceur env cree n auto usec).insereLanceur n (s.suivant + 1) =
      s.creeLanceur env cree n auto usec := by
  simp only [insereLanceur, armeLanceur, creeLanceur, TimerTache.start]
  split <;> rfl

/-- `m_hObjetAttache = NULL` on the timer at an address. -/
def detache (a : ℕ) (s : CMainTask) : CMainTask :=
  { s with timers := TimerTache.surAdresse a (fun t =>
      some { t with timer := { t.timer with hObjetAttache := none } }) s.timers }

/-- The timer at an address, when its thread has been created and has not ended. -/
def enMarche (a : ℕ) (s : CMainTask) : Option TimerTache :=
  s.timers.find? fun t => t.adresse == a && t.timer.bStarted

theorem enMarche_eq_some {a : ℕ} {s : CMainTask} {t : TimerTache} (h : s.enMarche a = some t) :
    t ∈ s.timers ∧ t.adresse = a ∧ t.timer.bStarted = true := by
  have hp := List.find?_some h
  simp only [Bool.and_eq_true, beq_iff_eq] at hp
  exact ⟨List.mem_of_find?_eq_some h, hp⟩

theorem enMarche_eq_none {a : ℕ} {s : CMainTask} (h : s.enMarche a = none) {t : TimerTache}
    (ht : t ∈ s.timers) (hst : t.timer.bStarted = true) : t.adresse ≠ a := by
  have hp := List.find?_eq_none.mp h t ht
  simpa [hst] using hp

end CMainTask

/-- Where the thread of a timer is: created, in `select`, or past a `select` that
timed out and a stop flag that was clear. -/
inductive PhaseFil
  | cree | attend | expire
  deriving DecidableEq, Repr

/-- The next atomic step of `iInitPlanification`: the tests and the lookup for
the first of the remaining entries, or an operation on the entry in hand.
`differe` tells the branch of the launcher that is started for later. -/
inductive Etape
  | repos
  | boucle (tOffsetMidnight : ℤ) (reste : List DefPlanificationProfil)
  | stoppe (tOffsetMidnight : ℤ) (e : DefPlanificationProfil)
      (reste : List DefPlanificationProfil) (pOldTimer : ℕ)
  | efface (tOffsetMidnight : ℤ) (e : DefPlanificationProfil)
      (reste : List DefPlanificationProfil) (pOldTimer : ℕ)
  | demarre (tOffsetMidnight : ℤ) (e : DefPlanificationProfil)
      (reste : List DefPlanificationProfil) (differe : Bool)
  | insere (tOffsetMidnight : ℤ) (e : DefPlanificationProfil)
      (reste : List DefPlanificationProfil) (differe : Bool) (lanceTacheprofil : ℕ)
  deriving DecidableEq, Repr

/-- The launcher that has been started and is not inserted yet. -/
def Etape.enAttente : Etape → Option (UInt8 × ℕ)
  | .insere _ e _ _ a => some (e.ucNumeroPlanif, a)
  | _ => none

/-- The main task between two atomic steps, with the phase of the thread of the
timer at each address and the addresses of the timers that have fired. -/
structure Course where
  tache : CMainTask
  etape : Etape
  phase : ℕ → PhaseFil
  tires : List ℕ

inductive EvtCourse
  | planifie
  | pas
  | debute (a : ℕ)
  | depasse (a : ℕ)
  | rappelle (a : ℕ)
  | avance (t : ℤ)
  deriving DecidableEq, Repr

namespace Course

def depart (t0 : ℤ) : Course where
  tache := .construit t0
  etape := .repos
  phase _ := .cree
  tires := []

/-- `CTimer::Stop` on the timer at an address, where its thread is. -/
def stop (a : ℕ) (m : Course) : Option Course :=
  match m.tache.enMarche a with
  | none => some m
  | some t =>
    match m.phase a with
    -- `m_bStarted` is not set yet and `Stop` returns
    | .cree => some m
    | .attend => some { m with tache := m.tache.stop a }
    -- the pipe is read by nobody; `pthread_join` waits for the callback
    | .expire => if t.cAutoDelete then some { m with tache := m.tache.detache a } else none

def pas (env : Env) (m : Course) : Option Course :=
  match m.etape with
  | .repos => none
  | .boucle _ [] => some { m with etape := .repos }
  | .boucle off (e :: reste) =>
    if e.ucNumeroPlanif = 0 then some { m with etape := .boucle off reste }
    else if e.stPlanif.tDebut > off then
      match m.tache.mLanceurProfil e.ucNumeroPlanif with
      | some pOldTimer => some { m with etape := .stoppe off e reste pOldTimer }
      | none => some { m with etape := .demarre off e reste true }
    else if e.stPlanif.tDebut + e.stPlanif.tPeriod > off then
      some { m with etape := .demarre off e reste false }
    else some { m with etape := .boucle off reste }
  | .stoppe off e reste pOldTimer =>
    (m.stop pOldTimer).map fun m => { m with etape := .efface off e reste pOldTimer }
  | .efface off e reste _ =>
    some { m with
      tache := m.tache.effaceLanceur e.ucNumeroPlanif
      etape := .demarre off e reste true }
  | .demarre off e reste differe =>
    let usec := if differe then uint64 (e.stPlanif.tDebut - off) * microSec % 2 ^ 64 else 100
    some { m with
      tache := m.tache.armeLanceur env toujours e.ucNumeroPlanif differe usec
      etape := .insere off e reste differe (m.tache.suivant + 1) }
  | .insere off e reste _ lanceTacheprofil =>
    some { m with
      tache := m.tache.insereLanceur e.ucNumeroPlanif lanceTacheprofil
      etape := .boucle off reste }

def step (env : Env) (m : Course) : EvtCourse → Option Course
  | .planifie =>
    if m.etape = .repos then
      some { m with etape := .boucle (m.tache.tOffsetMidnight env) env.stPlanifProfil }
    else none
  | .pas => m.pas env
  | .debute a =>
    if m.phase a = .cree then
      (m.tache.enMarche a).map fun _ => { m with phase := Function.update m.phase a .attend }
    else none
  | .depasse a =>
    if m.phase a = .attend then
      (m.tache.echu a).map fun _ => { m with phase := Function.update m.phase a .expire }
    else none
  | .rappelle a =>
    if m.phase a = .expire then
      (m.tache.enMarche a).map fun t =>
        { m with tache := m.tache.expire env toujours t, tires := a :: m.tires }
    else none
  | .avance t =>
    if m.tache.maintenant ≤ t then
      some { m with tache := { m.tache with maintenant := t } }
    else none

theorem step_cases {env : Env} {m m' : Course} {ev : EvtCourse} (h : m.step env ev = some m') :
    (ev = .planifie ∧ m.etape = .repos ∧
      m' = { m with etape := .boucle (m.tache.tOffsetMidnight env) env.stPlanifProfil }) ∨
    (ev = .pas ∧ m.pas env = some m') ∨
    (∃ t ∈ m.tache.timers, ev = .debute t.adresse ∧ t.timer.bStarted = true ∧
      m.phase t.adresse = .cree ∧
      m' = { m with phase := Function.update m.phase t.adresse .attend }) ∨
    (∃ t ∈ m.tache.timers, ev = .depasse t.adresse ∧ t.timer.bStarted = true ∧
      m.phase t.adresse = .attend ∧ t.echeance ≤ m.tache.maintenant ∧
      m' = { m with phase := Function.update m.phase t.adresse .expire }) ∨
    (∃ t ∈ m.tache.timers, ev = .rappelle t.adresse ∧ t.timer.bStarted = true ∧
      m.phase t.adresse = .expire ∧
      m' = { m with
        tache := m.tache.expire env toujours t
        tires := t.adresse :: m.tires }) ∨
    (∃ t, ev = .avance t ∧ m.tache.maintenant ≤ t ∧
      m' = { m with tache := { m.tache with maintenant := t } }) := by
  cases ev with
  | planifie =>
      simp only [step] at h
      split at h
      · exact .inl ⟨rfl, ‹_›, (Option.some.inj h).symm⟩
      · cases h
  | pas => exact .inr (.inl ⟨rfl, h⟩)
  | debute a =>
      simp only [step] at h
      split at h
      · rename_i hphase
        obtain ⟨t, ht, rfl⟩ := Option.map_eq_some_iff.mp h
        obtain ⟨hmem, rfl, hst⟩ := CMainTask.enMarche_eq_some ht
        exact .inr (.inr (.inl ⟨t, hmem, rfl, hst, hphase, rfl⟩))
      · cases h
  | depasse a =>
      simp only [step] at h
      split at h
      · rename_i hphase
        obtain ⟨t, ht, rfl⟩ := Option.map_eq_some_iff.mp h
        obtain ⟨hmem, rfl, hst, hdue⟩ := CMainTask.echu_eq_some ht
        exact .inr (.inr (.inr (.inl ⟨t, hmem, rfl, hst, hphase, hdue, rfl⟩)))
      · cases h
  | rappelle a =>
      simp only [step] at h
      split at h
      · rename_i hphase
        obtain ⟨t, ht, rfl⟩ := Option.map_eq_some_iff.mp h
        obtain ⟨hmem, rfl, hst⟩ := CMainTask.enMarche_eq_some ht
        exact .inr (.inr (.inr (.inr (.inl ⟨t, hmem, rfl, hst, hphase, rfl⟩))))
      · cases h
  | avance t =>
      simp only [step] at h
      split at h
      · exact .inr (.inr (.inr (.inr (.inr ⟨t, rfl, ‹_›, (Option.some.inj h).symm⟩))))
      · cases h

/-! ### The condition and the property -/

def PasEnOrdre (m : Course) : Etape → Prop
  | .stoppe _ _ _ a => a ∉ m.tires ∧
      ∀ t ∈ m.tache.timers, t.adresse = a → t.timer.bStarted = true → m.phase a = .attend
  | .insere _ e _ differe _ => differe = false → m.tache.mLanceurProfil e.ucNumeroPlanif = none
  | .repos | .boucle _ _ | .efface _ _ _ _ | .demarre _ _ _ _ => True

/-- The conditions under which the registry stays sound. A launcher fires after
its insertion; an old launcher is stopped before it has fired, while its thread,
if it has one, waits in `select`; an immediate launcher is inserted where the
registry has no entry. -/
def EnOrdre (m : Course) : EvtCourse → Prop
  | .rappelle a => ∀ k ∈ m.etape.enAttente, k.2 ≠ a
  | .pas => m.PasEnOrdre m.etape
  | .planifie | .debute _ | .depasse _ | .avance _ => True

/-- The callback of the timer at `a`, with its object attached, finds this timer
in the launcher registry if it is a launcher's. -/
def RappelTrouve (s : CMainTask) (a : ℕ) : Option Rappel → Prop
  | some (.fctStartProfil pParam) => s.mLanceurProfil pParam.ucNumeroPlanif = some a
  | some (.fctStopProfil _) => True
  | none => False

/-- `erase(it)` finds the launcher that was looked up. -/
def PasTrouve (s : CMainTask) : Etape → Prop
  | .efface _ e _ a => s.mLanceurProfil e.ucNumeroPlanif = some a
  | .repos | .boucle _ _ | .stoppe _ _ _ _ | .demarre _ _ _ _ | .insere _ _ _ _ _ => True

/-- The registry entry that a step erases is the entry of the timer for which it
is erased. -/
def Trouve (m : Course) : EvtCourse → Prop
  | .rappelle a => ∀ t ∈ m.tache.timers, t.adresse = a → t.timer.bStarted = true →
      RappelTrouve m.tache a t.timer.hObjetAttache
  | .pas => PasTrouve m.tache m.etape
  | .planifie | .debute _ | .depasse _ | .avance _ => True

/-- No entry of the registry is left for a timer that has fired. -/
def SansReste (m : Course) : Prop :=
  ∀ n a, m.tache.mLanceurProfil n = some a → a ∉ m.tires

instance (m : Course) : ∀ et, Decidable (m.PasEnOrdre et)
  | .stoppe _ _ _ a => inferInstanceAs (Decidable (a ∉ m.tires ∧
      ∀ t ∈ m.tache.timers, t.adresse = a → t.timer.bStarted = true → m.phase a = .attend))
  | .insere _ e _ differe _ => inferInstanceAs (Decidable
      (differe = false → m.tache.mLanceurProfil e.ucNumeroPlanif = none))
  | .repos | .boucle _ _ | .efface _ _ _ _ | .demarre _ _ _ _ => isTrue trivial

instance (m : Course) : ∀ ev, Decidable (m.EnOrdre ev)
  | .rappelle a => inferInstanceAs (Decidable (∀ k ∈ m.etape.enAttente, k.2 ≠ a))
  | .pas => inferInstanceAs (Decidable (m.PasEnOrdre m.etape))
  | .planifie | .debute _ | .depasse _ | .avance _ => isTrue trivial

instance (s : CMainTask) (a : ℕ) : ∀ r, Decidable (RappelTrouve s a r)
  | some (.fctStartProfil pParam) =>
    inferInstanceAs (Decidable (s.mLanceurProfil pParam.ucNumeroPlanif = some a))
  | some (.fctStopProfil _) => isTrue trivial
  | none => isFalse id

instance (s : CMainTask) : ∀ et, Decidable (PasTrouve s et)
  | .efface _ e _ a => inferInstanceAs (Decidable (s.mLanceurProfil e.ucNumeroPlanif = some a))
  | .repos | .boucle _ _ | .stoppe _ _ _ _ | .demarre _ _ _ _ | .insere _ _ _ _ _ =>
    isTrue trivial

instance (m : Course) : ∀ ev, Decidable (m.Trouve ev)
  | .rappelle a => inferInstanceAs (Decidable (∀ t ∈ m.tache.timers, t.adresse = a →
      t.timer.bStarted = true → RappelTrouve m.tache a t.timer.hObjetAttache))
  | .pas => inferInstanceAs (Decidable (PasTrouve m.tache m.etape))
  | .planifie | .debute _ | .depasse _ | .avance _ => isTrue trivial

/-! ### The invariant -/

/-- What is known at each point of the program about the entry in hand. -/
def EtapeSaine (s : CMainTask) (tires : List ℕ) : Etape → Prop
  | .repos | .boucle _ _ => True
  | .stoppe _ e _ a => e.ucNumeroPlanif ≠ 0 ∧
      (s.mLanceurProfil e.ucNumeroPlanif = some a ∨ a ∈ tires)
  | .efface _ e _ a => e.ucNumeroPlanif ≠ 0 ∧
      s.mLanceurProfil e.ucNumeroPlanif = some a ∧ s.lanceurs e.ucNumeroPlanif = []
  | .demarre _ e _ differe => e.ucNumeroPlanif ≠ 0 ∧
      (differe = true → s.mLanceurProfil e.ucNumeroPlanif = none)
  | .insere _ e _ differe a => e.ucNumeroPlanif ≠ 0 ∧
      (differe = true → s.mLanceurProfil e.ucNumeroPlanif = none) ∧
      a < s.suivant ∧ a ∉ tires ∧
      ∀ t ∈ s.timers, t.adresse = a → t.timer.bStarted = true →
        t.lanceurDe e.ucNumeroPlanif = true

/-- Every armed launcher is the entry of its plan or waits for its insertion, and
the entries are of timers that have not fired. -/
structure Sain (m : Course) : Prop where
  forme : BienForme m.tache
  lanceurs : ∀ n, ∀ t ∈ m.tache.lanceurs n,
    m.tache.mLanceurProfil n = some t.adresse ∨ m.etape.enAttente = some (n, t.adresse)
  sansReste : m.SansReste
  tires_lt : ∀ a ∈ m.tires, a < m.tache.suivant
  etape : EtapeSaine m.tache m.tires m.etape

variable {env : Env} {m m' : Course}

theorem Sain.depart (t0 : ℤ) : Sain (depart t0) where
  forme := .construit t0
  lanceurs := by
    intro n t ht
    cases (CMainTask.mem_lanceurs.mp ht).1
  sansReste := by
    intro n a h
    cases h
  tires_lt := by
    intro a ha
    cases ha
  etape := trivial

/-- A launcher that does not wait for its insertion is the entry of its plan. -/
theorem Sain.registre (h : Sain m) {n : UInt8} {t : TimerTache} (ht : t ∈ m.tache.lanceurs n)
    (hatt : ∀ k ∈ m.etape.enAttente, k.2 ≠ t.adresse) :
    m.tache.mLanceurProfil n = some t.adresse :=
  (h.lanceurs n t ht).resolve_right fun hk => hatt _ hk rfl

theorem Sain.passe (h : Sain m) {et : Etape} (h0 : m.etape.enAttente = none)
    (h1 : et.enAttente = none) (het : EtapeSaine m.tache m.tires et) :
    Sain { m with etape := et } where
  forme := h.forme
  lanceurs := by
    intro n t ht
    rw [h1, ← h0]
    exact h.lanceurs n t ht
  sansReste := h.sansReste
  tires_lt := h.tires_lt
  etape := het

/-! ### The steps of the program -/

theorem stop_cases {a : ℕ} (hs : m.stop a = some m')
    (hatt : ∀ t ∈ m.tache.timers, t.adresse = a → t.timer.bStarted = true →
      m.phase a = .attend) :
    m' = m ∧ m.tache.enMarche a = none ∨ m' = { m with tache := m.tache.stop a } := by
  unfold Course.stop at hs
  split at hs
  · rename_i hnone
    exact .inl ⟨(Option.some.inj hs).symm, hnone⟩
  · rename_i t ht
    obtain ⟨hmem, hadr, hst⟩ := CMainTask.enMarche_eq_some ht
    rw [hatt t hmem hadr hst] at hs
    exact .inr (Option.some.inj hs).symm

theorem Sain.stoppe (h : Sain m) {off : ℤ} {e : DefPlanificationProfil}
    {reste : List DefPlanificationProfil} {a : ℕ} (het : m.etape = .stoppe off e reste a)
    (hg : m.PasEnOrdre m.etape) (hs : m.stop a = some m') :
    Sain { m' with etape := .efface off e reste a } := by
  have hatt : m.etape.enAttente = none := by
    rw [het]
    rfl
  rw [het] at hg
  obtain ⟨hn, hreg⟩ : EtapeSaine m.tache m.tires (.stoppe off e reste a) := het ▸ h.etape
  have hreg : m.tache.mLanceurProfil e.ucNumeroPlanif = some a := hreg.resolve_right hg.1
  have honly : ∀ t ∈ m.tache.lanceurs e.ucNumeroPlanif, t.adresse = a := by
    intro t ht
    have hk := h.registre ht (by simp [hatt])
    rw [hreg] at hk
    exact (Option.some.inj hk).symm
  rcases stop_cases hs hg.2 with ⟨rfl, hnone⟩ | rfl
  · refine h.passe hatt rfl ⟨hn, hreg, List.eq_nil_iff_forall_not_mem.mpr fun t ht => ?_⟩
    obtain ⟨hmem, hlt⟩ := CMainTask.mem_lanceurs.mp ht
    exact CMainTask.enMarche_eq_none hnone hmem (TimerTache.lanceurDe_iff.mp hlt).1 (honly t ht)
  · refine ⟨h.forme.stop a, fun k t ht => ?_, h.sansReste, h.tires_lt, hn, hreg, ?_⟩
    · rw [CMainTask.lanceurs_stop, List.mem_filter] at ht
      exact .inl (h.registre ht.1 (by simp [hatt]))
    · rw [CMainTask.lanceurs_stop, List.filter_eq_nil_iff]
      intro t ht
      simpa using honly t ht

theorem Sain.efface (h : Sain m) {off : ℤ} {e : DefPlanificationProfil}
    {reste : List DefPlanificationProfil} {a : ℕ} (het : m.etape = .efface off e reste a) :
    Sain { m with
      tache := m.tache.effaceLanceur e.ucNumeroPlanif
      etape := .demarre off e reste true } := by
  obtain ⟨hn, -, hnil⟩ : EtapeSaine m.tache m.tires (.efface off e reste a) := het ▸ h.etape
  have hsame : ∀ k, k ≠ e.ucNumeroPlanif →
      (m.tache.effaceLanceur e.ucNumeroPlanif).mLanceurProfil k = m.tache.mLanceurProfil k :=
    fun k hk => Function.update_of_ne hk _ _
  have hnone : (m.tache.effaceLanceur e.ucNumeroPlanif).mLanceurProfil e.ucNumeroPlanif = none :=
    Function.update_self _ _ _
  refine ⟨h.forme.effaceLanceur _, fun k t ht => ?_, fun k b hb => ?_, h.tires_lt, hn,
    fun _ => hnone⟩
  · have ht : t ∈ m.tache.lanceurs k := ht
    have hk : k ≠ e.ucNumeroPlanif := by
      rintro rfl
      rw [hnil] at ht
      cases ht
    exact .inl ((hsame k hk).trans (h.registre ht (by simp [het, Etape.enAttente])))
  · by_cases hk : k = e.ucNumeroPlanif
    · rw [hk, hnone] at hb
      cases hb
    · exact h.sansReste k b ((hsame k hk).symm.trans hb)

theorem Sain.demarre (h : Sain m) {off : ℤ} {e : DefPlanificationProfil}
    {reste : List DefPlanificationProfil} {differe : Bool}
    (het : m.etape = .demarre off e reste differe) (usec : ℕ) :
    Sain { m with
      tache := m.tache.armeLanceur env toujours e.ucNumeroPlanif differe usec
      etape := .insere off e reste differe (m.tache.suivant + 1) } := by
  obtain ⟨hn, hnone⟩ : EtapeSaine m.tache m.tires (.demarre off e reste differe) := het ▸ h.etape
  have hcree : BienForme (m.tache.creeLanceur env toujours e.ucNumeroPlanif differe usec) :=
    h.forme.creeLanceur hn differe usec
  have hnouveau := hcree.lanceur e.ucNumeroPlanif (m.tache.suivant + 1)
    (by simp [CMainTask.creeLanceur])
  have hlt : ∀ b, b < m.tache.suivant → b < m.tache.suivant + 2 :=
    fun b hb => Nat.lt_add_right 2 hb
  refine ⟨{ hcree with lanceur := ?_ }, ?_, h.sansReste, ?_, hn, hnone, ?_, ?_, hnouveau.2⟩
  · intro k b hb
    obtain ⟨hb, hall⟩ := h.forme.lanceur k b hb
    refine ⟨hlt b hb, fun t ht hadr hst => ?_⟩
    rcases List.mem_cons.mp ht with rfl | ht
    · rw [toujours_eq, TimerTache.start_nouveau_adresse] at hadr
      omega
    · exact hall t ht hadr hst
  · intro k t ht
    obtain ⟨ht, hk⟩ := CMainTask.mem_lanceurs.mp ht
    rcases List.mem_cons.mp ht with rfl | hold
    · have hadr := TimerTache.start_nouveau_adresse env (m.tache.suivant + 1) differe
        m.tache.maintenant usec (.fctStartProfil ⟨m.tache.suivant, e.ucNumeroPlanif⟩)
      have hn' := hnouveau.2 _ ht hadr (TimerTache.lanceurDe_iff.mp hk).1
      obtain rfl := TimerTache.lanceurDe_unique hk hn'
      exact .inr (congrArg (fun a => some (e.ucNumeroPlanif, a)) hadr.symm)
    · exact .inl (h.registre (CMainTask.mem_lanceurs.mpr ⟨hold, hk⟩)
        (by simp [het, Etape.enAttente]))
  · exact fun b hb => hlt b (h.tires_lt b hb)
  · exact hnouveau.1
  · intro hfired
    have := h.tires_lt _ hfired
    omega

theorem Sain.insere (h : Sain m) {off : ℤ} {e : DefPlanificationProfil}
    {reste : List DefPlanificationProfil} {differe : Bool} {a : ℕ}
    (het : m.etape = .insere off e reste differe a) (hg : m.PasEnOrdre m.etape) :
    Sain { m with
      tache := m.tache.insereLanceur e.ucNumeroPlanif a
      etape := .boucle off reste } := by
  rw [het] at hg
  obtain ⟨hn, hdiff, hlt, hfired, harme⟩ :
    EtapeSaine m.tache m.tires (.insere off e reste differe a) := het ▸ h.etape
  have hvide : m.tache.mLanceurProfil e.ucNumeroPlanif = none := by
    cases differe with
    | true => exact hdiff rfl
    | false => exact hg rfl
  have hself : (m.tache.insereLanceur e.ucNumeroPlanif a).mLanceurProfil e.ucNumeroPlanif =
      some a := Function.update_self _ _ _
  have hsame : ∀ k, k ≠ e.ucNumeroPlanif →
      (m.tache.insereLanceur e.ucNumeroPlanif a).mLanceurProfil k = m.tache.mLanceurProfil k :=
    fun k hk => Function.update_of_ne hk _ _
  refine ⟨{ h.forme with lanceur := ?_ }, ?_, ?_, h.tires_lt, trivial⟩
  · intro k b hb
    by_cases hk : k = e.ucNumeroPlanif
    · subst hk
      obtain rfl := Option.some.inj (hself.symm.trans hb)
      exact ⟨hlt, harme⟩
    · exact h.forme.lanceur k b ((hsame k hk).symm.trans hb)
  · intro k t ht
    have ht : t ∈ m.tache.lanceurs k := ht
    have hor := h.lanceurs k t ht
    rw [het] at hor
    by_cases hk : k = e.ucNumeroPlanif
    · subst hk
      -- the plan had no entry, so the launcher at hand is its only one
      rw [hvide] at hor
      obtain ⟨-, hadr⟩ := Prod.mk.inj (Option.some.inj (hor.resolve_left (by simp)))
      exact .inl (hself.trans (congrArg some hadr))
    · refine .inl ((hsame k hk).trans (hor.resolve_right fun hatt => hk ?_))
      exact (Prod.mk.inj (Option.some.inj hatt)).1.symm
  · intro k b hb
    by_cases hk : k = e.ucNumeroPlanif
    · subst hk
      obtain rfl := Option.some.inj (hself.symm.trans hb)
      exact hfired
    · exact h.sansReste k b ((hsame k hk).symm.trans hb)

theorem Sain.pas (h : Sain m) (hg : m.PasEnOrdre m.etape) (hs : m.pas env = some m') :
    Sain m' := by
  unfold Course.pas at hs
  cases het : m.etape with
  | repos =>
      rw [het] at hs
      cases hs
  | boucle off l =>
      have hatt : m.etape.enAttente = none := by
        rw [het]
        rfl
      rw [het] at hs
      cases l with
      | nil =>
          obtain rfl := Option.some.inj hs
          exact h.passe hatt rfl trivial
      | cons e reste =>
          dsimp only at hs
          split at hs
          · obtain rfl := Option.some.inj hs
            exact h.passe hatt rfl trivial
          · rename_i hn
            split at hs
            · split at hs
              · rename_i a ha
                obtain rfl := Option.some.inj hs
                exact h.passe hatt rfl ⟨hn, .inl ha⟩
              · rename_i hnone
                obtain rfl := Option.some.inj hs
                exact h.passe hatt rfl ⟨hn, fun _ => hnone⟩
            · split at hs
              · obtain rfl := Option.some.inj hs
                exact h.passe hatt rfl ⟨hn, by simp⟩
              · obtain rfl := Option.some.inj hs
                exact h.passe hatt rfl trivial
  | stoppe off e reste a =>
      rw [het] at hs
      obtain ⟨r, hr, rfl⟩ := Option.map_eq_some_iff.mp hs
      exact h.stoppe het hg hr
  | efface off e reste a =>
      rw [het] at hs
      obtain rfl := Option.some.inj hs
      exact h.efface het
  | demarre off e reste differe =>
      rw [het] at hs
      obtain rfl := Option.some.inj hs
      exact h.demarre het _
  | insere off e reste differe a =>
      rw [het] at hs
      obtain rfl := Option.some.inj hs
      exact h.insere het hg

/-! ### The callbacks -/

variable (env) in
/-- A callback allocates at fresh addresses and ends the thread that ran it. -/
theorem expire_alloue (s : CMainTask) (t : TimerTache) :
    s.suivant ≤ (s.expire env toujours t).suivant ∧
      ∀ u ∈ (s.expire env toujours t).timers, u.timer.bStarted = true →
        u ∈ s.timers ∨ s.suivant ≤ u.adresse := by
  have hrap : s.suivant ≤ (s.rappelle env toujours t.timer.hObjetAttache).suivant ∧
      ∀ u ∈ (s.rappelle env toujours t.timer.hObjetAttache).timers,
        u ∈ s.timers ∨ s.suivant ≤ u.adresse := by
    unfold CMainTask.rappelle
    split
    · show s.suivant ≤ (s.iStartProfil env toujours _).2.suivant ∧
        ∀ u ∈ (s.iStartProfil env toujours _).2.timers, _
      unfold CMainTask.iStartProfil
      split
      · refine Folds.foldl_invariant (I := fun r : CMainTask => s.suivant ≤ r.suivant ∧
          ∀ u ∈ r.timers, u ∈ s.timers ∨ s.suivant ≤ u.adresse) (fun r e _ hr => ?_)
          ⟨Nat.le_refl _, fun u hu => .inl hu⟩
        split
        · refine ⟨Nat.le_add_right_of_le hr.1, fun u hu => ?_⟩
          rcases List.mem_cons.mp hu with rfl | hu
          · rw [toujours_eq, TimerTache.start_nouveau_adresse]
            exact .inr (Nat.le_add_right_of_le hr.1)
          · exact hr.2 u hu
        · exact hr
      · exact ⟨Nat.le_refl _, fun u hu => .inl hu⟩
    · show s.suivant ≤ (s.iStopProfil _ _).2.suivant ∧
        ∀ u ∈ (s.iStopProfil _ _).2.timers, _
      unfold CMainTask.iStopProfil
      split <;> exact ⟨Nat.le_refl _, fun u hu => .inl hu⟩
    · exact ⟨Nat.le_refl _, fun u hu => .inl hu⟩
  refine ⟨hrap.1, fun u hu hst => ?_⟩
  rcases TimerTache.mem_surAdresse.mp hu with ⟨hu, -⟩ | ⟨v, -, -, hv⟩
  · exact hrap.2 u hu
  · rw [TimerTache.fini_not_started hv] at hst
    cases hst

variable (env) in
theorem vueLanceur_expire_arme {s : CMainTask} (h : BienForme s) {t : TimerTache}
    (ht : t ∈ s.timers) (hst : t.timer.bStarted = true) (k : UInt8) :
    (s.expire env toujours t).vueLanceur k =
      if t.lanceurDe k = true then ⟨(s.lanceurs k).filter (·.adresse ≠ t.adresse), none⟩
      else s.vueLanceur k := by
  rcases h.armes ht hst with ⟨n, hn⟩ | ⟨p, hp⟩
  · rw [CMainTask.vueLanceur_expire env h (CMainTask.mem_lanceurs.mpr ⟨ht, hn⟩)]
    by_cases hk : k = n
    · subst hk
      rw [if_pos rfl, if_pos hn]
    · rw [if_neg hk, if_neg fun hcon => hk (TimerTache.lanceurDe_unique hcon hn)]
  · rw [CMainTask.vueLanceur_expire_arret h (CMainTask.mem_arrets.mpr ⟨ht, hp⟩), if_neg]
    intro hcon
    rw [TimerTache.not_arretDe_of_lanceurDe hcon] at hp
    cases hp

theorem Sain.rappelle (h : Sain m) {t : TimerTache} (ht : t ∈ m.tache.timers)
    (hst : t.timer.bStarted = true) (hg : ∀ k ∈ m.etape.enAttente, k.2 ≠ t.adresse) :
    Sain { m with tache := m.tache.expire env toujours t, tires := t.adresse :: m.tires } := by
  obtain ⟨hsuiv, halloue⟩ := expire_alloue env m.tache t
  have hlt := h.forme.adresse_lt t ht
  have hvue := vueLanceur_expire_arme env h.forme ht hst
  have hreg : ∀ k, (m.tache.expire env toujours t).mLanceurProfil k =
      if t.lanceurDe k = true then none else m.tache.mLanceurProfil k := by
    intro k
    have hk := congrArg VueLanceur.registre (hvue k)
    rwa [apply_ite VueLanceur.registre] at hk
  have hlan : ∀ k, ∀ u ∈ (m.tache.expire env toujours t).lanceurs k,
      u ∈ m.tache.lanceurs k ∧ (t.lanceurDe k = true → u.adresse ≠ t.adresse) := by
    intro k u hu
    have hk := congrArg VueLanceur.lanceurs (hvue k)
    rw [apply_ite VueLanceur.lanceurs] at hk
    rw [show (m.tache.expire env toujours t).lanceurs k = _ from hk] at hu
    split at hu
    · obtain ⟨hu, hne⟩ := List.mem_filter.mp hu
      exact ⟨hu, fun _ => by simpa using hne⟩
    · exact ⟨hu, fun hcon => absurd hcon ‹_›⟩
  have hown : ∀ k, t.lanceurDe k = true → m.tache.mLanceurProfil k = some t.adresse :=
    fun k hk => h.registre (CMainTask.mem_lanceurs.mpr ⟨ht, hk⟩) hg
  have hnone : ∀ k, m.tache.mLanceurProfil k = none →
      (m.tache.expire env toujours t).mLanceurProfil k = none := by
    intro k hk
    rw [hreg, hk, ite_self]
  refine ⟨h.forme.expire t, fun k u hu => ?_, fun k b hb => ?_, fun b hb => ?_, ?_⟩
  · obtain ⟨hu, hne⟩ := hlan k u hu
    refine (h.lanceurs k u hu).imp_left fun hk => ?_
    show (m.tache.expire env toujours t).mLanceurProfil k = some u.adresse
    rw [hreg, if_neg, hk]
    intro hcon
    exact hne hcon (Option.some.inj (hk.symm.trans (hown k hcon)))
  · have hb : (m.tache.expire env toujours t).mLanceurProfil k = some b := hb
    rw [hreg] at hb
    split at hb
    · cases hb
    · rename_i hk
      intro hfired
      rcases List.mem_cons.mp hfired with rfl | hfired
      · exact hk ((h.forme.lanceur k _ hb).2 t ht rfl hst)
      · exact h.sansReste k b hb hfired
  · rcases List.mem_cons.mp hb with rfl | hb
    · exact Nat.lt_of_lt_of_le hlt hsuiv
    · exact Nat.lt_of_lt_of_le (h.tires_lt b hb) hsuiv
  · have het := h.etape
    show EtapeSaine _ (t.adresse :: m.tires) m.etape
    cases hm : m.etape with
    | repos => trivial
    | boucle => trivial
    | stoppe off e reste a =>
        rw [hm] at het
        refine ⟨het.1, ?_⟩
        -- either the plan keeps its entry, or the timer that fires is this entry
        by_cases hk : t.lanceurDe e.ucNumeroPlanif = true
        · rcases het.2 with ha | ha
          · rw [hown _ hk] at ha
            exact .inr (Option.some.inj ha ▸ List.mem_cons_self)
          · exact .inr (List.mem_cons_of_mem _ ha)
        · rw [hreg, if_neg hk]
          exact het.2.imp_right (List.mem_cons_of_mem _)
    | efface off e reste a =>
        rw [hm] at het
        have hk : ¬ t.lanceurDe e.ucNumeroPlanif = true := by
          intro hk
          have hmem := CMainTask.mem_lanceurs.mpr ⟨ht, hk⟩
          rw [het.2.2] at hmem
          cases hmem
        refine ⟨het.1, by rw [hreg, if_neg hk, het.2.1], ?_⟩
        apply List.eq_nil_iff_forall_not_mem.mpr
        intro u hu
        have hu := (hlan _ u hu).1
        rw [het.2.2] at hu
        cases hu
    | demarre off e reste differe =>
        rw [hm] at het
        exact ⟨het.1, fun hd => hnone _ (het.2 hd)⟩
    | insere off e reste differe a =>
        rw [hm] at het hg
        obtain ⟨hn, hdiff, halt, hfired, harme⟩ := het
        refine ⟨hn, fun hd => hnone _ (hdiff hd), Nat.lt_of_lt_of_le halt hsuiv, ?_, ?_⟩
        · intro hmem
          rcases List.mem_cons.mp hmem with rfl | hmem
          · exact hg _ rfl rfl
          · exact hfired hmem
        · intro u hu hadr hust
          rcases halloue u hu hust with hu | hle
          · exact harme u hu hadr hust
          · omega

/-! ### An entry without interleaving -/

theorem stop_not_armed {s : CMainTask} {a : ℕ} (h : s.enMarche a = none) : s.stop a = s := by
  have hid : TimerTache.surAdresse a TimerTache.stop s.timers = s.timers := by
    rw [TimerTache.surAdresse]
    refine (List.filterMap_congr fun t ht => ?_).trans List.filterMap_some
    split
    · rename_i ha
      have hst : t.timer.bStarted = false := by
        by_contra hcon
        exact CMainTask.enMarche_eq_none h ht (by simpa using hcon) ha
      rw [TimerTache.stop, if_pos hst]
    · rfl
  rw [CMainTask.stop, hid]

/-- The steps of an entry, taken without interruption when the thread of its old
launcher waits in `select`, are the body of the planning loop. -/
theorem pas_planifieEntree (env : Env) (m : Course) {off : ℤ} {e : DefPlanificationProfil}
    {reste : List DefPlanificationProfil} (het : m.etape = .boucle off (e :: reste))
    (hatt : ∀ a ∈ m.tache.mLanceurProfil e.ucNumeroPlanif, m.tache.enMarche a ≠ none →
      m.phase a = .attend) :
    ∃ k, Execution.exec (step env) m (List.replicate k .pas) =
      some { m with
        tache := m.tache.planifieEntree env toujours off e
        etape := .boucle off reste } := by
  by_cases hn : e.ucNumeroPlanif = 0
  · refine ⟨1, ?_⟩
    simp [Execution.exec, Course.step, Course.pas, het, CMainTask.planifieEntree, hn]
  by_cases hdeb : e.stPlanif.tDebut > off
  · cases hreg : m.tache.mLanceurProfil e.ucNumeroPlanif with
    | none =>
        refine ⟨3, ?_⟩
        simp [List.replicate, Execution.exec, Course.step, Course.pas, het, hn, hdeb, hreg,
          CMainTask.planifieEntree, CMainTask.remplaceLanceur,
          CMainTask.insereLanceur_armeLanceur]
    | some a =>
        have hstop : ∀ et, ({ m with etape := et } : Course).stop a =
            some { m with tache := m.tache.stop a, etape := et } := by
          intro et
          unfold Course.stop
          cases hmarche : m.tache.enMarche a with
          | none => rw [stop_not_armed hmarche]
          | some t => simp only [hatt a hreg (by simp [hmarche])]
        refine ⟨5, ?_⟩
        simp [List.replicate, Execution.exec, Course.step, Course.pas, het, hn, hdeb, hreg, hstop,
          CMainTask.planifieEntree, CMainTask.remplaceLanceur,
          CMainTask.insereLanceur_armeLanceur]
  · by_cases hfin : e.stPlanif.tDebut + e.stPlanif.tPeriod > off
    · refine ⟨3, ?_⟩
      simp [List.replicate, Execution.exec, Course.step, Course.pas, het, hn, hdeb, hfin,
        CMainTask.planifieEntree, CMainTask.insereLanceur_armeLanceur]
    · refine ⟨1, ?_⟩
      simp [Execution.exec, Course.step, Course.pas, het, CMainTask.planifieEntree, hn, hdeb, hfin]

/-! ### Runs -/

theorem Sain.step (h : Sain m) {ev : EvtCourse} (hg : m.EnOrdre ev)
    (hs : m.step env ev = some m') : Sain m' := by
  rcases step_cases hs with ⟨-, hrepos, rfl⟩ | ⟨rfl, hpas⟩ | ⟨t, -, -, -, -, rfl⟩ |
    ⟨t, -, -, -, -, -, rfl⟩ | ⟨t, ht, rfl, hst, -, rfl⟩ | ⟨t, -, -, rfl⟩
  · exact h.passe (by rw [hrepos]; rfl) rfl trivial
  · exact h.pas hg hpas
  · exact { h with }
  · exact { h with }
  · exact h.rappelle ht hst hg
  · exact ⟨{ h.forme with }, h.lanceurs, h.sansReste, h.tires_lt, by
      have het := h.etape
      revert het
      cases m.etape <;> exact id⟩

/-- What a step in order erases is its own entry. -/
theorem Sain.trouve (h : Sain m) {ev : EvtCourse} (hg : m.EnOrdre ev) : m.Trouve ev := by
  cases ev with
  | rappelle a =>
      rintro t ht rfl hst
      rcases h.forme.armes ht hst with ⟨n, hn⟩ | ⟨p, hp⟩
      · have hreg := h.registre (CMainTask.mem_lanceurs.mpr ⟨ht, hn⟩) hg
        obtain ⟨-, q, hq, rfl⟩ := TimerTache.lanceurDe_iff.mp hn
        rw [hq]
        exact hreg
      · obtain ⟨-, q, hq, -⟩ := TimerTache.arretDe_iff.mp hp
        rw [hq]
        trivial
  | pas =>
      have het := h.etape
      show PasTrouve m.tache m.etape
      cases hm : m.etape with
      | efface off e reste a =>
          rw [hm] at het
          exact het.2.1
      | repos | boucle | stoppe | demarre | insere => trivial
  | planifie | debute | depasse | avance => trivial

/-- Along a run in order every callback of a launcher finds its own timer in the
registry, and no entry is left for a timer that has fired. -/
theorem registre_sain (env : Env) (t0 : ℤ) (es : List EvtCourse) (m : Course)
    (h : Execution.exec (step env) (.depart t0) es = some m)
    (hg : Execution.Meets (step env) EnOrdre (.depart t0) es) :
    Execution.Meets (step env) Trouve (.depart t0) es ∧
      Execution.Always (step env) SansReste (.depart t0) es :=
  ⟨Execution.meets_of_guarded (I := Sain) (fun _ _ _ h hg hs => h.step hg hs)
      (fun _ _ _ h hg _ => h.trouve hg) (.depart t0) hg h,
    Execution.always_of_guarded (I := Sain) (fun _ h => h.sansReste)
      (fun _ _ _ h hg hs => h.step hg hs) (.depart t0) hg⟩

/-- A replaced launcher: planning at 0, again at 10 while the first launcher
waits, and the launch at 50. -/
theorem registre_sain_remplacement :
    Execution.Meets (step (.zoneFixe 1 0 [.planifie 1 1 50 100])) Trouve (.depart 0)
        [.planifie, .pas, .pas, .pas, .pas, .debute 2, .avance 10,
          .planifie, .pas, .pas, .pas, .pas, .pas, .pas, .debute 4, .avance 50, .depasse 4,
          .rappelle 4] ∧
      Execution.Always (step (.zoneFixe 1 0 [.planifie 1 1 50 100])) SansReste (.depart 0)
        [.planifie, .pas, .pas, .pas, .pas, .debute 2, .avance 10,
          .planifie, .pas, .pas, .pas, .pas, .pas, .pas, .debute 4, .avance 50, .depasse 4,
          .rappelle 4] :=
  registre_sain (.zoneFixe 1 0 [.planifie 1 1 50 100]) 0 _ _ (Option.some_get (by decide)).symm
    (by decide)

/-- An immediate launcher whose callback runs between its `Start` and its
insertion: it erases `end()`, and the insertion then leaves an entry for a timer
that has fired. -/
theorem lanceur_avant_insertion :
    ¬ Execution.Meets (step (.zoneFixe 10000 0 [.planifie 1 1 0 100])) Trouve (.depart 0)
        [.planifie, .pas, .pas, .debute 2, .avance 1, .depasse 2, .rappelle 2, .pas] ∧
      (Execution.exec (step (.zoneFixe 10000 0 [.planifie 1 1 0 100])) (.depart 0)
        [.planifie, .pas, .pas, .debute 2, .avance 1, .depasse 2, .rappelle 2, .pas]).map
          (fun m => (m.tache.effaceFin, m.tache.mLanceurProfil 1, m.tires)) =
        some (true, some 2, [2]) := by
  decide

end Course

end GestAqua
