import GestAqua.Base.Execution
import GestAqua.Threads.Watch
import Mathlib.Tactic.NormNum
import Mathlib.Tactic.Ring

/-!
The time that the thread of a timer spends in `select`.

`CTimer::Thread` loads `Tv` from the duration at the top of every pass, and a pass
that ends with `EINTR` goes back there: what an interrupted wait had already waited
is lost. The thread is that of `Thread.lean`, alone with its timer; its waits last
the time loaded in `Tv`, or what an interruption leaves of it. The callbacks are late
by exactly the time of the interrupted waits before them.
-/

namespace GestAqua

def Timeval.usec (tv : Timeval) : ℤ := tv.tvSec * microSec + tv.tvUsec

/-- A timer, its thread, the thread's local `Tv`, the time spent in `select` since
the first one and the instants of the callbacks, in order. -/
structure Chrono where
  objet : CThread
  fil : Fil
  tv : Timeval
  ecoule : ℤ
  instants : List ℤ
  deriving DecidableEq, Repr

/-- A step of the thread; `select` ends by timeout, or is interrupted after some
time. -/
inductive EvtChrono
  | suite
  | expire
  | interrompu (usec : ℕ)
  deriving DecidableEq, Repr

namespace Chrono

def step (c : Chrono) : EvtChrono → Option Chrono
  | .suite =>
    (c.fil.step c.objet 0 .suite).map fun r =>
      { objet := r.1
        fil := r.2
        tv := if c.fil.pc = .charge then CTimer.tv 64 c.objet.timer.ui64TpsUsec else c.tv
        ecoule := c.ecoule
        instants := if c.fil.pc = .action then c.instants ++ [c.ecoule] else c.instants }
  | .expire =>
    (c.fil.step c.objet 0 .expire).map fun r =>
      { c with objet := r.1, fil := r.2, ecoule := c.ecoule + c.tv.usec }
  | .interrompu usec =>
    if usec ≤ c.tv.usec then
      (c.fil.step c.objet 0 .interrompu).map fun r =>
        { c with objet := r.1, fil := r.2, ecoule := c.ecoule + usec }
    else none

/-- `Start` has created the thread, on pipe `p`. -/
def lance (ui64Usec uiFlag p arretThread : ℕ) (cAutoDelete cIsdetachstate : Bool) : Chrono where
  objet := { CThread.construit .cTimer arretThread cAutoDelete cIsdetachstate with
    timer := ⟨false, ui64Usec, some (), uiFlag⟩
    iIdPipe := some p
    ouverts := [p] }
  fil := .cree uiFlag
  tv := ⟨0, 0⟩
  ecoule := 0
  instants := []

/-- The callback number `k + 1` was invoked when `k + 1` durations had elapsed. -/
def ALHeure (ui64Usec : ℕ) (c : Chrono) : Prop :=
  ∀ (k : ℕ) (t : ℤ), c.instants[k]? = some t → t = (k + 1) * ui64Usec

def perdu : EvtChrono → ℕ
  | .suite | .expire => 0
  | .interrompu usec => usec

/-- On 64 bits `Tv` holds every duration. -/
theorem usec_tv {d : ℕ} (hd : d < 2 ^ 64) : (CTimer.tv 64 d).usec = d := by
  have hsec : entier 64 (d / 1000000 : ℕ) = (d / 1000000 : ℕ) := entier_eq (by omega) (by omega)
  have husec : entier 64 (d % 1000000 : ℕ) = (d % 1000000 : ℕ) := entier_eq (by omega) (by omega)
  simp only [Timeval.usec, CTimer.tv, microSec_eq, hsec, husec]
  omega

/-! ### The invariant -/

/-- The thread is on its way into the loop or in it, and `n` microseconds have been
spent in interrupted waits. Between a timeout and the callback one more duration has
elapsed than there have been callbacks. -/
structure EnMarche (d n : ℕ) (c : Chrono) : Prop where
  classe : c.objet.classe = .cTimer
  duree : c.objet.timer.ui64TpsUsec = d
  surveille : ∃ p, c.fil.Surveille c.objet p
  lisibles : c.objet.lisibles = []
  pc : c.fil.pc ≠ .lisible
  mutex : c.fil.pc = .initPose ∨ c.fil.pc = .initLibere ∨ c.objet.mutex = none
  arret : c.fil.pc = .initVerrou ∨ c.fil.pc = .initPose ∨ c.objet.arretThread = 0
  tv : c.fil.pc = .attend → c.tv.usec = d
  ecoule : c.ecoule =
    (c.instants.length + if c.fil.pc = .expire ∨ c.fil.pc = .action then 1 else 0) * d + n
  instants : ∀ (k : ℕ) (t : ℤ), c.instants[k]? = some t →
    (k + 1) * d ≤ t ∧ t ≤ (k + 1) * d + n

def Inv (d n : ℕ) (c : Chrono) : Prop := c.fil.pc.horsBoucle = true ∨ EnMarche d n c

variable {d n : ℕ} {c c' : Chrono} {e : EvtChrono}

theorem EnMarche.lance (d flag p arret : ℕ) (auto detache : Bool) :
    EnMarche d 0 (lance d flag p arret auto detache) where
  classe := rfl
  duree := rfl
  surveille := ⟨p, rfl⟩
  lisibles := rfl
  pc := nofun
  mutex := .inr (.inr rfl)
  arret := .inl rfl
  tv := nofun
  ecoule := by simp [Chrono.lance, Fil.cree]
  instants := by simp [Chrono.lance]

variable {ch : Choix} {o : CThread} {f : Fil}

theorem EnMarche.mouvement (h : EnMarche d n c) (hm : c.fil.Mouvement c.objet 0 ch o f)
    (hlis : o.lisibles = c.objet.lisibles) (hpc : f.pc ≠ .lisible)
    (hmutex : f.pc = .initPose ∨ f.pc = .initLibere ∨ o.mutex = none)
    (harret : f.pc = .initVerrou ∨ f.pc = .initPose ∨ o.arretThread = 0) {tv : Timeval}
    (htv : f.pc = .attend → tv.usec = d) {ecoule : ℤ} {instants : List ℤ} {m : ℕ}
    (hecoule : ecoule =
      (instants.length + if f.pc = .expire ∨ f.pc = .action then 1 else 0) * d + m)
    (hinstants : ∀ (k : ℕ) (t : ℤ), instants[k]? = some t →
      (k + 1) * d ≤ t ∧ t ≤ (k + 1) * d + m) :
    EnMarche d m ⟨o, f, tv, ecoule, instants⟩ where
  classe := hm.constantes.1.trans h.classe
  duree := hm.timer.1.trans h.duree
  surveille := by
    obtain ⟨p, hp⟩ := h.surveille
    exact ⟨p, hp.mouvement hm⟩
  lisibles := hlis.trans h.lisibles
  pc := hpc
  mutex := hmutex
  arret := harret
  tv := htv
  ecoule := hecoule
  instants := hinstants

theorem EnMarche.suite (h : EnMarche d n c) (hd : d ≠ 0) (hd' : d < 2 ^ 64)
    (hm : c.fil.Mouvement c.objet 0 .suite o f) :
    Inv d n
      { objet := o
        fil := f
        tv := if c.fil.pc = .charge then CTimer.tv 64 c.objet.timer.ui64TpsUsec else c.tv
        ecoule := c.ecoule
        instants := if c.fil.pc = .action then c.instants ++ [c.ecoule] else c.instants } := by
  have hecoule := h.ecoule
  have hmutex := h.mutex
  have harret := h.arret
  have hmove := hm
  cases hm with
  | initVerrou hpc | initPose hpc | initLibere hpc | entreeTimer hpc | prepare hpc | entre hpc
  | arme hpc | recommence hpc =>
      simp only [hpc, reduceCtorEq, if_false, false_or, or_self] at hecoule hmutex harret ⊢
      refine .inr (h.mouvement hmove rfl (by simp) (by simp [hmutex]) (by simp [harret]) (by simp) ?_
        h.instants)
      simpa using hecoule
  | charge hpc =>
      simp only [hpc, reduceCtorEq, if_true, if_false, false_or, or_self] at hecoule hmutex harret ⊢
      refine .inr (h.mouvement hmove rfl (by simp) (by simp [hmutex]) (by simp [harret]) ?_ ?_
        h.instants)
      · intro _
        rw [h.duree]
        exact usec_tv hd'
      · simpa using hecoule
  | agit hpc =>
      simp only [hpc, reduceCtorEq, if_false, false_or, or_false] at hecoule hmutex harret ⊢
      refine .inr (h.mouvement hmove rfl (by simp) (by simp [hmutex]) (by simp [harret]) (by simp) ?_
        h.instants)
      simpa using hecoule
  | action hpc =>
      simp only [hpc, reduceCtorEq, if_true, if_false, false_or, or_true] at hecoule hmutex harret ⊢
      refine .inr (h.mouvement hmove rfl (by simp) (by simp [hmutex]) (by simp [harret]) (by simp) ?_ ?_)
      · simpa using hecoule
      · intro k t hk
        rw [List.getElem?_append] at hk
        split at hk
        · exact h.instants k t hk
        · -- the callback that has just been made
          obtain ⟨hzero, rfl⟩ := Systeme.getElem?_seul hk
          obtain rfl : k = c.instants.length := by omega
          rw [hecoule]
          constructor <;> omega
  | entreeGarde _ _ hu => exact absurd (h.duree.symm.trans hu) hd
  | entreeAutre _ hc => exact absurd h.classe hc
  | prepareGarde hpc hp =>
      obtain ⟨p, hsurv⟩ := h.surveille
      rw [hsurv.iIdPipe_eq (by simp [hpc])] at hp
      cases hp
  | drapeau hpc _ ha | renonce hpc _ ha =>
      simp only [hpc, reduceCtorEq, false_or] at harret
      exact absurd harret ha
  | quitte hpc => exact absurd hpc h.pc
  | ignore hpc => exact absurd hpc h.pc
  | _ => exact .inl rfl

theorem EnMarche.attente (h : EnMarche d n c) (hpc : c.fil.pc = .attend) :
    c.objet.mutex = none ∧ c.objet.arretThread = 0 ∧ c.tv.usec = d ∧
      c.ecoule = c.instants.length * d + n ∧ c.objet.pret c.fil.n c.fil.rfds = false := by
  have hmutex := h.mutex
  have harret := h.arret
  have hecoule := h.ecoule
  simp only [hpc, reduceCtorEq, false_or, or_self, if_false] at hmutex harret hecoule
  obtain ⟨p, hsurv⟩ := h.surveille
  refine ⟨hmutex, harret, h.tv hpc, by simpa using hecoule, ?_⟩
  rw [← Bool.not_eq_true, hsurv.pret_iff hpc, h.lisibles]
  exact List.not_mem_nil

theorem EnMarche.expire (h : EnMarche d n c) (hm : c.fil.Mouvement c.objet 0 .expire o f) :
    EnMarche d n { c with objet := o, fil := f, ecoule := c.ecoule + c.tv.usec } := by
  have hmove := hm
  cases hm with
  | expire hpc hp =>
      obtain ⟨hmutex, harret, htv, hecoule, -⟩ := h.attente hpc
      refine h.mouvement hmove rfl (by simp) (by simp [hmutex]) (by simp [harret]) (by simp) ?_
        h.instants
      rw [htv, hecoule, if_pos (.inl rfl)]
      ring

/-- An interruption: the time of the wait is lost. -/
theorem EnMarche.interrompu (h : EnMarche d n c) (hm : c.fil.Mouvement c.objet 0 .interrompu o f)
    (usec : ℕ) :
    EnMarche d (n + usec) { c with objet := o, fil := f, ecoule := c.ecoule + usec } := by
  have hmove := hm
  cases hm with
  | interrompu hpc =>
      obtain ⟨hmutex, harret, -, hecoule, -⟩ := h.attente hpc
      refine h.mouvement hmove rfl (by simp) (by simp [hmutex]) (by simp [harret]) (by simp) ?_
        fun k t hk => ?_
      · rw [hecoule, if_neg (by simp)]
        push_cast
        ring
      · have hle := h.instants k t hk
        push_cast
        omega

theorem Inv.step (h : Inv d n c) (hd : d ≠ 0) (hd' : d < 2 ^ 64) (hs : c.step e = some c') :
    Inv d (n + perdu e) c' := by
  cases e with
  | suite =>
      obtain ⟨⟨o, f⟩, hstep, rfl⟩ := Option.map_eq_some_iff.mp hs
      have hmove := Fil.mouvement_of_step hstep
      rcases h with hout | h
      · exact .inl (hmove.horsBoucle hout)
      · exact h.suite hd hd' hmove
  | expire =>
      obtain ⟨⟨o, f⟩, hstep, rfl⟩ := Option.map_eq_some_iff.mp hs
      have hmove := Fil.mouvement_of_step hstep
      rcases h with hout | h
      · exact .inl (hmove.horsBoucle hout)
      · exact .inr (h.expire hmove)
  | interrompu usec =>
      simp only [Chrono.step] at hs
      split at hs
      · obtain ⟨⟨o, f⟩, hstep, rfl⟩ := Option.map_eq_some_iff.mp hs
        have hmove := Fil.mouvement_of_step hstep
        rcases h with hout | h
        · exact .inl (hmove.horsBoucle hout)
        · exact .inr (h.interrompu hmove usec)
      · cases hs

/-- Over a run the times of the interrupted waits add up. -/
theorem Inv.exec (h : Inv d n c) (hd : d ≠ 0) (hd' : d < 2 ^ 64) {es : List EvtChrono}
    (hs : Execution.exec Chrono.step c es = some c') : Inv d (n + (es.map perdu).sum) c' :=
  Execution.exec_accumulates (I := Inv d) perdu (fun _ _ _ _ hI hstep => hI.step hd hd' hstep) h hs

def SansPerte (es : List EvtChrono) : Prop := ∀ usec, .interrompu usec ∈ es → usec = 0

theorem perdus_eq_zero_iff (es : List EvtChrono) : (es.map perdu).sum = 0 ↔ SansPerte es := by
  induction es with
  | nil => simp [SansPerte]
  | cons e es ih =>
      rw [List.map_cons, List.sum_cons, Nat.add_eq_zero_iff, ih]
      cases e <;> simp [SansPerte, perdu]

/-- A timeout of the wait in progress is followed by the callback. -/
theorem EnMarche.rappelle (h : EnMarche d n c) (hpc : c.fil.pc = .attend) :
    ∃ c', Execution.exec step c [.expire, .suite, .suite] = some c' ∧
      c'.instants = c.instants ++ [((c.instants.length + 1) * d + n : ℤ)] := by
  obtain ⟨hmutex, harret, htv, hecoule, hpret⟩ := h.attente hpc
  refine ⟨_, by
    simp [Execution.exec, Chrono.step, Fil.step, hpc, hpret, hmutex, harret]
    rfl, ?_⟩
  show c.instants ++ [c.ecoule + c.tv.usec] = _
  rw [htv, hecoule]
  congr 2
  ring

/-- The wait of a timer ends by timeout, after any sequence of expiries and
interruptions, and the callback is invoked. The callbacks so far came one duration
after the other exactly when no time was spent in a wait that was interrupted. -/
theorem rappels_a_l_heure_iff (hd : d ≠ 0) (hd' : d < 2 ^ 64) (uiFlag p arretThread : ℕ)
    (cAutoDelete cIsdetachstate : Bool) {es : List EvtChrono}
    (h : Execution.exec step (lance d uiFlag p arretThread cAutoDelete cIsdetachstate) es = some c)
    (hpc : c.fil.pc = .attend) :
    ∃ c', Execution.exec step c [.expire, .suite, .suite] = some c' ∧
      c'.instants.length = c.instants.length + 1 ∧ (c'.ALHeure d ↔ SansPerte es) := by
  have hdepart : Inv d 0 (lance d uiFlag p arretThread cAutoDelete cIsdetachstate) :=
    .inr (.lance d uiFlag p arretThread cAutoDelete cIsdetachstate)
  have hinv := hdepart.exec hd hd' h
  rw [Nat.zero_add] at hinv
  have hmarche := hinv.resolve_left (by simp [hpc, Pc.horsBoucle])
  obtain ⟨c', hc', hinstants⟩ := hmarche.rappelle hpc
  refine ⟨c', hc', by simp [hinstants], ?_⟩
  rw [← perdus_eq_zero_iff]
  constructor
  · -- the last callback shows all that has been lost
    intro hheure
    have hlast := hheure c.instants.length ((c.instants.length + 1) * d + (es.map perdu).sum : ℤ)
      (by rw [hinstants, List.getElem?_concat_length])
    omega
  · intro hzero k t hk
    rw [hinstants, List.getElem?_append] at hk
    split at hk
    · have hle := hmarche.instants k t hk
      omega
    · obtain ⟨hk0, rfl⟩ := Systeme.getElem?_seul hk
      obtain rfl : k = c.instants.length := by omega
      rw [hzero]
      simp

def enRoute : List EvtChrono := List.replicate 8 .suite

def interruption (usec : ℕ) : List EvtChrono := .interrompu usec :: List.replicate 3 .suite

def expiration : List EvtChrono := .expire :: List.replicate 6 .suite

theorem EnMarche.interrompt (h : EnMarche d n c) (hd : d ≠ 0) (hd' : d < 2 ^ 64)
    (hpc : c.fil.pc = .attend) {usec : ℕ} (hu : usec ≤ d) :
    ∃ c', Execution.exec step c (interruption usec) = some c' ∧ c'.fil.pc = .attend ∧
      EnMarche d (n + usec) c' ∧ c'.instants = c.instants := by
  obtain ⟨hmutex, harret, htv, -⟩ := h.attente hpc
  have hle : (usec : ℤ) ≤ c.tv.usec := by omega
  obtain ⟨c', hc', hpc', hinstants⟩ : ∃ c', Execution.exec step c (interruption usec) = some c' ∧
      c'.fil.pc = .attend ∧ c'.instants = c.instants := by
    refine ⟨_, by
      simp [interruption, Execution.exec, Chrono.step, Fil.step, hpc, hle, hmutex, harret]
      rfl, ?_, ?_⟩ <;> rfl
  have hinv := Inv.exec (.inr h) hd hd' hc'
  exact ⟨c', hc', hpc', hinv.resolve_left (by simp [hpc', Pc.horsBoucle]), hinstants⟩

/-- Any sequence of interruptions of the waits between two callbacks is a run, and its
times add up. -/
theorem EnMarche.interruptions (hd : d ≠ 0) (hd' : d < 2 ^ 64) {l : List ℕ} (hl : ∀ x ∈ l, x ≤ d)
    (h : EnMarche d n c) (hpc : c.fil.pc = .attend) :
    ∃ c', Execution.exec step c (l.flatMap interruption) = some c' ∧ c'.fil.pc = .attend ∧
      EnMarche d (n + l.sum) c' ∧ c'.instants = c.instants := by
  induction l generalizing c n with
  | nil => exact ⟨c, rfl, hpc, h, rfl⟩
  | cons usec l ih =>
      obtain ⟨c₁, hc₁, hpc₁, h₁, hinstants₁⟩ := h.interrompt hd hd' hpc (hl usec List.mem_cons_self)
      obtain ⟨c₂, hc₂, hpc₂, h₂, hinstants₂⟩ :=
        ih (fun x hx => hl x (List.mem_cons_of_mem _ hx)) h₁ hpc₁
      refine ⟨c₂, Execution.exec_append_eq_some.mpr ⟨c₁, hc₁, hc₂⟩, hpc₂, ?_,
        hinstants₂.trans hinstants₁⟩
      rw [List.sum_cons, ← Nat.add_assoc]
      exact h₂

/-- The first callback, after any number of interruptions of the waits before it, is
invoked when its duration and all that the interrupted waits lasted have elapsed. -/
theorem premier_rappel (hd : d ≠ 0) (hd' : d < 2 ^ 64) (uiFlag p arretThread : ℕ)
    (cAutoDelete cIsdetachstate : Bool) {l : List ℕ} (hl : ∀ x ∈ l, x ≤ d) :
    ∃ c, Execution.exec step (lance d uiFlag p arretThread cAutoDelete cIsdetachstate)
        (enRoute ++ l.flatMap interruption ++ [.expire, .suite, .suite]) = some c ∧
      c.instants = [(d + l.sum : ℤ)] := by
  obtain ⟨c₀, hc₀, hpc₀, hinstants₀⟩ : ∃ c₀,
      Execution.exec step (lance d uiFlag p arretThread cAutoDelete cIsdetachstate) enRoute =
        some c₀ ∧ c₀.fil.pc = .attend ∧ c₀.instants = [] := by
    refine ⟨_, by
      simp [enRoute, Execution.exec, Chrono.step, Fil.step, lance, Fil.cree, CThread.construit, hd]
      rfl, ?_, ?_⟩ <;> rfl
  have hinv := Inv.exec (.inr (.lance d uiFlag p arretThread cAutoDelete cIsdetachstate)) hd hd' hc₀
  have h₀ : EnMarche d 0 c₀ := hinv.resolve_left (by simp [hpc₀, Pc.horsBoucle])
  obtain ⟨c₁, hc₁, hpc₁, h₁, hinstants₁⟩ := h₀.interruptions hd hd' hl hpc₀
  obtain ⟨c₂, hc₂, hinstants₂⟩ := h₁.rappelle hpc₁
  refine ⟨c₂, Execution.exec_append_eq_some.mpr
    ⟨c₁, Execution.exec_append_eq_some.mpr ⟨c₀, hc₀, hc₁⟩, hc₂⟩, ?_⟩
  rw [hinstants₂, hinstants₁, hinstants₀]
  simp

theorem instants_of_horsBoucle (hs : c.step e = some c') (hout : c'.fil.pc.horsBoucle = true) :
    c'.instants = c.instants := by
  cases e with
  | suite =>
      obtain ⟨⟨o, f⟩, hstep, rfl⟩ := Option.map_eq_some_iff.mp hs
      refine if_neg fun hpc => ?_
      cases Fil.mouvement_of_step hstep with
      | action => cases hout
      | _ hpc' =>
          rw [hpc] at hpc'
          cases hpc'
  | expire =>
      obtain ⟨r, -, rfl⟩ := Option.map_eq_some_iff.mp hs
      rfl
  | interrompu usec =>
      simp only [Chrono.step] at hs
      split at hs
      · obtain ⟨r, -, rfl⟩ := Option.map_eq_some_iff.mp hs
        rfl
      · cases hs

/-- In every run no callback comes early, and none is later than what the interrupted waits
have lasted. -/
theorem jamais_en_avance (hd : d ≠ 0) (hd' : d < 2 ^ 64) (uiFlag p arretThread : ℕ)
    (cAutoDelete cIsdetachstate : Bool) {es : List EvtChrono}
    (h : Execution.exec step (lance d uiFlag p arretThread cAutoDelete cIsdetachstate) es = some c)
    {k : ℕ} {t : ℤ} (hk : c.instants[k]? = some t) :
    (k + 1) * d ≤ t ∧ t ≤ (k + 1) * d + (es.map perdu).sum := by
  let I : ℕ → Chrono → Prop := fun n c => Inv d n c ∧
    ∀ (k : ℕ) (t : ℤ), c.instants[k]? = some t → (k + 1) * d ≤ t ∧ t ≤ (k + 1) * d + n
  have hstep : ∀ n c e c', I n c → c.step e = some c' → I (n + perdu e) c' := by
    intro n c e c' ⟨hinv, hbornes⟩ hs
    refine ⟨hinv.step hd hd' hs, fun k t hk => ?_⟩
    rcases hinv.step hd hd' hs with hout | hmarche
    · rw [instants_of_horsBoucle hs hout] at hk
      have hle := hbornes k t hk
      push_cast
      omega
    · exact hmarche.instants k t hk
  have hdepart : I 0 (lance d uiFlag p arretThread cAutoDelete cIsdetachstate) :=
    ⟨.inr (.lance d uiFlag p arretThread cAutoDelete cIsdetachstate), by simp [lance]⟩
  have hfin := (Execution.exec_accumulates (I := I) perdu hstep hdepart h).2 k t hk
  rwa [Nat.zero_add] at hfin

/-- A stop timer of twelve hours, interrupted an hour after its beginning. -/
theorem jamais_en_avance_douze_heures :
    ∃ c, Execution.exec step (lance 43200000000 timeOneshot 3 0 false false)
        (enRoute ++ interruption 3600000000 ++ [.expire, .suite, .suite]) = some c ∧
      ∃ t ∈ c.instants, 43200000000 ≤ t ∧ t ≤ 46800000000 := by
  obtain ⟨c, hc⟩ := Option.isSome_iff_exists.mp
    (show (Execution.exec step (lance 43200000000 timeOneshot 3 0 false false)
      (enRoute ++ interruption 3600000000 ++ [.expire, .suite, .suite])).isSome = true by
        decide +kernel)
  have hval : (Execution.exec step (lance 43200000000 timeOneshot 3 0 false false)
      (enRoute ++ interruption 3600000000 ++ [.expire, .suite, .suite])).map
        (·.instants.length) = some 1 := by decide +kernel
  rw [hc] at hval
  have hlen : c.instants.length = 1 := Option.some.inj hval
  have hget : c.instants[0]? = some c.instants[0] := List.getElem?_eq_getElem (by omega)
  obtain ⟨hlo, hhi⟩ := jamais_en_avance (by decide) (by decide) timeOneshot 3 0 false false hc hget
  refine ⟨c, hc, c.instants[0], List.getElem_mem _, by simpa using hlo, ?_⟩
  simpa [enRoute, interruption, perdu] using hhi

/-- A periodic timer whose waits are interrupted as soon as they begin. -/
theorem rappels_a_l_heure_periodique :
    ∃ c, Execution.exec step (lance 500 timePeriodic 3 0 false false)
        (enRoute ++ expiration ++ interruption 0 ++ expiration ++ interruption 0 ++
          [.expire, .suite, .suite]) = some c ∧
      c.instants.length = 3 ∧ c.ALHeure 500 := by
  obtain ⟨c, hc⟩ := Option.isSome_iff_exists.mp
    (show (Execution.exec step (lance 500 timePeriodic 3 0 false false)
      (enRoute ++ expiration ++ interruption 0 ++ expiration ++ interruption 0)).isSome = true by
        decide +kernel)
  obtain ⟨hpc, hlen⟩ : c.fil.pc = .attend ∧ c.instants.length = 2 := by
    have hval : (Execution.exec step (lance 500 timePeriodic 3 0 false false)
        (enRoute ++ expiration ++ interruption 0 ++ expiration ++ interruption 0)).map
          (fun c => (c.fil.pc, c.instants.length)) = some (.attend, 2) := by decide +kernel
    rw [hc] at hval
    exact Prod.mk.inj (Option.some.inj hval)
  obtain ⟨c', hc', hlen', hiff⟩ :=
    rappels_a_l_heure_iff (by decide) (by decide) timePeriodic 3 0 false false hc hpc
  refine ⟨c', Execution.exec_append_eq_some.mpr ⟨c, hc, hc'⟩, by omega, hiff.mpr ?_⟩
  simp [SansPerte, enRoute, expiration, interruption]

/-- A stop timer of twelve hours, interrupted once, a second before its end: its
callback is invoked when nearly twice the duration has elapsed. -/
theorem rappel_retarde_douze_heures :
    (Execution.exec step (lance 43200000000 timeOneshot 3 0 false false)
        (enRoute ++ interruption 43199000000 ++ [.expire, .suite, .suite])).map (·.instants) =
          some [86399000000] ∧
      ∀ c, Execution.exec step (lance 43200000000 timeOneshot 3 0 false false)
          (enRoute ++ interruption 43199000000 ++ [.expire, .suite, .suite]) = some c →
        ¬ c.ALHeure 43200000000 := by
  have hval : (Execution.exec step (lance 43200000000 timeOneshot 3 0 false false)
      (enRoute ++ interruption 43199000000 ++ [.expire, .suite, .suite])).map (·.instants) =
        some [86399000000] := by decide +kernel
  refine ⟨hval, fun c hc hheure => ?_⟩
  rw [hc] at hval
  have hinstants : c.instants = [86399000000] := Option.some.inj hval
  have hun := hheure 0 86399000000 (by rw [hinstants]; rfl)
  norm_num at hun

end Chrono

end GestAqua
