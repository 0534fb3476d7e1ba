import GestAqua.Threads.Regular

/-!
The end of a thread that has been asked to stop.

Once `SetArretThread (1)` has returned, `select` finds the pipe readable, so that no path
leads back in the program of the thread: unless its `select` is interrupted, it ends within
sixteen steps, and nothing blocks it on the way, the mutex being free or its own. The threads here
are those of timers, whose `Thread` calls nothing after its loop.
-/

namespace GestAqua

namespace Systeme

variable {s s' : Systeme} {e : EvtThread}

/-- The object has its one thread. -/
structure Cours (s : Systeme) : Prop where
  unique : s.fils = [s.fil]
  regulier : Regulier s

def SansCreate : EvtThread → Prop
  | .start .. | .create => False
  | _ => True

theorem Cours.lance (o : CThread) (p uiFlag : ℕ) : Cours (lance o p uiFlag) where
  unique := rfl
  regulier := ⟨.inr ⟨_, p, rfl, rfl⟩, fun h => absurd rfl h, by simp [Systeme.lance],
    by simp [Systeme.lance], by simp [Systeme.lance]⟩

theorem Cours.pcs (h : Cours s) : s.pcs = [s.fil.pc] := by
  rw [Systeme.pcs, h.unique]
  rfl

theorem Cours.reste_eq (h : Cours s) : s.reste = s.appel.reste + s.fil.pc.reste := by
  unfold reste
  rw [h.unique]

theorem Cours.sansCreation (h : Cours s) {flag : ℕ} : s.appel ≠ .pthreadCreate flag := by
  intro ha
  have hnil := h.regulier.creation ⟨_, .inr ha⟩
  rw [h.unique] at hnil
  cases hnil

theorem Cours.ne_pthreadCreate (h : Cours s) (hs : s.step e = some s') :
    e ≠ .pthreadCreate true := by
  rintro rfl
  cases geste_of_step hs with
  | pthreadCreate ha => exact h.sansCreation ha

/-- A step of the owner leaves the thread where it is. -/
theorem Cours.fil_of_marque (h : Cours s) (hfils : s'.fils = s.fils ∨ s'.fils = s.marque) :
    s'.fils = [s'.fil] ∧ s'.fil.pc = s.fil.pc := by
  rcases hfils with heq | heq
  · rw [h.unique] at heq
    simp [Systeme.fil, heq]
  · rw [marque, h.unique] at heq
    simp [Systeme.fil, heq]

theorem Cours.step (h : Cours s) (he : SansCreate e) (hs : s.step e = some s') : Cours s' := by
  have hseul : s.SeulCreate e := by
    cases e <;> trivial
  refine ⟨?_, h.regulier.step hseul hs⟩
  cases geste_of_step hs with
  | fil hk hm =>
      rw [h.unique] at hk ⊢
      obtain ⟨rfl, rfl⟩ := getElem?_seul hk
      rfl
  | startVain | start | create => exact he.elim
  | pthreadCreate ha => exact absurd ha h.sansCreation
  | stopEcrit | demPose => exact (h.fil_of_marque (.inr rfl)).1
  | _ => exact h.unique

/-! ### The end of the thread -/

def DuFil (e : EvtThread) : Prop := ∃ c, e = .fil 0 c ∧ c ≠ .interrompu

/-- A thread that finds its pipe readable, while the owner does nothing and does not hold the
mutex, ends within sixteen steps and is never blocked before. -/
theorem Cours.aboutit (h : Cours s) (hav : s.Averti) (ha : s.appel = .libre ∨ s.appel = .stopJoint)
    {es : List EvtThread} (hes : ∀ e ∈ es, DuFil e)
    (hs : Execution.exec Systeme.step s es = some s') :
    es.length ≤ 16 ∧ s'.appel = s.appel ∧ Cours s' ∧
      (s'.fil.pc ≠ .termine → ∃ e t, DuFil e ∧ s'.step e = some t) := by
  have hstep : ∀ r e t, (Cours r ∧ r.Averti ∧ r.appel = s.appel) → DuFil e → r.step e = some t →
      (Cours t ∧ t.Averti ∧ t.appel = s.appel) ∧ t.reste < r.reste := by
    rintro r _ t ⟨hr, hav, hap⟩ ⟨c, rfl, hc⟩ hs
    have hap' : t.appel = r.appel := by
      cases geste_of_step hs
      rfl
    have hav' : t.Averti := hav.step (e := .fil 0 c) hr.regulier nofun hs
    exact ⟨⟨hr.step (e := .fil 0 c) trivial hs, hav', hap'.trans hap⟩,
      hr.regulier.reste_lt hr.pcs (fun _ => hav) hc hs⟩
  obtain ⟨⟨hcours, hav', hap⟩, hle⟩ :=
    Execution.exec_length_le reste hstep hes ⟨h, hav, rfl⟩ hs
  have hlength : es.length ≤ 16 := by
    rw [h.reste_eq, hcours.reste_eq, hap] at hle
    have := Pc.reste_le s.fil.pc
    omega
  have hdem : ¬ s'.EnDemande := by
    rw [EnDemande, hap]
    rcases ha with ha | ha <;> simp [ha]
  refine ⟨hlength, hap, hcours, fun hpc => ?_⟩
  obtain ⟨t, ht, -⟩ := hcours.regulier.avance hcours.pcs hdem hpc fun _ => hav'
  exact ⟨_, t, ⟨_, rfl, Pc.choix_ne _⟩, ht⟩

/-- The timer's `m_bStarted` is set while its thread is in its body. -/
structure Allume (s : Systeme) : Prop where
  classe : s.objet.classe = .cTimer
  started : s.objet.timer.bStarted = s.fil.pc.enCorps

theorem Allume.step (h : Allume s) (hc : Cours s) (he : SansCreate e)
    (hs : s.step e = some s') : Allume s' := by
  have hgarde : (s'.fils = s.fils ∨ s'.fils = s.marque) → s'.objet.classe = s.objet.classe →
      s'.objet.timer.bStarted = s.objet.timer.bStarted → Allume s' := by
    intro hfils hclasse hstarted
    refine ⟨hclasse.trans h.classe, hstarted.trans (h.started.trans ?_)⟩
    rw [(hc.fil_of_marque hfils).2]
  cases geste_of_step hs with
  | fil hk hm =>
      rw [hc.unique] at hk ⊢
      obtain ⟨rfl, rfl⟩ := getElem?_seul hk
      exact ⟨hm.constantes.1.trans h.classe, hm.started h.classe h.started⟩
  | startVain | start | create => exact he.elim
  | stopEcrit | demPose => exact hgarde (.inr rfl) rfl rfl
  | pthreadCreate ha => exact absurd ha hc.sansCreation
  | _ => exact hgarde (.inl rfl) rfl rfl

/-- `SetArretThread (1)` on a timer, called in a state that is reached at any time after
`Start` has created its thread, by an owner that may also call `Stop`. Once the owner has
returned from its calls, the thread ends within sixteen of its steps unless its `select` is
interrupted, it is never blocked before, and `m_bStarted` is clear when it has ended. -/
theorem demande_aboutit (o : CThread) (p uiFlag : ℕ) (hclasse : o.classe = .cTimer)
    (hstarted : o.timer.bStarted = false) {es₀ es₁ es : List EvtThread}
    {s₀ s₁ s₂ s : Systeme} (h₀ : Execution.exec step (lance o p uiFlag) es₀ = some s₀)
    (hc₀ : ∀ e ∈ es₀, SansCreate e) (hd : s₀.step .demande = some s₁)
    (h₁ : Execution.exec step s₁ es₁ = some s₂) (hc₁ : ∀ e ∈ es₁, SansCreate e)
    (hlibre : s₂.appel = .libre) (h : Execution.exec step s₂ es = some s)
    (hes : ∀ e ∈ es, DuFil e) :
    es.length ≤ 16 ∧ (s.fil.pc ≠ .termine → ∃ e t, DuFil e ∧ s.step e = some t) ∧
      (s.fil.pc = .termine → s.objet.timer.bStarted = false) := by
  let I : Systeme → Prop := fun s => Cours s ∧ Allume s
  have hI : ∀ s e s', I s → SansCreate e → s.step e = some s' → I s' :=
    fun _ _ _ hI he hs => ⟨hI.1.step he hs, hI.2.step hI.1 he hs⟩
  have hlance : I (lance o p uiFlag) := ⟨.lance o p uiFlag, hclasse, hstarted⟩
  have hI₀ : I s₀ := Execution.exec_invariant_of_labels hI hc₀ hlance h₀
  obtain ⟨hI₂, hprevenu₂⟩ : I s₂ ∧ s₂.Prevenu :=
    Execution.exec_invariant_of_labels (I := fun s => I s ∧ s.Prevenu)
      (fun _ _ _ h he hs => ⟨hI _ _ _ h.1 he hs,
        h.2.step h.1.1.regulier (h.1.1.ne_pthreadCreate hs) hs⟩) hc₁
      ⟨hI _ .demande _ hI₀ trivial hd, prevenu_of_demande hd⟩ h₁
  obtain ⟨hle, -, -, havance⟩ := hI₂.1.aboutit (hprevenu₂.averti hlibre) (.inl hlibre) hes h
  have hfin : I s := Execution.exec_invariant_of_labels hI
    (fun e he => by obtain ⟨c, rfl, -⟩ := hes e he; trivial) hI₂ h
  exact ⟨hle, havance, fun hpc => hfin.2.started.trans (by rw [hpc]; rfl)⟩

/-- A periodic timer that is asked to stop while it waits, until its thread has ended. -/
theorem demande_aboutit_attente :
    let o : CThread := { CThread.construit .cTimer 7 false false with
      timer := ⟨false, 500, some (), timePeriodic⟩ }
    let es₀ : List EvtThread := List.replicate 8 .pas
    let es₁ : List EvtThread := [.suite, .suite, .suite]
    let es : List EvtThread := .fil 0 .lisible :: List.replicate 7 .pas
    ∃ s₀ s₁ s₂ s, Execution.exec step (lance o 3 timePeriodic) es₀ = some s₀ ∧
      s₀.step .demande = some s₁ ∧ Execution.exec step s₁ es₁ = some s₂ ∧
      Execution.exec step s₂ es = some s ∧ s.fil.pc = .termine ∧
      s.objet.timer.bStarted = false := by
  intro o es₀ es₁ es
  let s₀ := (Execution.exec step (lance o 3 timePeriodic) es₀).get (by decide)
  let s₁ := (s₀.step .demande).get (by decide)
  let s₂ := (Execution.exec step s₁ es₁).get (by decide)
  let s := (Execution.exec step s₂ es).get (by decide)
  have h₀ : Execution.exec step (lance o 3 timePeriodic) es₀ = some s₀ :=
    (Option.some_get (by decide)).symm
  have hd : s₀.step .demande = some s₁ := (Option.some_get (by decide)).symm
  have h₁ : Execution.exec step s₁ es₁ = some s₂ := (Option.some_get (by decide)).symm
  have h : Execution.exec step s₂ es = some s := (Option.some_get (by decide)).symm
  have hpc : s.fil.pc = .termine := by decide
  obtain ⟨-, -, hfin⟩ := demande_aboutit o 3 timePeriodic rfl rfl h₀
    (by simp [es₀, SansCreate, EvtThread.pas]) hd h₁ (by simp [es₁, SansCreate]) (by decide) h
    (by simp [es, DuFil, EvtThread.pas])
  exact ⟨s₀, s₁, s₂, s, h₀, hd, h₁, h, hpc, hfin hpc⟩

/-- `Stop` on a timer whose thread it joins, called at any time by an owner that may also
call `SetArretThread (1)`: the thread ends within sixteen of its steps unless its `select`
is interrupted, it is never blocked before, and `Stop` goes on when it has ended. -/
theorem stop_aboutit (o : CThread) (p uiFlag : ℕ) {es₀ es : List EvtThread} {s₀ s : Systeme}
    (h₀ : Execution.exec step (lance o p uiFlag) es₀ = some s₀) (hc₀ : ∀ e ∈ es₀, SansCreate e)
    (hjoint : s₀.appel = .stopJoint) (h : Execution.exec step s₀ es = some s)
    (hes : ∀ e ∈ es, DuFil e) :
    es.length ≤ 16 ∧ (s.fil.pc ≠ .termine → ∃ e t, DuFil e ∧ s.step e = some t) ∧
      (s.fil.pc = .termine → ∃ t, s.step .suite = some t ∧ t.appel = .stopDetache) := by
  have hcours₀ : Cours s₀ := Execution.exec_invariant_of_labels
    (fun _ _ _ hI he hs => hI.step he hs) hc₀ (.lance o p uiFlag) h₀
  obtain ⟨hle, hap, hcours, havance⟩ :=
    hcours₀.aboutit (hcours₀.regulier.ecrit (.inr hjoint)) (.inr hjoint) hes h
  refine ⟨hle, havance, fun hpc => ⟨{ s with appel := .stopDetache }, ?_, rfl⟩⟩
  have hrendu : s.joint = true := by
    rw [joint, hcours.unique]
    simp [hpc]
  simp [Systeme.step, Systeme.suite, hap.trans hjoint, hrendu]

/-- A periodic timer that is stopped when its `select` has timed out: the thread makes one
more callback, ends, and is joined. -/
theorem stop_aboutit_periodique :
    let o : CThread := { CThread.construit .cTimer 7 false false with
      timer := ⟨false, 500, some (), timePeriodic⟩ }
    let es₀ : List EvtThread := List.replicate 8 .pas ++ [.fil 0 .expire, .stop, .suite, .suite,
      .suite]
    let es : List EvtThread := List.replicate 6 .pas ++ .fil 0 .lisible :: List.replicate 7 .pas
    ∃ s₀ s t, Execution.exec step (lance o 3 timePeriodic) es₀ = some s₀ ∧
      Execution.exec step s₀ es = some s ∧ s.fil.rappels = 1 ∧ s.step .suite = some t ∧
      t.appel = .stopDetache := by
  intro o es₀ es
  let s₀ := (Execution.exec step (lance o 3 timePeriodic) es₀).get (by decide)
  let s := (Execution.exec step s₀ es).get (by decide)
  have h₀ : Execution.exec step (lance o 3 timePeriodic) es₀ = some s₀ :=
    (Option.some_get (by decide)).symm
  have h : Execution.exec step s₀ es = some s := (Option.some_get (by decide)).symm
  obtain ⟨-, -, hfin⟩ := stop_aboutit o 3 timePeriodic h₀ (by simp [es₀, SansCreate, EvtThread.pas])
    (by decide) h (by simp [es, DuFil, EvtThread.pas])
  obtain ⟨t, ht, hap⟩ := hfin (by decide)
  exact ⟨s₀, s, t, h₀, h, by decide, ht, hap⟩

end Systeme

end GestAqua
