import GestAqua.Source.Lamp
import GestAqua.Threads.Relay
import Mathlib.Algebra.Group.Nat.Even

/-!
What a stopped modulation leaves on its pin.

`iInit` writes the level `0` and every callback inverts the level; `iStop` waits for
the thread and writes nothing. The last level written is therefore the parity of the
callbacks since `iInit`, over any number of starts and stops and whatever becomes of
the durations, and the pin is low after an `iStop` exactly when that number is even.
-/

namespace GestAqua.Lampe

/-- Once an `iStop` has joined the thread and returned, and until the next `iStart`,
the last level written to the pin is `0`. -/
def Eteinte (l : Lampe) : Prop := l.eteinte = true → l.niveau = some 0

/-- An `iStart` that takes effect is not called before the thread of the previous
one has begun. -/
def DemarreEnOrdre (l : Lampe) : EvtLampe → Prop
  | .iStart => l.minuterie.DemarreEnOrdre (.start l.pwm.ui64UsecEtatHaut timePeriodic)
  | _ => True

/-- When an `iStop` that has joined the thread returns, the callbacks since the last
`iInit` are even in number. -/
def ArretPair (l : Lampe) : EvtLampe → Prop
  | .appel _ => l.minuterie.appel = .stopDetache → Even l.bascules
  | _ => True

instance (l : Lampe) : ∀ e, Decidable (l.DemarreEnOrdre e)
  | .iStart => inferInstanceAs (Decidable (l.minuterie.DemarreEnOrdre
      (.start l.pwm.ui64UsecEtatHaut timePeriodic)))
  | .iInit .. | .setRapportCyclique _ | .iStop | .appel _ | .fil .. => isTrue trivial

instance (l : Lampe) : ∀ e, Decidable (l.ArretPair e)
  | .appel _ => inferInstanceAs (Decidable (l.minuterie.appel = .stopDetache → Even l.bascules))
  | .iInit .. | .setRapportCyclique _ | .iStart | .iStop | .fil .. => isTrue trivial

/-! ### The last level -/

def etat (n : ℕ) : UInt8 := if Even n then 0 else 1

theorem etat_succ (n : ℕ) : etat (n + 1) = if etat n ≠ 0 then 0 else 1 := by
  rw [etat, etat]
  by_cases h : Even n <;> simp [Nat.even_add_one, h]

theorem etat_eq_zero_iff {n : ℕ} : etat n = 0 ↔ Even n := by
  rw [etat]
  by_cases h : Even n <;> simp [h]

theorem niveau_gpioWrite (bank pin n : ℕ) :
    (gpioWrite bank pin (etat n)).niveau bank pin = some (etat n) := by
  rw [etat]
  by_cases h : Even n <;> simp [Ecriture.niveau, gpioWrite, h]

/-- The last level is the one of the last write, when that is a write of the level. -/
theorem niveau_of_journal {l : Lampe} {j : List Ecriture} {n : ℕ}
    (h : l.journal = j ++ [gpioWrite (gBank l.pwm.ucGpio) (gPin l.pwm.ucGpio) (etat n)]) :
    l.niveau = some (etat n) := by
  rw [niveau, h, List.reverse_append, List.reverse_singleton, List.singleton_append,
    List.findSome?_cons, niveau_gpioWrite]

/-! ### The invariant -/

/-- The pin shows the parity of the callbacks, and after the return of an `iStop` that
has joined the thread no thread is left that could make another one. -/
structure Inv (l : Lampe) : Prop where
  relais : ∃ vieux dernier, l.minuterie.Relais vieux dernier
  nature : l.minuterie.Nature = (.cTimer, false, false)
  ucEtat : l.pwm.ucEtat = etat l.bascules
  niveau : l.niveau = some (etat l.bascules)
  joint : l.minuterie.appel = .stopDetache → l.minuterie.TousRevenus
  eteinte : l.eteinte = true → Even l.bascules ∧ l.minuterie.AuRepos

variable {l l' : Lampe} {e : EvtLampe} {s : Systeme}

theorem Inv.construit (g : UInt8) (f : ℕ) (r : ℚ) (arret : ℕ) : Inv (construit g f r arret) where
  relais := ⟨[], none, (Systeme.Relais.neuf arret false false).congr rfl rfl rfl id⟩
  nature := rfl
  ucEtat := rfl
  niveau := niveau_of_journal (j := [gpioOutput (gBank g) (gPin g)]) (n := 0) rfl
  joint := nofun
  eteinte := nofun

theorem Inv.classe (h : Inv l) : l.minuterie.objet.classe = .cTimer := congrArg (·.1) h.nature

theorem relais_pose (p : CPwmGpio) (w : List Ecriture)
    (h : ∃ vieux dernier, l.minuterie.Relais vieux dernier)
    (hb : p.mTimerPwm.bStarted = l.minuterie.objet.timer.bStarted) :
    ∃ vieux dernier, (l.pose p w).minuterie.Relais vieux dernier := by
  obtain ⟨vieux, dernier, hr⟩ := h
  exact ⟨vieux, dernier, hr.congr rfl rfl hb id⟩

theorem Inv.iInit (h : Inv l) (g : UInt8) (f : ℕ) (r : ℚ) :
    Inv { l.pose (l.modulation.iInit g f r).1 (l.modulation.iInit g f r).2 with bascules := 0 } where
  relais := relais_pose (l.modulation.iInit g f r).1 (l.modulation.iInit g f r).2 h.relais rfl
  nature := h.nature
  ucEtat := rfl
  niveau := niveau_of_journal (List.append_cons ..)
  joint := h.joint
  eteinte he := ⟨.zero, (h.eteinte he).2.revenus, (h.eteinte he).2.creation⟩

theorem Inv.setRapportCyclique (h : Inv l) (r : ℚ) :
    Inv (l.pose (l.modulation.setRapportCyclique r) []) where
  relais := relais_pose _ _ h.relais rfl
  nature := h.nature
  ucEtat := h.ucEtat
  niveau := (congrArg (fun j => List.findSome? _ (List.reverse j))
    (List.append_nil l.journal)).trans h.niveau
  joint := h.joint
  eteinte he := ⟨(h.eteinte he).1, (h.eteinte he).2.revenus, (h.eteinte he).2.creation⟩

theorem Inv.avance (h : Inv l) {ev : EvtThread} (hs : l.minuterie.step ev = some s)
    (hg : l.minuterie.DemarreEnOrdre ev) {b : Bool}
    (hb : b = true → Even l.bascules ∧ s.AuRepos) :
    Inv { l with minuterie := s, eteinte := b } where
  relais := by
    obtain ⟨vieux, dernier, hr⟩ := h.relais
    exact hr.step hg hs
  nature := (Systeme.nature_of_step hs).trans h.nature
  ucEtat := h.ucEtat
  niveau := h.niveau
  joint := by
    obtain ⟨vieux, dernier, hr⟩ := h.relais
    exact hr.stopDetache h.nature h.joint hs
  eteinte := hb

/-- A callback inverts the level, unless `Stop` has detached the object. -/
theorem Inv.rappelle (h : Inv l) (he : l.eteinte = false) : Inv l.rappelle := by
  cases ho : l.minuterie.objet.timer.hObjetAttache with
  | none =>
      have hnul : l.rappelle = l.pose l.modulation [] := by
        simp [Lampe.rappelle, CPwmGpio.callbackTimerPwmGpio, ho, pose]
      rw [hnul]
      exact ⟨relais_pose _ _ h.relais rfl, h.nature, h.ucEtat,
        (congrArg (fun j => List.findSome? _ (List.reverse j))
          (List.append_nil l.journal)).trans h.niveau, h.joint,
        fun hcon => absurd (he.symm.trans hcon) Bool.false_ne_true⟩
  | some u =>
      have hbascule : l.rappelle =
          { l.pose l.modulation.gestionPwm.1 [l.modulation.gestionPwm.2] with
            bascules := l.bascules + 1 } := by
        simp [Lampe.rappelle, CPwmGpio.callbackTimerPwmGpio, ho]
      have hetat : l.modulation.gestionPwm.1.ucEtat = etat (l.bascules + 1) := by
        show (if l.pwm.ucEtat ≠ 0 then (0 : UInt8) else 1) = _
        rw [h.ucEtat, etat_succ]
      rw [hbascule]
      refine ⟨relais_pose l.modulation.gestionPwm.1 [l.modulation.gestionPwm.2] h.relais rfl,
        h.nature, hetat, niveau_of_journal (congrArg (fun u => l.journal ++ [gpioWrite _ _ u]) hetat), h.joint,
        fun hcon => absurd (he.symm.trans hcon) Bool.false_ne_true⟩

theorem Inv.step (h : Inv l) (hg : l.DemarreEnOrdre e) (hp : l.ArretPair e)
    (hs : l.step e = some l') : Inv l' := by
  cases e with
  | iInit g f r =>
      simp only [Lampe.step] at hs
      split at hs
      · cases hs
        exact h.iInit g f r
      · cases hs
  | setRapportCyclique r =>
      simp only [Lampe.step] at hs
      split at hs
      · cases hs
        exact h.setRapportCyclique r
      · cases hs
  | iStart =>
      obtain ⟨s, hstep, rfl⟩ := Option.map_eq_some_iff.mp hs
      exact h.avance hstep hg nofun
  | iStop =>
      obtain ⟨s, hstep, rfl⟩ := Option.map_eq_some_iff.mp hs
      exact h.avance hstep trivial fun he =>
        ⟨(h.eteinte he).1, (h.eteinte he).2.step h.classe (by simp) hstep⟩
  | appel ev =>
      simp only [Lampe.step] at hs
      split at hs
      · rename_i hpoursuit
        obtain ⟨s, hstep, rfl⟩ := Option.map_eq_some_iff.mp hs
        have hstart : ∀ usec flag, ev ≠ .start usec flag := by
          rintro usec flag rfl
          cases hpoursuit
        refine h.avance hstep (Systeme.demarreEnOrdre_of_ne hstart) fun hb => ?_
        rcases Bool.or_eq_true _ _ |>.mp hb with he | ha
        · exact ⟨(h.eteinte he).1, (h.eteinte he).2.step h.classe hstart hstep⟩
        · -- the join is over, and the call returns
          have ha := of_decide_eq_true ha
          exact ⟨hp ha, Systeme.AuRepos.step ⟨h.joint ha, by rw [ha]; rfl⟩ h.classe hstart hstep⟩
      · cases hs
  | fil k c =>
      obtain ⟨s, hstep, rfl⟩ := Option.map_eq_some_iff.mp hs
      have hs' : Inv { l with minuterie := s } := h.avance hstep trivial fun he =>
        ⟨(h.eteinte he).1, (h.eteinte he).2.step h.classe (by simp) hstep⟩
      split
      · rename_i hpc
        refine hs'.rappelle ?_
        rw [← Bool.not_eq_true]
        exact fun he => (h.eteinte he).2.revenus.ne_action hpc
      · exact hs'

/-- An `iStop` that returns after an odd number of callbacks leaves the pin high. -/
theorem Inv.allumee (h : Inv l) (hp : ¬ l.ArretPair e) (hs : l.step e = some l') :
    ¬ l'.Eteinte := by
  cases e with
  | appel ev =>
      simp only [Lampe.step] at hs
      split at hs
      · obtain ⟨s, hstep, rfl⟩ := Option.map_eq_some_iff.mp hs
        simp only [ArretPair, Classical.not_imp] at hp
        intro hcon
        have hniveau : l.niveau = some 0 := hcon (by simp [hp.1])
        rw [h.niveau, Option.some.injEq, etat_eq_zero_iff] at hniveau
        exact hp.2 hniveau
      · cases hs
  | _ => exact absurd trivial hp

theorem Inv.finale (h : Inv l) : l.Eteinte := by
  intro he
  rw [h.niveau, etat_eq_zero_iff.mpr (h.eteinte he).1]

/-- Over every run in which no `iStart` is called again before the thread of the
previous one has begun, a stopped modulation leaves its pin low exactly when every
`iStop` that joins the thread returns after an even number of callbacks since the
last `iInit`. -/
theorem eteinte_iff (ucNumGpio : UInt8) (uiFreq : ℕ) (dRapport : ℚ) (arretThread : ℕ)
    {es : List EvtLampe} {l : Lampe}
    (h : Execution.exec step (construit ucNumGpio uiFreq dRapport arretThread) es = some l)
    (hordre : Execution.Meets step DemarreEnOrdre
      (construit ucNumGpio uiFreq dRapport arretThread) es) :
    Execution.Always step Eteinte (construit ucNumGpio uiFreq dRapport arretThread) es ↔
      Execution.Meets step ArretPair (construit ucNumGpio uiFreq dRapport arretThread) es := by
  refine Execution.always_iff_meets_of_meets (I := Inv) (fun _ hI => hI.finale) ?_ ?_
    (.construit ucNumGpio uiFreq dRapport arretThread) hordre h
  · intro l e l' hI hordre hpair hs
    exact hI.step hordre hpair hs
  · intro l e l' hI hpair hs
    exact hI.allumee hpair hs

def enRoute : List EvtLampe :=
  [.iStart, .appel (.pipe (some 3)), .appel (.pthreadCreate true)] ++ List.replicate 8 (.fil 0 .suite)

def passe : List EvtLampe := .fil 0 .expire :: List.replicate 6 (.fil 0 .suite)

def arret : List EvtLampe :=
  [.iStop] ++ List.replicate 3 (.appel .suite) ++ [.fil 0 .lisible] ++
    List.replicate 7 (.fil 0 .suite) ++ List.replicate 2 (.appel .suite)

/-- The modulation of `CSoleil`, stopped after two passes. -/
theorem eteinte_deux_passes :
    Execution.Always step Eteinte (construit 16 1000 1 0) (enRoute ++ passe ++ passe ++ arret) :=
  (eteinte_iff 16 1000 1 0 (Option.some_get (by decide +kernel)).symm (by decide +kernel)).mpr
    (by decide +kernel)

/-- The same modulation, stopped after one pass: `iStop` has joined the thread and
returned, and the last level written is `1`. -/
theorem allumee_une_passe :
    Execution.Meets step DemarreEnOrdre (construit 16 1000 1 0) (enRoute ++ passe ++ arret) ∧
      ((Execution.exec step (construit 16 1000 1 0) (enRoute ++ passe ++ arret)).map
        fun l => (l.eteinte, l.niveau)) = some (true, some 1) ∧
      ¬ Execution.Always step Eteinte (construit 16 1000 1 0) (enRoute ++ passe ++ arret) := by
  have hfin : (Execution.exec step (construit 16 1000 1 0) (enRoute ++ passe ++ arret)).map
      (fun l => (l.eteinte, l.niveau)) = some (true, some 1) := by decide +kernel
  refine ⟨by decide +kernel, hfin, fun h => ?_⟩
  obtain ⟨l, hl, hval⟩ := Option.map_eq_some_iff.mp hfin
  obtain ⟨heteinte, hniveau⟩ := Prod.mk.inj hval
  have := (h.last hl) heteinte
  rw [hniveau] at this
  cases this

end GestAqua.Lampe
