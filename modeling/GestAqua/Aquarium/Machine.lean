import GestAqua.Planning.Machines
import GestAqua.Source.ProfilInit

/-!
The whole program under an ideal clock: the main task with its timers, and the suns of
the profiles that are running.

The thread of a profile creates its sun when the profile is started and stops it when
the profile is asked to stop, both at once. The wait of `CSoleil::Thread` ends after
exactly `usIntervalleX` seconds, and `iGererCourbe` is called then. As in the machine
of the main task, time passes an instant when all that is due at it has happened.
-/

namespace GestAqua

/-- What a run does not change, besides what concerns the main task: the table
`stParamProfil` that `pstInit` loads, and what the memory of a new `CProfil` and of a
new `CSoleil` holds in the members that their constructors do not initialise. -/
structure Installation where
  env : Env
  stParamProfil : List ParamProfil
  stParam : ParamProfil
  dX : ℚ

/-- The tables that the program ships with, on a board whose local time is UTC. -/
def Installation.livree : Installation where
  env := .zoneFixe 1 0 sInitPlanification
  stParamProfil := sInitProfil
  stParam := ⟨"", 0, .vide⟩
  dX := 0

/-- The sun of a running profile: the address of the profile, the object, the offset
of the day of the last call of `iGererCourbe`, and the instant at which the wait in
progress ends. -/
structure Eclairage where
  pProfil : ℕ
  soleil : CSoleil
  dernier : Option ℤ
  echeance : ℤ

namespace Eclairage

def estDu (x : Eclairage) (maintenant : ℤ) : Bool := decide (x.echeance ≤ maintenant)

/-- `CProfil::Thread` up to its loop, for a profile that has just been started: the sun,
if the profile has one, enters its first wait. -/
def allume (inst : Installation) (maintenant : ℤ) (i : CProfil) : Option Eclairage :=
  ((TacheProfil.construit i.ucNumeroProfil (some inst.stParamProfil) inst.stParam).entre
    (some 0) inst.dX).pSoleil.map fun soleil =>
      { pProfil := i.adresse
        soleil := soleil
        dernier := none
        echeance := maintenant + soleil.usIntervalleX * inst.env.parSeconde }

/-- `iGererCourbe`, and the beginning of the next wait. -/
def gere (env : Env) (s : CMainTask) (x : Eclairage) : Eclairage :=
  let soleil := (x.soleil.iGererCourbe (s.tOffsetMidnight env)).1
  { x with
    soleil := soleil
    dernier := some (s.tOffsetMidnight env)
    echeance := s.maintenant + soleil.usIntervalleX * env.parSeconde }

end Eclairage

/-- The main task and the suns. -/
structure Aquarium where
  ideal : Ideal
  soleils : List Eclairage

/-- `soleil` is the end of the wait of the sun of a profile. -/
inductive EvtAquarium
  | tache (e : EvtIdeal)
  | soleil (pProfil : ℕ)
  deriving DecidableEq, Repr

namespace Aquarium

def depart (t0 : ℤ) : Aquarium where
  ideal := .depart t0
  soleils := []

/-- The suns after a step of the main task: those of the profiles it has started, and
of the others those whose profile has not been asked to stop. -/
def suit (inst : Installation) (s s' : CMainTask) (soleils : List Eclairage) :
    List Eclairage :=
  (s'.profils.filter (· ∉ s.profils)).filterMap (Eclairage.allume inst s'.maintenant) ++
    soleils.filter fun x => s'.profils.any (·.adresse = x.pProfil)

def echu (a : ℕ) (m : Aquarium) (x : Eclairage) : Bool :=
  x.pProfil == a && x.estDu m.ideal.tache.maintenant

def calme (m : Aquarium) : Bool :=
  m.ideal.calme && m.soleils.all fun x => !x.estDu m.ideal.tache.maintenant

def step (inst : Installation) (m : Aquarium) : EvtAquarium → Option Aquarium
  | .tache e =>
    if e = .avance ∧ m.calme = false then none
    else (m.ideal.step inst.env e).map fun ideal =>
      ⟨ideal, suit inst m.ideal.tache ideal.tache m.soleils⟩
  | .soleil a =>
    if m.soleils.any (m.echu a) then
      some { m with
        soleils := m.soleils.map fun x =>
          if m.echu a x then x.gere inst.env m.ideal.tache else x }
    else none

theorem step_cases {inst : Installation} {m m' : Aquarium} {e : EvtAquarium}
    (h : m.step inst e = some m') :
    (∃ ev ideal, e = .tache ev ∧ m.ideal.step inst.env ev = some ideal ∧
      (ev = .avance → ∀ x ∈ m.soleils, m.ideal.tache.maintenant < x.echeance) ∧
      m' = ⟨ideal, suit inst m.ideal.tache ideal.tache m.soleils⟩) ∨
    (∃ a, e = .soleil a ∧ m' = { m with
      soleils := m.soleils.map fun x =>
        if m.echu a x then x.gere inst.env m.ideal.tache else x }) := by
  cases e with
  | tache ev =>
      simp only [step] at h
      split at h
      · cases h
      · rename_i hg
        obtain ⟨ideal, hideal, rfl⟩ := Option.map_eq_some_iff.mp h
        refine .inl ⟨ev, ideal, rfl, hideal, fun hev x hx => ?_, rfl⟩
        have hcalme : m.calme = true := by simpa [hev] using hg
        simp only [calme, Bool.and_eq_true, List.all_eq_true] at hcalme
        simpa [Eclairage.estDu] using hcalme.2 x hx
  | soleil a =>
      simp only [step] at h
      split at h
      · exact .inr ⟨a, rfl, (Option.some.inj h).symm⟩
      · cases h

def Atteint (inst : Installation) (t0 : ℤ) (m : Aquarium) : Prop :=
  ∃ es, Execution.exec (step inst) (depart t0) es = some m

theorem Atteint.invariant {inst : Installation} {t0 : ℤ} {I : Aquarium → Prop}
    (h0 : I (depart t0)) (hstep : ∀ m e m', I m → m.step inst e = some m' → I m')
    {m : Aquarium} (h : Atteint inst t0 m) : I m := by
  obtain ⟨es, hes⟩ := h
  exact Execution.exec_invariant hstep h0 hes

/-- The main task of the whole program is the main task of its own machine. -/
theorem Atteint.ideal {inst : Installation} {t0 : ℤ} {m : Aquarium} (h : Atteint inst t0 m) :
    Ideal.Atteint inst.env t0 m.ideal := by
  refine h.invariant (I := fun m => Ideal.Atteint inst.env t0 m.ideal) ⟨[], rfl⟩
    fun m e m' ⟨es, hes⟩ hs => ?_
  rcases step_cases hs with ⟨ev, ideal, -, hideal, -, rfl⟩ | ⟨a, -, rfl⟩
  · exact ⟨es ++ [ev], Execution.exec_concat hes hideal⟩
  · exact ⟨es, hes⟩

end Aquarium

end GestAqua
