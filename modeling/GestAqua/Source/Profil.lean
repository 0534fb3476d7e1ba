import GestAqua.Source.Thread

/-!
`Profil.cpp` and `CSoleil::Thread`: the thread of a profile, the thread of the sun
it creates, and the timer that the sun drives.

The three objects are those of `Thread.lean`. A thread of `CProfil` or `CSoleil`
follows `Fil.step` except at two points, where it makes calls on the object it
owns: on the way into its loop (`iStartProfil`, `GestionCourbeSolaire.iStart`) and
on the way out (the end of `CProfil::Thread`, `GestionCourbeSolaire.iStop`).
`pSoleil` is `NULL` when `CProfil::Thread` calls `iStartProfil`, so that the branch
for an earlier sun is not taken.
-/

namespace GestAqua

/-- How far a thread is with the calls on the object it owns: it has not made the
first, is inside it, is between the two, is inside the last, or has made it. -/
inductive Stade (φ : Type)
  | avant | ouvre | cours | ferme (phase : φ) | rendu
  deriving DecidableEq, Repr

/-- The end of `CProfil::Thread`: `SetArretThread (1)` on the sun, the
`pthread_join` of `thread_id`, the test of `IsAutoDelete`, and the deletion, in
which `~CTimer` may stop the timer of the sun. -/
inductive Demontage
  | demande | joint | teste | supprime
  -- `CTimer::Stop`, called by `~CTimer`
  | drapeau | ecrit | attend
  | libere
  deriving DecidableEq, Repr

/-- A profile with its sun, and the timer `GestionCourbeSolaire.m_TimerPwm`.
`pSoleil` tells whether the pointer is set. -/
structure Montage where
  profil : Systeme
  soleil : Systeme
  pwm : Systeme
  ucValide : Bool
  ui64UsecEtatHaut : ℕ
  pSoleil : Bool
  stadeProfil : Stade Demontage
  stadeSoleil : Stade Unit
  deriving DecidableEq, Repr

/-- `appelSoleil` and `appelPwm` are the further steps of the call in progress on
the sun and on its timer; `gere` is `iGererCourbe`, with the duration it computes
when a segment is selected. -/
inductive EvtMontage
  | demande
  | suiteDemande
  | profil (c : Choix)
  | soleil (c : Choix)
  | gere (usecEtatHaut : Option ℕ)
  | pwm (c : Choix)
  | appelSoleil (e : EvtThread)
  | appelPwm (e : EvtThread)
  deriving DecidableEq, Repr

/-- The thread is in its own program: not at the point of its first call, nor at
the point of the last. -/
def Stade.laisse {φ : Type} (pc : Pc) (e : Stade φ) : Bool :=
  match pc, e with
  | .prepare, .cours => true
  | .prepare, _ => false
  | .sortie, .rendu => true
  | .sortie, _ => false
  | _, _ => true

/-- A step of a call that is in progress. -/
def EvtThread.poursuit : EvtThread → Bool
  | .pipe _ | .pthreadCreate _ | .suite => true
  | _ => false

def Systeme.pc? (s : Systeme) : Option Pc := s.fils.head?.map (·.pc)

namespace Montage

/-- The calls of the profile's thread on its sun. -/
def suiteProfil (d : Montage) : Option Montage :=
  match d.stadeProfil with
  | .avant =>
    if d.profil.objet.iIdPipe = none then
      (d.profil.step .pas).map fun s => { d with profil := s, stadeProfil := .rendu }
    -- `iStartProfil`
    else if d.ucValide then
      (d.soleil.step .create).map fun s =>
        { d with soleil := s, pSoleil := true, stadeProfil := .ouvre }
    else some { d with stadeProfil := .cours }
  | .ouvre => if d.soleil.appel = .libre then some { d with stadeProfil := .cours } else none
  | .cours =>
    if d.pSoleil then
      (d.soleil.step .demande).map fun s => { d with soleil := s, stadeProfil := .ferme .demande }
    else some { d with stadeProfil := .rendu }
  | .ferme .demande =>
    if d.soleil.appel = .libre then
      some { d with stadeProfil :=
        if d.soleil.objet.cIsdetachstate then .ferme .teste else .ferme .joint }
    else none
  -- `pthread_join(thread_id,NULL)`: a thread that joins itself gets an error at once
  | .ferme .joint => some { d with stadeProfil := .ferme .teste }
  | .ferme .teste =>
    some { d with stadeProfil :=
      if d.soleil.objet.cAutoDelete then .rendu else .ferme .supprime }
  -- `~CTimer`: `if (IsStarted()) Stop();`
  | .ferme .supprime =>
    some { d with stadeProfil :=
      if d.pwm.objet.timer.bStarted then .ferme .drapeau else .ferme .libere }
  | .ferme .drapeau =>
    if d.pwm.objet.mutex = none then
      some { d with stadeProfil :=
        if d.pwm.objet.arretThread = 2 then .ferme .libere else .ferme .ecrit }
    else none
  | .ferme .ecrit =>
    if d.pwm.objet.iIdPipe = none then some { d with stadeProfil := .ferme .libere }
    else some { d with
      pwm := { d.pwm with objet := d.pwm.objet.ecrit, fils := d.pwm.marque }
      stadeProfil := .ferme .attend }
  | .ferme .attend =>
    if d.pwm.joint then some { d with stadeProfil := .ferme .libere } else none
  | .ferme .libere =>
    some { d with
      soleil := { d.soleil with objet := { d.soleil.objet with detruit := true, iIdPipe := none } }
      pwm := { d.pwm with objet := { d.pwm.objet with detruit := true, iIdPipe := none } }
      pSoleil := false
      stadeProfil := .rendu }
  | .rendu => none

/-- The calls of the sun's thread on its timer. -/
def suiteSoleil (d : Montage) : Option Montage :=
  match d.stadeSoleil with
  | .avant =>
    if d.soleil.objet.iIdPipe = none then
      (d.soleil.step .pas).map fun s => { d with soleil := s, stadeSoleil := .rendu }
    -- `iStart`
    else
      (d.pwm.step (.start d.ui64UsecEtatHaut timePeriodic)).map fun s =>
        { d with pwm := s, stadeSoleil := .ouvre }
  | .ouvre => if d.pwm.appel = .libre then some { d with stadeSoleil := .cours } else none
  -- `iStop`
  | .cours => (d.pwm.step .stop).map fun s => { d with pwm := s, stadeSoleil := .ferme () }
  | .ferme _ => if d.pwm.appel = .libre then some { d with stadeSoleil := .rendu } else none
  | .rendu => none

/-- `SetRapportCyclique`, with the duration it computes. -/
def setDuree (d : Montage) (usecEtatHaut : ℕ) : Montage :=
  { d with
    ui64UsecEtatHaut := usecEtatHaut
    pwm := { d.pwm with
      objet := { d.pwm.objet with timer := d.pwm.objet.timer.setDuree usecEtatHaut } } }

def step (d : Montage) : EvtMontage → Option Montage
  | .demande => (d.profil.step .demande).map fun s => { d with profil := s }
  | .suiteDemande => (d.profil.step .suite).map fun s => { d with profil := s }
  | .profil c =>
    match d.profil.pc? with
    | none => none
    | some pc =>
      if d.stadeProfil.laisse pc then
        (d.profil.step (.fil 0 c)).map fun s => { d with profil := s }
      else if c = .suite then d.suiteProfil
      else none
  | .soleil c =>
    match d.soleil.pc? with
    | none | some .action => none
    | some pc =>
      if d.stadeSoleil.laisse pc then
        (d.soleil.step (.fil 0 c)).map fun s => { d with soleil := s }
      else if c = .suite then d.suiteSoleil
      else none
  | .gere usecEtatHaut =>
    if d.soleil.pc? = some .action then
      (d.soleil.step .pas).map fun s =>
        match usecEtatHaut with
        | some usec => { d with soleil := s }.setDuree usec
        | none => { d with soleil := s }
    else none
  | .pwm c => (d.pwm.step (.fil 0 c)).map fun s => { d with pwm := s }
  | .appelSoleil e =>
    if e.poursuit then (d.soleil.step e).map fun s => { d with soleil := s } else none
  | .appelPwm e =>
    if e.poursuit then (d.pwm.step e).map fun s => { d with pwm := s } else none

/-- `CProfil::Start` has created the thread of the profile; the arguments `arret` are
the contents of `ArretThread` in the three objects. -/
def lance (arretProfil arretSoleil arretPwm p : ℕ) (ucValide : Bool) (ui64UsecEtatHaut : ℕ) :
    Montage where
  profil := { Systeme.neuf .cProfil arretProfil true true with
    objet := { CThread.construit .cProfil arretProfil true true with
      iIdPipe := some p
      ouverts := [p] }
    fils := [.cree 0] }
  soleil := .neuf .cSoleil arretSoleil false false
  pwm := .neuf .cTimer arretPwm false false
  ucValide := ucValide
  ui64UsecEtatHaut := ui64UsecEtatHaut
  pSoleil := false
  stadeProfil := .avant
  stadeSoleil := .avant

end Montage

end GestAqua
