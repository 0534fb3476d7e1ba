import GestAqua.Source.Thread

/-!
`Timer.cpp`, `Thread.h` and `MainTache.cpp`: the calls that the owner of an object
makes on it while its thread runs, one access at a time.

`CTimer::Stop`, `CThread::SetArretThread (1)` and the part of
`CMainTask::iStopProfil` that concerns the profile are sequences of accesses to the
object: the locking and the unlocking of its mutex, a read or a write of one
member, the write to its pipe. The thread is the one of `Thread.lean`.
-/

namespace GestAqua

/-- The next access of the owner to the object. -/
inductive Acces
  | libre
  -- `Stop`; `cRet` is the result of `cGetArretThread`
  | stopStarted | stopVerrou | stopArret | stopLibere (cRet : ℕ)
  | stopPipe | stopEcrit | stopAuto | stopDetach | stopJoint | stopObjet
  -- `iStopProfil`, before its call of `SetArretThread (1)`
  | profilAuto
  -- `SetArretThread (1)`
  | demVerrou | demPose | demPipe | demEcrit | demLibere
  deriving DecidableEq, Repr

structure Duo where
  objet : CThread
  fil : Fil
  acces : Acces
  deriving DecidableEq, Repr

inductive EvtDuo
  | stop
  | demande
  | stopProfil
  | acces
  | fil (c : Choix)
  deriving DecidableEq, Repr

namespace Duo

def suite (d : Duo) : Option Duo :=
  match d.acces with
  | .libre => none
  -- `if (!IsStarted()  || cGetArretThread()==2) return;`
  | .stopStarted =>
    if d.objet.timer.bStarted then some { d with acces := .stopVerrou }
    else some { d with acces := .libre }
  | .stopVerrou =>
    if d.objet.mutex = none then
      some { d with objet := { d.objet with mutex := some .proprietaire }, acces := .stopArret }
    else none
  | .stopArret => some { d with acces := .stopLibere d.objet.arretThread }
  | .stopLibere cRet =>
    some { d with
      objet := { d.objet with mutex := none }
      acces := if cRet = 2 then .libre else .stopPipe }
  -- `if (iIdPipe[1]>=0)`
  | .stopPipe =>
    if d.objet.iIdPipe = none then some { d with acces := .libre }
    else some { d with acces := .stopEcrit }
  | .stopEcrit => some { d with objet := d.objet.ecrit, acces := .stopAuto }
  | .stopAuto =>
    some { d with acces := if d.objet.cAutoDelete then .stopObjet else .stopDetach }
  | .stopDetach =>
    some { d with acces := if d.objet.cIsdetachstate then .stopObjet else .stopJoint }
  | .stopJoint => if d.fil.pc = .termine then some { d with acces := .stopObjet } else none
  | .stopObjet =>
    some { d with
      objet := { d.objet with timer := { d.objet.timer with hObjetAttache := none } }
      acces := .libre }
  | .profilAuto =>
    some { d with objet := { d.objet with cAutoDelete := true }, acces := .demVerrou }
  | .demVerrou =>
    if d.objet.mutex = none then
      some { d with objet := { d.objet with mutex := some .proprietaire }, acces := .demPose }
    else none
  | .demPose => some { d with objet := { d.objet with arretThread := 1 }, acces := .demPipe }
  | .demPipe =>
    some { d with acces := if d.objet.iIdPipe = none then .demLibere else .demEcrit }
  | .demEcrit => some { d with objet := d.objet.ecrit, acces := .demLibere }
  | .demLibere => some { d with objet := { d.objet with mutex := none }, acces := .libre }

def step (d : Duo) : EvtDuo → Option Duo
  | .stop =>
    if d.acces = .libre ∧ d.objet.classe = .cTimer then some { d with acces := .stopStarted }
    else none
  | .demande => if d.acces = .libre then some { d with acces := .demVerrou } else none
  | .stopProfil =>
    if d.acces = .libre ∧ d.objet.classe = .cProfil then some { d with acces := .profilAuto }
    else none
  | .acces => d.suite
  | .fil c => (d.fil.step d.objet 0 c).map fun r => { d with objet := r.1, fil := r.2 }

/-- An object whose thread has just been created, its pipe open. -/
def lance (classe : Classe) (arretThread : ℕ) (cIsdetachstate : Bool) (timer : CTimer Unit)
    (p : ℕ) : Duo where
  objet := { CThread.construit classe arretThread true cIsdetachstate with
    timer := { timer with bStarted := false }
    iIdPipe := some p
    ouverts := [p] }
  fil := .cree timer.uiFlagEvent
  acces := .libre

end Duo

end GestAqua
