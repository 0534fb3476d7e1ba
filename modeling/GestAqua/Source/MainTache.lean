import GestAqua.Source.Parametres
import GestAqua.Source.Timer
import Mathlib.Logic.Function.Basic

/-!
`MainTache.h`, `MainTache.cpp`: planning, launching and stopping profiles.

The state holds the members of `CMainTask` together with the part of the heap
they refer to: the live `CTimer` objects, the live parameter blocks of their
callbacks, and the `CProfil` objects whose thread has been created and not asked
to stop. An address is a number that is never used twice, and `0` is `NULL`.

Timers are ideal here. A started timer is due at its `echeance`; its thread then
runs the callback, leaves `CTimer::Thread` and `FctThread` deletes the object
when it is auto-delete. `Stop` on a started timer ends its thread.
-/

namespace GestAqua

/-- `PARAM_CALLBACK_START_PROFIL`, with its address. -/
structure ParamCallbackStartProfil where
  bloc : ℕ
  ucNumeroPlanif : UInt8
  deriving DecidableEq, Repr

/-- `PARAM_CALLBACK_STOP_PROFIL`, with its address. -/
structure ParamCallbackStopProfil where
  bloc : ℕ
  ucNumeroProfil : UInt8
  pProfil : ℕ
  deriving DecidableEq, Repr

/-- The object attached to a timer of the main task; the constructor is the
callback that `SetCallback` was given. -/
inductive Rappel
  | fctStartProfil (pParam : ParamCallbackStartProfil)
  | fctStopProfil (pParam : ParamCallbackStopProfil)
  deriving DecidableEq, Repr

/-- A live `CTimer` object of the main task. -/
structure TimerTache where
  adresse : ℕ
  timer : CTimer Rappel
  cAutoDelete : Bool
  echeance : ℤ
  deriving DecidableEq, Repr

/-- The members of a `CProfil` that the main task gives it. -/
structure CProfil where
  adresse : ℕ
  ucNumeroProfil : UInt8
  tDebut : ℤ
  tDuree : ℤ
  deriving DecidableEq, Repr

/-- What a run does not change: the number of instants the clock distinguishes
in a second, the local zone, the day of the year of each day since the epoch as
`gmtime` reports it, and the planning table that `pstInit` loads. -/
structure Env where
  parSeconde : ℕ
  zone : Zone
  tmYday : ℤ → ℤ
  stPlanifProfil : List DefPlanificationProfil

/-- The main task and the objects it has allocated. `effaceFin` records an
`erase` applied to `end()`, `doubleDelete` a `delete` of a block that was not
live. -/
structure CMainTask where
  maintenant : ℤ
  sLastDay : ℤ
  mLanceurProfil : UInt8 → Option ℕ
  mStopProfil : UInt8 → Option ℕ
  timers : List TimerTache
  blocs : List ℕ
  profils : List CProfil
  suivant : ℕ
  effaceFin : Bool
  doubleDelete : Bool

/-- `time(NULL)` at an instant. -/
def Env.time (env : Env) (t : ℤ) : ℤ := t / env.parSeconde

/-- The instants a duration in microseconds lasts. -/
def Env.duree (env : Env) (usec : ℕ) : ℤ := usec * env.parSeconde / microSec

namespace TimerTache

/-- `new CTimer ()`, followed by `SetAutoDelete`. -/
def nouveau (adresse : ℕ) (cAutoDelete : Bool) : TimerTache where
  adresse := adresse
  timer := .init
  cAutoDelete := cAutoDelete
  echeance := 0

/-- `CTimer::Start` with the default flag; `cree` is the outcome of `Create()`. -/
def start (env : Env) (cree : Bool) (maintenant : ℤ) (t : TimerTache) (ui64Usec : ℕ)
    (hObjetAttache : Rappel) : TimerTache :=
  match t.timer.start ui64Usec (some hObjetAttache) timeOneshot with
  | some timer => { t with
      timer := { timer with bStarted := cree }
      echeance := maintenant + env.duree ui64Usec }
  | none => t

/-- `CTimer::Stop` and the end of the thread it wakes; `none` when the object is
deleted by its own thread. -/
def stop (t : TimerTache) : Option TimerTache :=
  if t.timer.bStarted = false then some t
  else if t.cAutoDelete then none
  else some { t with timer := { t.timer with bStarted := false, hObjetAttache := none } }

/-- The end of `CTimer::Thread` and of `FctThread` after a one-shot callback. -/
def fini (t : TimerTache) : Option TimerTache :=
  if t.cAutoDelete then none
  else some { t with timer := { t.timer with bStarted := false } }

/-- Apply `f` to the object at an address; `none` deletes it. -/
def surAdresse (a : ℕ) (f : TimerTache → Option TimerTache) (l : List TimerTache) :
    List TimerTache :=
  l.filterMap fun t => if t.adresse = a then f t else some t

end TimerTache

namespace CMainTask

open TimerTache

/-- `CMainTask::CMainTask`, at an instant. -/
def construit (maintenant : ℤ) : CMainTask where
  maintenant := maintenant
  sLastDay := -1
  mLanceurProfil _ := none
  mStopProfil _ := none
  timers := []
  blocs := []
  profils := []
  suivant := 1
  effaceFin := false
  doubleDelete := false

/-- `tGetOffsetFromMidnight ()`, called now. -/
def tOffsetMidnight (env : Env) (s : CMainTask) : ℤ :=
  tGetOffsetFromMidnight env.zone (env.time s.maintenant)

/-- `Stop` on the timer at an address. -/
def stop (a : ℕ) (s : CMainTask) : CMainTask :=
  { s with timers := surAdresse a TimerTache.stop s.timers }

/-- The end of the thread of the timer at an address. -/
def finThread (a : ℕ) (s : CMainTask) : CMainTask :=
  { s with timers := surAdresse a TimerTache.fini s.timers }

/-- `mLanceurProfil.erase (mLanceurProfil.find (ucNumeroPlanif))`. -/
def effaceLanceur (ucNumeroPlanif : UInt8) (s : CMainTask) : CMainTask :=
  { s with
    mLanceurProfil := Function.update s.mLanceurProfil ucNumeroPlanif none
    effaceFin := s.effaceFin || (s.mLanceurProfil ucNumeroPlanif).isNone }

/-- `mStopProfil.erase (mStopProfil.find (ucNumeroProfil))`. -/
def effaceStop (ucNumeroProfil : UInt8) (s : CMainTask) : CMainTask :=
  { s with
    mStopProfil := Function.update s.mStopProfil ucNumeroProfil none
    effaceFin := s.effaceFin || (s.mStopProfil ucNumeroProfil).isNone }

/-- `delete pParam`. -/
def supprime (bloc : ℕ) (s : CMainTask) : CMainTask :=
  { s with
    blocs := s.blocs.filter (· ≠ bloc)
    doubleDelete := s.doubleDelete || !s.blocs.contains bloc }

/-- The launcher that both branches of `iInitPlanification` create: the
parameter block, the timer, `Start` and the map insertion. -/
def creeLanceur (env : Env) (cree : ℕ → Bool) (ucNumeroPlanif : UInt8) (cAutoDelete : Bool)
    (ui64Usec : ℕ) (s : CMainTask) : CMainTask :=
  let pParam : ParamCallbackStartProfil := ⟨s.suivant, ucNumeroPlanif⟩
  let lanceTacheprofil := (TimerTache.nouveau (s.suivant + 1) cAutoDelete).start env
    (cree (s.suivant + 1)) s.maintenant ui64Usec (.fctStartProfil pParam)
  { s with
    suivant := s.suivant + 2
    blocs := pParam.bloc :: s.blocs
    timers := lanceTacheprofil :: s.timers
    mLanceurProfil :=
      Function.update s.mLanceurProfil ucNumeroPlanif (some lanceTacheprofil.adresse) }

/-- The replacement of an older launcher: `Stop`, then `erase(it)`. -/
def remplaceLanceur (ucNumeroPlanif : UInt8) (s : CMainTask) : CMainTask :=
  match s.mLanceurProfil ucNumeroPlanif with
  | some pOldTimer => (s.stop pOldTimer).effaceLanceur ucNumeroPlanif
  | none => s

/-- The body of the loop of `iInitPlanification` for one entry. -/
def planifieEntree (env : Env) (cree : ℕ → Bool) (tOffsetMidnight : ℤ) (s : CMainTask)
    (e : DefPlanificationProfil) : CMainTask :=
  if e.ucNumeroPlanif = 0 then s
  else if e.stPlanif.tDebut > tOffsetMidnight then
    -- `(uint64_t)(tDebut-tOffsetMidnight)*(uint64_t)MICRO_SEC`, in 64 bits
    (s.remplaceLanceur e.ucNumeroPlanif).creeLanceur env cree e.ucNumeroPlanif true
      (uint64 (e.stPlanif.tDebut - tOffsetMidnight) * microSec % 2 ^ 64)
  else if e.stPlanif.tDebut + e.stPlanif.tPeriod > tOffsetMidnight then
    s.creeLanceur env cree e.ucNumeroPlanif false 100
  else s

def iInitPlanification (env : Env) (cree : ℕ → Bool)
    (pParamAppli : Option (List DefPlanificationProfil)) (s : CMainTask) : ℤ × CMainTask :=
  match pParamAppli with
  | some stPlanifProfil =>
    (0, stPlanifProfil.foldl (planifieEntree env cree (s.tOffsetMidnight env)) s)
  | none => (-1, s)

/-- The body of the loop of `iStartProfil` for an entry with the number that is
looked for: the profile, its stop timer, the map insertion and
`pTaskProfil->Start()`. -/
def lanceProfil (env : Env) (cree : ℕ → Bool) (s : CMainTask) (e : DefPlanificationProfil) :
    CMainTask :=
  let pTaskProfil : CProfil :=
    ⟨s.suivant, e.ucNumeroProfil, e.stPlanif.tDebut, e.stPlanif.tPeriod⟩
  let pParam : ParamCallbackStopProfil := ⟨s.suivant + 1, e.ucNumeroProfil, pTaskProfil.adresse⟩
  let stopTacheprofil := (TimerTache.nouveau (s.suivant + 2) false).start env
    (cree (s.suivant + 2)) s.maintenant
    (uint64 ((e.stPlanif.tPeriod - (s.tOffsetMidnight env - e.stPlanif.tDebut)) * microSec))
    (.fctStopProfil pParam)
  { s with
    suivant := s.suivant + 3
    blocs := pParam.bloc :: s.blocs
    timers := stopTacheprofil :: s.timers
    mStopProfil := Function.update s.mStopProfil pParam.ucNumeroProfil
      (some stopTacheprofil.adresse)
    -- `CProfil::Start` creates no thread when `tDuree` is zero
    profils := if pTaskProfil.tDuree ≠ 0 ∧ cree pTaskProfil.adresse then
      pTaskProfil :: s.profils else s.profils }

def iStartProfil (env : Env) (cree : ℕ → Bool) (ucNumeroPlanif : UInt8) (s : CMainTask) :
    ℤ × CMainTask :=
  if ucNumeroPlanif ≠ 0 then
    (0, env.stPlanifProfil.foldl
      (fun s e => if e.ucNumeroPlanif = ucNumeroPlanif then s.lanceProfil env cree e else s)
      (s.effaceLanceur ucNumeroPlanif))
  else (-1, s)

/-- `CMainTask::iStopProfil`: `SetArretThread (1)` asks the thread of the profile
to stop. -/
def iStopProfil (ucNumeroProfil : UInt8) (pProfil : ℕ) (s : CMainTask) : ℤ × CMainTask :=
  if ucNumeroProfil ≠ 0 ∧ pProfil ≠ 0 then
    let s := s.effaceStop ucNumeroProfil
    (0, { s with profils := s.profils.filter (·.adresse ≠ pProfil) })
  else (-1, s)

/-- `m_hCallBack(m_hObjetAttache)`: `fctStartProfil` and `fctStopProfil`, which
do nothing with a null object. -/
def rappelle (env : Env) (cree : ℕ → Bool) (hObjetAttache : Option Rappel) (s : CMainTask) :
    CMainTask :=
  match hObjetAttache with
  | some (.fctStartProfil pParam) =>
    (s.iStartProfil env cree pParam.ucNumeroPlanif).2.supprime pParam.bloc
  | some (.fctStopProfil pParam) =>
    (s.iStopProfil pParam.ucNumeroProfil pParam.pProfil).2.supprime pParam.bloc
  | none => s

/-- The expiry of a started one-shot timer: the callback, then the end of the
thread. -/
def expire (env : Env) (cree : ℕ → Bool) (t : TimerTache) (s : CMainTask) : CMainTask :=
  (s.rappelle env cree t.timer.hObjetAttache).finThread t.adresse

/-- The timeout branch of the loop of `CMainTask::Thread`: the test for a change
of day. -/
def testeJour (env : Env) (cree : ℕ → Bool) (s : CMainTask) : CMainTask :=
  let tmYday := env.tmYday (env.time s.maintenant / 86400)
  if tmYday ≠ s.sLastDay then
    ({ s with sLastDay := tmYday }.iInitPlanification env cree (some env.stPlanifProfil)).2
  else s

end CMainTask

end GestAqua
