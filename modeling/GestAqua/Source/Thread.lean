import GestAqua.Source.Timer

/-!
`Thread.h`, `Thread.cpp`, `Timer.cpp` and the waiting loops of the threads: one
object and the threads it has created, in atomic steps.

The owner of the object is a program of calls (`Create`, `Start`, `Stop`,
`SetArretThread (1)`), each a sequence of steps; a thread is the program of
`FctThread` around the loop of its class. A step is one access to the mutex, to a
member that the other side reads, or to the pipe, and the outcome of `select`,
of `pipe` and of `pthread_create` is chosen by the label. The callback is
`CTimer`'s, and never `NULL`.
-/

namespace GestAqua

/-- The classes whose `Thread` has the waiting loop. What `CSoleil`, `CProfil` and
`CMainTask` call before the loop and after it is not part of this program. -/
inductive Classe
  | cTimer | cSoleil | cProfil | cSequenceurTache | cMainTask
  deriving DecidableEq, Repr

/-- Who holds the mutex: the owner, or one of the threads. -/
inductive Titulaire
  | proprietaire
  | fil (k : ℕ)
  deriving DecidableEq, Repr

/-- The members of `CThread`, with those of `CTimer` for a timer. `iIdPipe` is the
descriptor `iIdPipe[0]`, which names the pipe, and `none` is `-1`. The kernel's
part is the pipes that hold unread bytes and the descriptors used so far.
`detruit` records that the object has been deleted. -/
structure CThread where
  classe : Classe
  arretThread : ℕ
  mutex : Option Titulaire
  iIdPipe : Option ℕ
  cAutoDelete : Bool
  cIsdetachstate : Bool
  timer : CTimer Unit
  lisibles : List ℕ
  ouverts : List ℕ
  detruit : Bool
  deriving DecidableEq, Repr

namespace CThread

/-- The constructor; `ArretThread` is not initialised. -/
def construit (classe : Classe) (arretThread : ℕ) (cAutoDelete cIsdetachstate : Bool) :
    CThread where
  classe := classe
  arretThread := arretThread
  mutex := none
  iIdPipe := none
  cAutoDelete := cAutoDelete
  cIsdetachstate := cIsdetachstate
  timer := .init
  lisibles := []
  ouverts := []
  detruit := false

/-- `write (iIdPipe[1],"stop",4)`, when the pipe is open. -/
def ecrit (o : CThread) : CThread := { o with lisibles := o.iIdPipe.toList ++ o.lisibles }

/-- A watched descriptor below `n` is readable. -/
def pret (o : CThread) (n : ℕ) (rfds : List ℕ) : Bool :=
  rfds.any fun p => p < n && o.lisibles.contains p

end CThread

/-! ### A thread of the object -/

/-- The next step of a thread: `SetArretThread (0)`, `Thread`, `SetArretThread (2)`
and the end of `FctThread`. -/
inductive Pc
  -- `SetArretThread (0)`
  | initVerrou | initPose | initLibere
  -- `Thread`: before, in and after the loop
  | entree | prepare
  | boucle | arme | charge | attend | lisible | expire | action | apres
  | sortie
  -- `SetArretThread (2)`
  | finVerrou | finPose | finEcrit | finLibere
  -- the test of `IsAutoDelete`
  | destruction | termine
  deriving DecidableEq, Repr

/-- Why a thread has left `Thread`. -/
inductive Cause
  | garde | drapeau | lisible | erreur | oneshot
  deriving DecidableEq, Repr

/-- The locals of a thread, with a record of its run: the flag of its `Start`, how
often it has entered the body of the loop and begun an action, whether the owner
has raised the stop flag or written to the pipe since it was created, and why it
has left the loop. -/
structure Fil where
  pc : Pc
  n : ℕ
  rfds : List ℕ
  uiFlag : ℕ
  entrees : ℕ
  rappels : ℕ
  demande : Bool
  cause : Option Cause
  deriving DecidableEq, Repr

/-- What a step of a thread depends on besides the state: how `select` returns. -/
inductive Choix
  | suite | lisible | expire | interrompu | erreur
  deriving DecidableEq, Repr

namespace Fil

def cree (uiFlag : ℕ) : Fil where
  pc := .initVerrou
  n := 0
  rfds := []
  uiFlag := uiFlag
  entrees := 0
  rappels := 0
  demande := false
  cause := none

def quitte (f : Fil) (cause : Cause) : Fil := { f with pc := .sortie, cause := some cause }

/-- The descriptors left in `rfds` by a `select` that returns: those below `n` that
are readable, and those it was not asked about. -/
def reste (o : CThread) (f : Fil) : List ℕ :=
  f.rfds.filter fun p => !decide (p < f.n) || o.lisibles.contains p

/-- One step of thread `k`. -/
def step (o : CThread) (k : ℕ) (f : Fil) : Choix → Option (CThread × Fil)
  | .suite =>
    match f.pc with
    | .initVerrou =>
      if o.mutex = none then
        some ({ o with mutex := some (.fil k) }, { f with pc := .initPose })
      else none
    | .initPose => some ({ o with arretThread := 0 }, { f with pc := .initLibere })
    | .initLibere => some ({ o with mutex := none }, { f with pc := .entree })
    | .entree =>
      if o.classe = .cTimer then
        if o.timer.ui64TpsUsec = 0 then
          some (o, { f with pc := .finVerrou, cause := some .garde })
        else some ({ o with timer := { o.timer with bStarted := true } }, { f with pc := .prepare })
      else some (o, { f with pc := .prepare })
    | .prepare =>
      match o.iIdPipe with
      | none => some (o, f.quitte .garde)
      | some p => some (o, { f with pc := .boucle, n := p + 1, rfds := [] })
    -- `while(!cGetArretThread())`
    | .boucle =>
      if o.mutex = none then
        if o.arretThread = 0 then some (o, { f with pc := .arme, entrees := f.entrees + 1 })
        else some (o, f.quitte .drapeau)
      else none
    -- `FD_SET(iIdPipe[0], &rfds)`
    | .arme => some (o, { f with pc := .charge, rfds := o.iIdPipe.toList ++ f.rfds })
    -- `Tv`, which `CTimer` loads under the mutex
    | .charge =>
      if o.classe = .cTimer ∧ o.mutex ≠ none then none else some (o, { f with pc := .attend })
    | .attend => none
    | .lisible =>
      if o.classe = .cMainTask ∨ ∃ p ∈ o.iIdPipe, p ∈ f.rfds then some (o, f.quitte .lisible)
      else some (o, { f with pc := .boucle })
    -- `if (!cGetArretThread())`
    | .expire =>
      if o.mutex = none then
        if o.arretThread = 0 then some (o, { f with pc := .action })
        else some (o, { f with pc := .boucle })
      else none
    | .action => some (o, { f with pc := .apres, rappels := f.rappels + 1 })
    | .apres =>
      if o.classe = .cTimer ∧ o.timer.estOneshot = true then some (o, f.quitte .oneshot)
      else some (o, { f with pc := .boucle })
    | .sortie =>
      if o.classe = .cTimer then
        some ({ o with timer := { o.timer with bStarted := false } }, { f with pc := .finVerrou })
      else some (o, { f with pc := .finVerrou })
    | .finVerrou =>
      if o.mutex = none then
        some ({ o with mutex := some (.fil k) }, { f with pc := .finPose })
      else none
    | .finPose => some ({ o with arretThread := 2 }, { f with pc := .finEcrit })
    | .finEcrit => some (o.ecrit, { f with pc := .finLibere })
    | .finLibere => some ({ o with mutex := none }, { f with pc := .destruction })
    -- a thread that joins itself gets an error at once
    | .destruction =>
      if o.cAutoDelete then
        some ({ o with detruit := true, iIdPipe := none }, { f with pc := .termine })
      else some (o, { f with pc := .termine })
    | .termine => none
  -- `select` returns
  | .lisible =>
    if f.pc = .attend ∧ o.pret f.n f.rfds = true then
      some (o, { f with pc := .lisible, rfds := f.reste o })
    else none
  | .expire =>
    if f.pc = .attend ∧ o.pret f.n f.rfds = false then
      some (o, { f with pc := .expire, rfds := f.reste o })
    else none
  | .interrompu => if f.pc = .attend then some (o, { f with pc := .boucle }) else none
  | .erreur => if f.pc = .attend then some (o, f.quitte .erreur) else none

end Fil

/-! ### The owner and its calls -/

/-- The next step of the owner. -/
inductive Appel
  | libre
  -- `Create`
  | pipe (uiFlag : ℕ) | pthreadCreate (uiFlag : ℕ)
  -- `Stop`, after the test of `m_bStarted`
  | stopDrapeau | stopEcrit | stopTeste | stopJoint | stopDetache
  -- `SetArretThread (1)`, the mutex taken
  | demPose | demEcrit | demLibere
  deriving DecidableEq, Repr

/-- An object, its threads in the order of their creation and its owner.
`avant` tells whether the `Stop` in progress, or the last one, was issued after a
thread was created and before an action began; `silence` that such a `Stop` has
returned. -/
structure Systeme where
  objet : CThread
  fils : List Fil
  appel : Appel
  avant : Bool
  silence : Bool
  deriving DecidableEq, Repr

inductive EvtThread
  | start (ui64Usec uiFlag : ℕ)
  | create
  | stop
  | demande
  | pipe (fd : Option ℕ)
  | pthreadCreate (reussi : Bool)
  | suite
  | fil (k : ℕ) (c : Choix)
  deriving DecidableEq, Repr

/-- A step of the first thread, other than a return of `select`. -/
def EvtThread.pas : EvtThread := .fil 0 .suite

namespace Systeme

/-- The object that its owner has just constructed. -/
def neuf (classe : Classe) (arretThread : ℕ) (cAutoDelete cIsdetachstate : Bool) : Systeme where
  objet := .construit classe arretThread cAutoDelete cIsdetachstate
  fils := []
  appel := .libre
  avant := false
  silence := false

def avantAction (s : Systeme) : Bool := !s.fils.isEmpty && s.fils.all (·.rappels == 0)

def rendStop (s : Systeme) : Systeme :=
  { s with appel := .libre, silence := s.silence || s.avant }

/-- A request of the owner reaches the object. -/
def marque (s : Systeme) : List Fil := s.fils.map fun f => { f with demande := true }

/-- `pthread_join(thread_id,NULL)` returns. -/
def joint (s : Systeme) : Bool :=
  match s.fils.getLast? with
  | some f => f.pc == .termine
  | none => true

/-- The next step of the call in progress. -/
def suite (s : Systeme) : Option Systeme :=
  match s.appel with
  | .libre | .pipe _ | .pthreadCreate _ => none
  -- `cGetArretThread()==2`
  | .stopDrapeau =>
    if s.objet.mutex = none then
      if s.objet.arretThread = 2 then some s.rendStop else some { s with appel := .stopEcrit }
    else none
  | .stopEcrit =>
    if s.objet.iIdPipe = none then some s.rendStop
    else some { s with objet := s.objet.ecrit, fils := s.marque, appel := .stopTeste }
  | .stopTeste =>
    if s.objet.cAutoDelete = false ∧ s.objet.cIsdetachstate = false then
      some { s with appel := .stopJoint }
    else some { s with appel := .stopDetache }
  | .stopJoint => if s.joint then some { s with appel := .stopDetache } else none
  | .stopDetache =>
    some { s with objet := { s.objet with
      timer := { s.objet.timer with hObjetAttache := none } } }.rendStop
  | .demPose =>
    some { s with
      objet := { s.objet with arretThread := 1 }
      fils := s.marque
      appel := .demEcrit }
  | .demEcrit => some { s with objet := s.objet.ecrit, appel := .demLibere }
  | .demLibere => some { s with objet := { s.objet with mutex := none }, appel := .libre }

def step (s : Systeme) : EvtThread → Option Systeme
  | .start ui64Usec uiFlag =>
    if s.appel = .libre ∧ s.objet.classe = .cTimer then
      match s.objet.timer.start ui64Usec (some ()) uiFlag with
      | some timer => some { s with
        objet := { s.objet with timer := timer }
        appel := .pipe uiFlag }
      | none => some s
    else none
  | .create =>
    if s.appel = .libre ∧ s.objet.classe ≠ .cTimer then some { s with appel := .pipe 0 } else none
  | .stop =>
    if s.appel = .libre ∧ s.objet.classe = .cTimer then
      if s.objet.timer.bStarted then some { s with appel := .stopDrapeau, avant := s.avantAction }
      else some { s with avant := s.avantAction }.rendStop
    else none
  | .demande =>
    if s.appel = .libre ∧ s.objet.mutex = none then
      some { s with
        objet := { s.objet with mutex := some .proprietaire }
        appel := .demPose }
    else none
  | .pipe fd =>
    match s.appel with
    | .pipe uiFlag =>
      match fd with
      | some p =>
        if p ∈ s.objet.ouverts then none
        else some { s with
          objet := { s.objet with iIdPipe := some p, ouverts := p :: s.objet.ouverts }
          appel := .pthreadCreate uiFlag }
      | none => some { s with objet := { s.objet with iIdPipe := none }, appel := .libre }
    | _ => none
  | .pthreadCreate reussi =>
    match s.appel with
    | .pthreadCreate uiFlag =>
      some { s with
        fils := if reussi then s.fils ++ [.cree uiFlag] else s.fils
        appel := .libre }
    | _ => none
  | .suite => s.suite
  | .fil k c =>
    match s.fils[k]? with
    | some f => (f.step s.objet k c).map fun r => { s with objet := r.1, fils := s.fils.set k r.2 }
    | none => none

end Systeme

end GestAqua
