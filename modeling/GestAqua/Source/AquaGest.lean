import GestAqua.Source.Thread

/-!
`AquaGest.cpp`: `main`, which creates the main task with `Create (1)` and destroys it.

The object and its thread are those of `Thread.lean`; `main` is their owner. After a
failure of `pthread_create` the join is on a `thread_id` that nothing has set, and it
returns at once here.
-/

namespace GestAqua

/-- The next step of `main`: in `Create`, before the join, and at the end of the scope of
`m_MainTask`. -/
inductive EtapeMain
  | create | pipe | pthreadCreate | joint | retour | fini
  deriving DecidableEq, Repr

/-- The object, its thread, the argument of `Create` and `main`. -/
structure Programme where
  systeme : Systeme
  cWaitEnd : Bool
  etape : EtapeMain
  deriving DecidableEq, Repr

namespace Programme

def depart (classe : Classe) (arretThread : ℕ) (cAutoDelete cIsdetachstate cWaitEnd : Bool) :
    Programme where
  systeme := .neuf classe arretThread cAutoDelete cIsdetachstate
  cWaitEnd := cWaitEnd
  etape := .create

/-- `CMainTask m_MainTask` and `Create (1)`. -/
def aquaGest (arretThread : ℕ) : Programme := depart .cMainTask arretThread false false true

/-- `if (!IsAutoDelete () && !cIsdetachstate && cWaitEnd)`. -/
def attendFin (m : Programme) : Bool :=
  !m.systeme.objet.cAutoDelete && !m.systeme.objet.cIsdetachstate && m.cWaitEnd

/-- `main` makes no other call on the object. -/
def step (m : Programme) : EvtThread → Option Programme
  | .create =>
    if m.etape = .create then
      (m.systeme.step .create).map fun s => { m with systeme := s, etape := .pipe }
    else none
  | .pipe fd =>
    if m.etape = .pipe then
      (m.systeme.step (.pipe fd)).map fun s =>
        { m with systeme := s, etape := if fd.isSome then .pthreadCreate else .retour }
    else none
  | .pthreadCreate reussi =>
    if m.etape = .pthreadCreate then
      (m.systeme.step (.pthreadCreate reussi)).map fun s =>
        { m with systeme := s, etape := .joint }
    else none
  | .suite =>
    match m.etape with
    | .joint =>
      if m.attendFin = true ∧ m.systeme.joint = false then none
      else some { m with etape := .retour }
    -- the destructor of `CThread` closes the pipe
    | .retour =>
      some { m with
        systeme := { m.systeme with
          objet := { m.systeme.objet with detruit := true, iIdPipe := none } }
        etape := .fini }
    | _ => none
  | .fil k c => (m.systeme.step (.fil k c)).map fun s => { m with systeme := s }
  | .start .. | .stop | .demande => none

end Programme

end GestAqua
