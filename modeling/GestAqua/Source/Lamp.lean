import GestAqua.Source.Profil
import GestAqua.Source.PwmGpio

/-!
`PwmGpio.cpp` with `Timer.cpp`: a modulation, the threads of its timer and its
owner.

`m_TimerPwm` is an object of `Thread.lean`, joinable and not auto-delete, and its
members are those of that object: a call on the modulation reads and writes them
there. A thread that is at its callback runs `CallbackTimerPwmGpio` on the object
attached at that moment. `iInit` and `SetRapportCyclique` are taken whole, `iStart`
and `iStop` are the calls of `Thread.lean` with their steps.
-/

namespace GestAqua

/-- A modulation with its timer and the writes made so far. `bascules` counts the
writes of `GestionPwm` since the last `iInit`, and `eteinte` records that an `iStop`
has returned after it joined the thread, with no `iStart` since. -/
structure Lampe where
  pwm : CPwmGpio
  minuterie : Systeme
  journal : List Ecriture
  bascules : ℕ
  eteinte : Bool

/-- The calls of the owner, the further steps of `iStart` and `iStop`, and the steps
of the threads. -/
inductive EvtLampe
  | iInit (ucNumGpio : UInt8) (uiFreq : ℕ) (dRapport : ℚ)
  | setRapportCyclique (dRapport : ℚ)
  | iStart
  | iStop
  | appel (e : EvtThread)
  | fil (k : ℕ) (c : Choix)
  deriving DecidableEq, Repr

/-- The level that a write gives to a pin, if it is a write to it. -/
def Ecriture.niveau (bank pin : ℕ) (w : Ecriture) : Option UInt8 :=
  if w = gpioWrite bank pin 1 then some 1
  else if w = gpioWrite bank pin 0 then some 0
  else none

namespace Lampe

def modulation (l : Lampe) : CPwmGpio := { l.pwm with mTimerPwm := l.minuterie.objet.timer }

def pose (l : Lampe) (p : CPwmGpio) (ecritures : List Ecriture) : Lampe :=
  { l with
    pwm := p
    minuterie := { l.minuterie with objet := { l.minuterie.objet with timer := p.mTimerPwm } }
    journal := l.journal ++ ecritures }

/-- The last level written to the pin of the modulation. -/
def niveau (l : Lampe) : Option UInt8 :=
  l.journal.reverse.findSome? (Ecriture.niveau (gBank l.pwm.ucGpio) (gPin l.pwm.ucGpio))

/-- `m_hCallBack(m_hObjetAttache)`. -/
def rappelle (l : Lampe) : Lampe :=
  let retour := l.modulation.callbackTimerPwmGpio l.minuterie.objet.timer.hObjetAttache
  { l.pose retour.1 retour.2 with bascules := l.bascules + retour.2.length }

def construit (ucNumGpio : UInt8) (uiFreq : ℕ) (dRapport : ℚ) (arretThread : ℕ) : Lampe :=
  let retour := CPwmGpio.vide.iInit ucNumGpio uiFreq dRapport
  Lampe.pose
    { pwm := .vide
      minuterie := .neuf .cTimer arretThread false false
      journal := []
      bascules := 0
      eteinte := false } retour.1 retour.2

def step (l : Lampe) : EvtLampe → Option Lampe
  | .iInit ucNumGpio uiFreq dRapport =>
    if l.minuterie.appel = .libre then
      let retour := l.modulation.iInit ucNumGpio uiFreq dRapport
      some { l.pose retour.1 retour.2 with bascules := 0 }
    else none
  | .setRapportCyclique dRapport =>
    if l.minuterie.appel = .libre then some (l.pose (l.modulation.setRapportCyclique dRapport) [])
    else none
  -- `m_TimerPwm.Start (ui64_usecEtatHaut,this,TIME_PERIODIC)`
  | .iStart =>
    (l.minuterie.step (.start l.pwm.ui64UsecEtatHaut timePeriodic)).map fun s =>
      { l with minuterie := s, eteinte := false }
  -- `m_TimerPwm.Stop ()`
  | .iStop => (l.minuterie.step .stop).map fun s => { l with minuterie := s }
  | .appel e =>
    if e.poursuit then
      (l.minuterie.step e).map fun s =>
        { l with
          minuterie := s
          eteinte := l.eteinte || decide (l.minuterie.appel = .stopDetache) }
    else none
  | .fil k c =>
    (l.minuterie.step (.fil k c)).map fun s =>
      if l.minuterie.fils[k]?.map (·.pc) = some .action then { l with minuterie := s }.rappelle
      else { l with minuterie := s }

end Lampe

end GestAqua
