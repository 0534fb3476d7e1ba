import GestAqua.Source.Timer
import Mathlib.Data.Rat.Floor

/-!
`PwmGpio.h`, `PwmGpio.cpp` and the register macros of `gpio-mmap.h`: the
pulse-width modulation of one pin.

The ratio is an exact rational, and the conversion of a product to `uint64_t` is
the floor. Writes to the memory-mapped registers are values, so that the level
of the pin can be read off the writes a run makes.
-/

namespace GestAqua

/-- One assignment `gpio_mmap[registre] = mot`. -/
structure Ecriture where
  registre : ℕ
  mot : ℕ
  deriving DecidableEq, Repr

def gBank (x : UInt8) : ℕ := x.toNat >>> 5

def gPin (x : UInt8) : ℕ := x.toNat &&& 0x1f

/-- `GPIO_WRITE`: the set register for a non-zero value, the clear register for
zero. -/
def gpioWrite (bank pin : ℕ) (value : UInt8) : Ecriture where
  registre := 0x140 + (bank <<< 2) + (if value ≠ 0 then 1 else 2)
  mot := 1 <<< pin

def gpioOutput (bank pin : ℕ) : Ecriture where
  registre := 0x1C1 + bank * 4
  mot := 1 <<< pin

def gpioInput (bank pin : ℕ) : Ecriture where
  registre := 0x1C2 + bank * 4
  mot := 1 <<< pin

def kHz : ℕ := 1000

/-- The members of `CPwmGpio`; the object attached to its timer is itself. -/
structure CPwmGpio where
  mTimerPwm : CTimer Unit
  ucEtat : UInt8
  ucGpio : UInt8
  uiFrequence : ℕ
  dRapportCyclique : ℚ
  ui64UsecEtatHaut : ℕ
  ui64UsecEtatBas : ℕ
  ui64UsecPeriod : ℕ

namespace CPwmGpio

/-- `GPIO_WRITE(G_BANK(ucGpio),G_PIN(ucGpio),ucEtat)`. -/
def ecrit (p : CPwmGpio) : Ecriture := gpioWrite (gBank p.ucGpio) (gPin p.ucGpio) p.ucEtat

/-- The percentage that `SetRapportCyclique` keeps. -/
def rapportRetenu (dRapport : ℚ) : ℚ := if 0 < dRapport ∧ dRapport < 100 then dRapport else 50

/-- The frequency that `iInit` keeps. -/
def frequenceRetenue (uiFreq : ℕ) : ℕ := if 0 < uiFreq ∧ uiFreq ≤ 10 * kHz then uiFreq else 1 * kHz

def setRapportCyclique (p : CPwmGpio) (dRapport : ℚ) : CPwmGpio :=
  let dRapportCyclique := rapportRetenu dRapport
  let ui64UsecEtatHaut := ⌊p.ui64UsecPeriod * dRapportCyclique / 100⌋₊
  { p with
    dRapportCyclique := dRapportCyclique
    ui64UsecEtatHaut := ui64UsecEtatHaut
    ui64UsecEtatBas := p.ui64UsecPeriod - ui64UsecEtatHaut
    mTimerPwm := p.mTimerPwm.setDuree ui64UsecEtatHaut }

/-- `CPwmGpio::iInit`, with the writes it makes. -/
def iInit (p : CPwmGpio) (ucNumGpio : UInt8) (uiFreq : ℕ) (dRapport : ℚ) :
    CPwmGpio × List Ecriture :=
  let uiFrequence := frequenceRetenue uiFreq
  let p : CPwmGpio := { p with
    ucGpio := ucNumGpio
    uiFrequence := uiFrequence
    ui64UsecPeriod := microSec / uiFrequence }
  let p := { p.setRapportCyclique dRapport with ucEtat := 0 }
  (p, [gpioOutput (gBank p.ucGpio) (gPin p.ucGpio), p.ecrit])

/-- The members before the body of the constructor. -/
def vide : CPwmGpio where
  mTimerPwm := .init
  ucEtat := 0
  ucGpio := 0
  uiFrequence := 0
  dRapportCyclique := 0
  ui64UsecEtatHaut := 0
  ui64UsecEtatBas := 0
  ui64UsecPeriod := 0

/-- `CPwmGpio::CPwmGpio`. -/
def construit (ucNumGpio : UInt8) (uiFreq : ℕ) (dRapport : ℚ) : CPwmGpio :=
  (vide.iInit ucNumGpio uiFreq dRapport).1

/-- `CPwmGpio::iStart`: when `Start` takes effect the timer's thread is created
and begins. -/
def iStart (p : CPwmGpio) : CPwmGpio :=
  match p.mTimerPwm.start p.ui64UsecEtatHaut (some ()) timePeriodic with
  | some t => { p with mTimerPwm := { t with bStarted := true } }
  | none => p

/-- `CPwmGpio::GestionPwm`, with the write it makes. -/
def gestionPwm (p : CPwmGpio) : CPwmGpio × Ecriture :=
  let p := { p with ucEtat := if p.ucEtat ≠ 0 then 0 else 1 }
  (p, p.ecrit)

/-- `CallbackTimerPwmGpio`: the attached object is the modulation itself. -/
def callbackTimerPwmGpio (p : CPwmGpio) (arg : Option Unit) : CPwmGpio × List Ecriture :=
  match arg with
  | some () => (p.gestionPwm.1, [p.gestionPwm.2])
  | none => (p, [])

end CPwmGpio

end GestAqua
