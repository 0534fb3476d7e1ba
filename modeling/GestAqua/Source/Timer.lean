import GestAqua.Source.General

/-!
`Timer.h`: the data members of a `CTimer` and the part of `CTimer::Start` that
writes them.

`α` is the type of the objects attached to the callback. How the thread behind
the timer runs is the subject of the models built on this one: the periodic
passes of the pulse-width modulation, the ideal timers of the main task, and the
interleavings of the thread itself.
-/

namespace GestAqua

def timeOneshot : ℕ := 0x0000

def timePeriodic : ℕ := 0x0001

structure Timeval where
  tvSec : ℤ
  tvUsec : ℤ
  deriving DecidableEq, Repr

/-- The members of `CTimer`, with the `m_bStarted` it inherits from `CThread`. -/
structure CTimer (α : Type) where
  bStarted : Bool
  ui64TpsUsec : ℕ
  hObjetAttache : Option α
  uiFlagEvent : ℕ
  deriving DecidableEq, Repr

namespace CTimer

variable {α : Type}

/-- `CTimer::Init`, on an object whose thread has not begun. -/
def init : CTimer α where
  bStarted := false
  ui64TpsUsec := 0
  hObjetAttache := none
  uiFlagEvent := timeOneshot

def setDuree (t : CTimer α) (ui64Duree : ℕ) : CTimer α := { t with ui64TpsUsec := ui64Duree }

/-- `CTimer::Start` up to the call of `Create()`: `none` when the call returns
without effect, otherwise the members with which the thread is created. -/
def start (t : CTimer α) (ui64Usec : ℕ) (hObjetAttache : Option α) (uiFlag : ℕ) :
    Option (CTimer α) :=
  if t.bStarted ∨ ui64Usec = 0 then none
  else some { t with
    ui64TpsUsec := ui64Usec
    hObjetAttache := hObjetAttache
    uiFlagEvent := uiFlag }

/-- `(uiFlagEvent&0x1)==TIME_ONESHOT`, the test after the callback. -/
def estOneshot (t : CTimer α) : Bool := t.uiFlagEvent &&& 0x1 == timeOneshot

/-- The split of `ui64TpsUsec` in `CTimer::Thread`, for fields of `w` bits. -/
def tv (w : ℕ) (ui64TpsUsec : ℕ) : Timeval where
  tvSec := entier w (ui64TpsUsec / microSec : ℕ)
  tvUsec := entier w (ui64TpsUsec % microSec : ℕ)

theorem start_of_pos {t : CTimer α} {usec : ℕ} (hs : t.bStarted = false) (hu : usec ≠ 0)
    (h : Option α) (flag : ℕ) :
    t.start usec h flag =
      some { t with ui64TpsUsec := usec, hObjetAttache := h, uiFlagEvent := flag } := by
  simp [start, hs, hu]

end CTimer

end GestAqua
