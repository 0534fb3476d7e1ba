import Mathlib.Algebra.Group.Int.Defs
import Mathlib.Algebra.Ring.Nat

/-!
`commun/General.h` and `commun/General.cpp`: the units of time, the local clock
and `tGetOffsetFromMidnight`.

`localtime` and `mktime` are modelled for a zone whose offset from UTC is a
function of the daylight-saving flag: `localtime` reads the flag in force at an
instant, `mktime` trusts the flag it is given. `tGetOffsetFromMidnight` is the
arithmetic of the source over these two, so that it can be followed on the days
on which the flag changes.
-/

namespace GestAqua

def microSec : ℕ := 1000000

def minute : ℤ := 60

def heure : ℤ := 60 * minute

def jour : ℤ := 24 * heure

@[simp] theorem microSec_eq : microSec = 1000000 := rfl

@[simp] theorem minute_eq : minute = 60 := rfl

@[simp] theorem heure_eq : heure = 3600 := rfl

@[simp] theorem jour_eq : jour = 86400 := rfl

inductive TypeTache
  | inconnu | profil | lecturePh | lectureTemp | soleil | lune | vent | pluie | co2
  deriving DecidableEq, Repr

/-- The conversion of an integer to `uint64_t`. -/
def uint64 (x : ℤ) : ℕ := (x % 2 ^ 64).toNat

theorem uint64_eq {x : ℤ} (h0 : 0 ≤ x) (h : x < 2 ^ 64) : uint64 x = x.toNat := by
  rw [uint64, Int.emod_eq_of_lt h0 h]

theorem uint64_lt (x : ℤ) : uint64 x < 2 ^ 64 := by
  have h0 := Int.emod_nonneg x (show (2 : ℤ) ^ 64 ≠ 0 by decide)
  have h1 := Int.emod_lt_of_pos x (show (0 : ℤ) < 2 ^ 64 by decide)
  rw [uint64]
  omega

/-- The `w`-bit two's-complement value of an integer: what `int` and `time_t`
keep of the result of an operation. -/
def entier (w : ℕ) (x : ℤ) : ℤ := x.bmod (2 ^ w)

theorem entier_eq {w : ℕ} {x : ℤ} (lo : -2 ^ w ≤ x * 2) (hi : x * 2 < 2 ^ w) : entier w x = x :=
  Int.bmod_eq_of_le_mul_two (by push_cast; exact lo) (by push_cast; exact hi)

/-- On integers of 64 bits the conversion sees the exact result. -/
theorem uint64_entier (x : ℤ) : uint64 (entier 64 x) = uint64 x := by
  unfold uint64 entier
  rw [show (2 : ℤ) ^ 64 = ((2 ^ 64 : ℕ) : ℤ) from rfl, Int.bmod_emod]

/-- The fields of `struct tm` that are read: the civil day, counted in days, the
time of day and the daylight-saving flag. -/
structure Tm where
  jourCivil : ℤ
  tmHour : ℤ
  tmMin : ℤ
  tmSec : ℤ
  tmIsdst : Bool
  deriving DecidableEq, Repr

/-- A time zone: the offset from UTC under each value of the daylight-saving
flag, and the instants at which the flag is set. -/
structure Zone where
  decalage : Bool → ℤ
  isdst : ℤ → Bool

def Zone.fixe (z : ℤ) : Zone where
  decalage _ := z
  isdst _ := false

/-- Seconds of local civil time at the instant `t`. -/
def Zone.heureLocale (zone : Zone) (t : ℤ) : ℤ := t + zone.decalage (zone.isdst t)

def Zone.localtime (zone : Zone) (t : ℤ) : Tm where
  jourCivil := zone.heureLocale t / 86400
  tmHour := zone.heureLocale t % 86400 / 3600
  tmMin := zone.heureLocale t % 3600 / 60
  tmSec := zone.heureLocale t % 60
  tmIsdst := zone.isdst t

def Zone.mktime (zone : Zone) (tm : Tm) : ℤ :=
  86400 * tm.jourCivil + 3600 * tm.tmHour + 60 * tm.tmMin + tm.tmSec - zone.decalage tm.tmIsdst

/-- `tGetOffsetFromMidnight`, called at the instant `tCourant`. -/
def tGetOffsetFromMidnight (zone : Zone) (tCourant : ℤ) : ℤ :=
  let stTmCourant := zone.localtime tCourant
  let stTmMidnight := { stTmCourant with tmHour := 0, tmMin := 0, tmSec := 0 }
  zone.mktime stTmCourant - zone.mktime stTmMidnight

/-- The source's subtraction is the local time of day: both calls of `mktime`
receive the flag that `localtime` read, so its offset cancels. -/
theorem tGetOffsetFromMidnight_eq (zone : Zone) (t : ℤ) :
    tGetOffsetFromMidnight zone t = zone.heureLocale t % 86400 := by
  simp only [tGetOffsetFromMidnight, Zone.mktime, Zone.localtime]
  omega

@[simp] theorem heureLocale_fixe (z t : ℤ) : (Zone.fixe z).heureLocale t = t + z := rfl

theorem tGetOffsetFromMidnight_nonneg (zone : Zone) (t : ℤ) :
    0 ≤ tGetOffsetFromMidnight zone t := by
  rw [tGetOffsetFromMidnight_eq]
  omega

theorem tGetOffsetFromMidnight_lt (zone : Zone) (t : ℤ) :
    tGetOffsetFromMidnight zone t < 86400 := by
  rw [tGetOffsetFromMidnight_eq]
  omega

end GestAqua
