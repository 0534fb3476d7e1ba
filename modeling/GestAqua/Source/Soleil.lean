import GestAqua.Source.Parametres
import GestAqua.Source.PwmGpio

/-!
`Soleil.h`, `Soleil.cpp`: the sun of a profile, which drives one modulation
along a curve.

`iGererCourbe` is given the offset of the day that `tGetOffsetFromMidnight`
returns when it is called. It returns, beside the object, the ratio that it hands
to `SetRapportCyclique`, if it does.
-/

namespace GestAqua

namespace SegmentSolaire

def tFin (g : SegmentSolaire) : ℤ := g.stParamTemps.tDebut + g.stParamTemps.tPeriod

/-- The test of the lookup loop. -/
def contient (tOffsetMidnight : ℤ) (g : SegmentSolaire) : Bool :=
  decide (g.stParamTemps.tDebut ≤ tOffsetMidnight ∧ tOffsetMidnight < g.tFin)

/-- The value of the curve at an abscissa; only affine curves have one. -/
def valeur (dX : ℚ) (g : SegmentSolaire) : Option ℚ :=
  match g.stSegment with
  | .affine dA dB => some (dA * dX + dB)
  | _ => none

theorem contient_iff {t : ℤ} {g : SegmentSolaire} :
    g.contient t = true ↔ g.stParamTemps.tDebut ≤ t ∧ t < g.tFin := decide_eq_true_iff

end SegmentSolaire

structure CSoleil where
  stParam : ParamSoleil
  gestionCourbeSolaire : CPwmGpio
  sIndexlSegment : ℤ
  usIntervalleX : ℕ
  dX : ℚ

namespace CSoleil

/-- `CSoleil::CSoleil`, on a parameter block. `dX` is not initialised. -/
def construit (pParam : ParamSoleil) (dX : ℚ) : CSoleil where
  stParam := pParam
  gestionCourbeSolaire := .construit 16 1000 1
  sIndexlSegment := -1
  usIntervalleX := 1
  dX := dX

/-- `stParam.stCourbeSolaire.lSegment [sIndexlSegment]`. -/
def segment (s : CSoleil) : Option SegmentSolaire :=
  if 0 ≤ s.sIndexlSegment then s.stParam.stCourbeSolaire.lSegment[s.sIndexlSegment.toNat]? else none

/-- The lookup of `iGererCourbe`, when no segment is selected. -/
def selectionne (tOffsetMidnight : ℤ) (s : CSoleil) : CSoleil :=
  if s.sIndexlSegment = -1 then
    match s.stParam.stCourbeSolaire.lSegment.zipIdx.find? fun g => g.1.contient tOffsetMidnight with
    | some (g, iCpt) =>
      { s with sIndexlSegment := iCpt, usIntervalleX := g.usIntervalleX, dX := 0 }
    | none => s
  else { s with dX := s.dX + 1 }

/-- `dX=((double)(tOffsetMidnight-stParam.stEphemeride.tDebut))/(double)3600`. -/
def abscisse (tOffsetMidnight : ℤ) (s : CSoleil) : ℚ :=
  ((tOffsetMidnight - s.stParam.stEphemeride.tDebut : ℤ) : ℚ) / 3600

/-- `GestionCourbeSolaire.SetRapportCyclique (y)`, for an affine segment. -/
def regle (y : Option ℚ) (s : CSoleil) : CSoleil :=
  { s with gestionCourbeSolaire := match y with
      | some y => s.gestionCourbeSolaire.setRapportCyclique y
      | none => s.gestionCourbeSolaire }

/-- The test at the end of `iGererCourbe`: the segment is dropped when the next
call, one interval later, will be past it. -/
def relache (tOffsetMidnight : ℤ) (g : SegmentSolaire) (s : CSoleil) : CSoleil :=
  if tOffsetMidnight + g.usIntervalleX ≥ g.tFin then { s with sIndexlSegment := -1 } else s

/-- `CSoleil::iGererCourbe`, at an offset of the day. -/
def iGererCourbe (tOffsetMidnight : ℤ) (s : CSoleil) : CSoleil × Option ℚ :=
  let s := s.selectionne tOffsetMidnight
  let s := { s with dX := s.abscisse tOffsetMidnight }
  match s.segment with
  | some g => ((s.regle (g.valeur s.dX)).relache tOffsetMidnight g, g.valeur s.dX)
  | none => (s, none)

end CSoleil

end GestAqua
