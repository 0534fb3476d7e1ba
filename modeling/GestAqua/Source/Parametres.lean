import GestAqua.Source.General
import Mathlib.Data.List.Nodup
import Mathlib.Data.Rat.Defs

/-!
`BaseSqlite.h`, `BaseSqlite.cpp`: the records of the application's parameters,
and the tables that `CParametreApplication` loads.

The tables of the source are arrays of `MAX_PROFIL` and `MAX_PLANIF_PROFIL`
entries, a curve is an array of 32 segments with the number of those in use; the
model takes lists of any length. Coefficients are exact rationals.
-/

namespace GestAqua

structure PlanificationTache where
  eType : TypeTache
  tDebut : ℤ
  tPeriod : ℤ
  tRelance : ℤ
  deriving DecidableEq, Repr

/-- `COURBE`: the type and the member of the union that goes with it. A zeroed
record has neither of the two types. -/
inductive Courbe
  | inconnue
  | affine (dA dB : ℚ)
  | log (dA : ℚ)
  deriving DecidableEq, Repr

structure SegmentSolaire where
  stParamTemps : PlanificationTache
  usIntervalleX : ℕ
  stSegment : Courbe
  deriving DecidableEq, Repr

/-- `COURBE_SOLAIRE`: the `usNbSegment` segments in use. -/
structure CourbeSolaire where
  lSegment : List SegmentSolaire
  deriving DecidableEq, Repr

structure ParamSoleil where
  ucValide : UInt8
  ucAzimut : UInt8
  stEphemeride : PlanificationTache
  stCourbeSolaire : CourbeSolaire
  deriving DecidableEq, Repr

structure ParamProfil where
  strNom : String
  ucNumeroProfil : UInt8
  stParamSoleil : ParamSoleil
  deriving DecidableEq, Repr

structure DefPlanificationProfil where
  ucNumeroPlanif : UInt8
  ucNumeroProfil : UInt8
  stPlanif : PlanificationTache
  deriving DecidableEq, Repr

namespace DefPlanificationProfil

def tFin (e : DefPlanificationProfil) : ℤ := e.stPlanif.tDebut + e.stPlanif.tPeriod

/-- A planning entry with its window, as `sInitPlanification` fills it. -/
def planifie (ucNumeroPlanif ucNumeroProfil : UInt8) (tDebut tPeriod : ℤ) :
    DefPlanificationProfil where
  ucNumeroPlanif := ucNumeroPlanif
  ucNumeroProfil := ucNumeroProfil
  stPlanif := { eType := .profil, tDebut := tDebut, tPeriod := tPeriod, tRelance := 0 }

end DefPlanificationProfil

/-- `CParametreApplication::sInitPlanification`: the table that is loaded,
whatever the parameters held before. -/
def sInitPlanification : List DefPlanificationProfil :=
  [ .planifie 1 1 (8 * heure) (12 * heure + 0 * minute),
    .planifie 2 2 (20 * heure) (12 * heure) ]

def ParamSoleil.vide : ParamSoleil where
  ucValide := 0
  ucAzimut := 0
  stEphemeride := { eType := .inconnu, tDebut := 0, tPeriod := 0, tRelance := 0 }
  stCourbeSolaire := ⟨[]⟩

/-- Affine segments as `sInitProfil` chains them: each begins where the one
before it ends. A segment is given by its period, its interval and its two
coefficients. -/
def enchaine : ℤ → List (ℤ × ℕ × ℚ × ℚ) → List SegmentSolaire
  | _, [] => []
  | tDebut, (tPeriod, usIntervalleX, dA, dB) :: l =>
    { stParamTemps := { eType := .inconnu, tDebut := tDebut, tPeriod := tPeriod, tRelance := 0 }
      usIntervalleX := usIntervalleX
      stSegment := .affine dA dB } :: enchaine (tDebut + tPeriod) l

/-- `CParametreApplication::sInitProfil`: the table that is loaded, whatever the
parameters held before. -/
def sInitProfil : List ParamProfil :=
  [ { strNom := "Profil01"
      ucNumeroProfil := 1
      stParamSoleil :=
        { ucValide := 1
          ucAzimut := 100
          stEphemeride :=
            { eType := .soleil, tDebut := 8 * heure, tPeriod := 12 * heure, tRelance := 0 }
          stCourbeSolaire := ⟨enchaine (8 * heure)
            [ (1 * heure, 1, 75 / 2, 25 / 2),
              (2 * heure, 1, 15, 35),
              (2 * heure, 60, 15 / 2, 115 / 2),
              (1 * heure, 30, 5, 70),
              (1 * heure, 30, -5, 130),
              (2 * heure, 60, -15 / 2, 295 / 2),
              (2 * heure, 1, -15, 215),
              (1 * heure, 1, -75 / 2, 925 / 2) ]⟩ } },
    { strNom := "Profil02"
      ucNumeroProfil := 2
      stParamSoleil := .vide } ]

def paramSoleilProfil01 : ParamSoleil := (sInitProfil.map (·.stParamSoleil)).headD .vide

end GestAqua
