import GestAqua.Source.Soleil

/-!
`Profil.h`, `Profil.cpp`: the parameters of a profile, from the constructor to the
sun that its thread creates.

The constructor does not initialise `stParam`, of which it takes the content as an
argument, and drops the result of `iInit`. The threads themselves, and what becomes
of the sun, are the subject of the model of `Profil.lean`.
-/

namespace GestAqua

/-- The members of a `CProfil` that concern its sun. `pMainTask` is `none` for
`NULL`, and otherwise gives the `stParamProfil` of the main task. -/
structure TacheProfil where
  pMainTask : Option (List ParamProfil)
  pSoleil : Option CSoleil
  stParam : ParamProfil
  ucNumeroProfil : UInt8

namespace TacheProfil

/-- The members before the constructor calls `iInit`. -/
def neuf (ucNumProfil : UInt8) (pMain : Option (List ParamProfil)) (stParam : ParamProfil) :
    TacheProfil where
  pMainTask := pMain
  pSoleil := none
  stParam := stParam
  ucNumeroProfil := ucNumProfil

/-- `CMainTask::GetParam`, the address of a member of the main task. -/
def getParam (pMainTask : List ParamProfil) : Option (List ParamProfil) := some pMainTask

def iInit (p : TacheProfil) : ℤ × TacheProfil :=
  match p.pMainTask with
  | none => (-1, p)
  | some pMainTask =>
    if p.ucNumeroProfil ≠ 0 then
      match getParam pMainTask with
      | some stParamProfil =>
        -- the loop goes on after a `memcpy`
        (0, { p with
          stParam := stParamProfil.foldl
            (fun stParam x => if x.ucNumeroProfil = p.ucNumeroProfil then x else stParam)
            p.stParam })
      | none => (-1, p)
    else (-1, p)

/-- `CProfil::CProfil`. -/
def construit (ucNumProfil : UInt8) (pMain : Option (List ParamProfil)) (stParam : ParamProfil) :
    TacheProfil :=
  (neuf ucNumProfil pMain stParam).iInit.2

/-- `CProfil::iStartProfil`; `dX` is the member that `CSoleil::CSoleil` does not
initialise. A sun is not auto-delete: an earlier one is deleted. -/
def iStartProfil (dX : ℚ) (p : TacheProfil) : ℤ × TacheProfil :=
  if p.stParam.stParamSoleil.ucValide ≠ 0 then
    match p.pSoleil with
    | some _ => (0, { p with pSoleil := none })
    | none => (0, { p with pSoleil := some (.construit p.stParam.stParamSoleil dX) })
  else (0, p)

/-- `CProfil::Thread`, up to its loop. -/
def entre (iIdPipe : Option ℕ) (dX : ℚ) (p : TacheProfil) : TacheProfil :=
  match iIdPipe with
  | some _ => (p.iStartProfil dX).2
  | none => p

end TacheProfil

end GestAqua
