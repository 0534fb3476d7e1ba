import GestAqua.Base.Bytes

/-!
`CParametreApplication` of `BaseSqlite.h` and `BaseSqlite.cpp`: loading the
parameters and flagging their changes.

`pstInit` compares the tables as bytes, padding included, so that the tables are
bytes here: `n` is `sizeof (PARAM_PROFIL)*MAX_PROFIL` and `p` is
`sizeof (DEF_PLANIFICATION_PROFIL)*MAX_PLANIF_PROFIL`. What the two initialisations
load is an argument, the bytes that each stores in its table.
-/

namespace GestAqua

open Bytes

/-- `PARAM_CHANGE`: the bit-fields of the flag word. -/
structure ParamChange where
  bParamProfil : BitVec 1
  bParamPlanifProfil : BitVec 1
  bVide : BitVec 62
  deriving DecidableEq, Repr

structure ParametreAppli (n p : ℕ) where
  stParamProfil : Vector UInt8 n
  stPlanifProfil : Vector UInt8 p
  stParamChange : ParamChange
  deriving DecidableEq, Repr

/-- The bytes that `sInitProfil` and `sInitPlanification` store. -/
structure Contenu (n p : ℕ) where
  profil : List (Fin n × UInt8)
  planif : List (Fin p × UInt8)

/-- `b|=x` for a bit-field of one bit: the disjunction is made in `int` and the
field keeps its lowest bit. -/
def ouEgal (b : BitVec 1) (x : BitVec 32) : BitVec 1 := (b.setWidth 32 ||| x).setWidth 1

namespace CParametreApplication

variable {n p : ℕ}

def sInitProfil (c : Contenu n p) (s : ParametreAppli n p) : BitVec 16 × ParametreAppli n p :=
  (0, { s with stParamProfil := store c.profil s.stParamProfil })

def sInitPlanification (c : Contenu n p) (s : ParametreAppli n p) :
    BitVec 16 × ParametreAppli n p :=
  (0, { s with stPlanifProfil := store c.planif s.stPlanifProfil })

/-- `CParametreApplication::pstInit`; the pointer it returns is `none` or the
parameters it points to. -/
def pstInit (memcmp : Memcmp) (c : Contenu n p) (stParamAppli : ParametreAppli n p) :
    Option (ParametreAppli n p) × ParametreAppli n p :=
  let stOldParam := stParamAppli
  let (sErr, stParamAppli) := sInitProfil c stParamAppli
  let iErr := sErr.signExtend 32
  let stParamAppli := { stParamAppli with
    stParamChange.bParamProfil := ouEgal stParamAppli.stParamChange.bParamProfil
      (memcmp.memcmp stOldParam.stParamProfil stParamAppli.stParamProfil) }
  let (sErr, stParamAppli) := sInitPlanification c stParamAppli
  let iErr := iErr ||| sErr.signExtend 32
  let stParamAppli := { stParamAppli with
    stParamChange.bParamPlanifProfil := ouEgal stParamAppli.stParamChange.bParamPlanifProfil
      (memcmp.memcmp stOldParam.stPlanifProfil stParamAppli.stPlanifProfil) }
  (if iErr ≠ 0 then none else some stParamAppli, stParamAppli)

/-- The parameters that the constructor has zeroed, before it calls `pstInit`. -/
def zero : ParametreAppli n p where
  stParamProfil := .replicate n 0
  stPlanifProfil := .replicate p 0
  stParamChange := ⟨0, 0, 0⟩

end CParametreApplication

end GestAqua
