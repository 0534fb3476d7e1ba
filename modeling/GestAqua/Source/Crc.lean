import Mathlib.Data.Nat.Notation
import Mathlib.Logic.Function.Iterate

/-!
`crc.h`, `crc.cpp`: the checksums of a message.

The macros that select a standard are a record. `crc` has `w` bits, and `unsigned long` has
32, as on the board. A message is the list of its `nBytes` bytes.
-/

namespace GestAqua

/-- The macros of a standard. -/
structure NormeCrc (w : ℕ) where
  polynomial : BitVec w
  initialRemainder : BitVec w
  finalXorValue : BitVec w
  reflectData : Bool
  reflectRemainder : Bool

def crcCcitt : NormeCrc 16 where
  polynomial := 0x1021
  initialRemainder := 0xFFFF
  finalXorValue := 0x0000
  reflectData := false
  reflectRemainder := false

/-- `CRC16`, the standard that `crc.h` selects. -/
def crc16 : NormeCrc 16 where
  polynomial := 0x8005
  initialRemainder := 0x0000
  finalXorValue := 0x0000
  reflectData := true
  reflectRemainder := true

def crc32 : NormeCrc 32 where
  polynomial := 0x04C11DB7
  initialRemainder := 0xFFFFFFFF
  finalXorValue := 0xFFFFFFFF
  reflectData := true
  reflectRemainder := true

/-- The body of the loop of `reflect`; the pair is `data` and `reflection`. -/
def reflectBit (nBits : ℕ) (s : BitVec 32 × BitVec 32) (bit : ℕ) : BitVec 32 × BitVec 32 :=
  (s.1 >>> 1, if s.1.getLsbD 0 then s.2 ||| 1#32 <<< (nBits - 1 - bit) else s.2)

def reflect (data : BitVec 32) (nBits : ℕ) : BitVec 32 :=
  ((List.range nBits).foldl (reflectBit nBits) (data, 0#32)).2

namespace NormeCrc

variable {w : ℕ}

/-- `REFLECT_DATA`. -/
def reflechit (n : NormeCrc w) (x : UInt8) : BitVec 8 :=
  if n.reflectData then (reflect (x.toBitVec.setWidth 32) 8).setWidth 8 else x.toBitVec

/-- `REFLECT_REMAINDER`. -/
def reflechitReste (n : NormeCrc w) (x : BitVec w) : BitVec w :=
  if n.reflectRemainder then (reflect (x.setWidth 32) w).setWidth w else x

/-- The body of the loop over the bits; `TOPBIT` is `1 << (WIDTH - 1)`. -/
def divise (n : NormeCrc w) (remainder : BitVec w) : BitVec w :=
  if remainder &&& 1#w <<< (w - 1) ≠ 0#w then (remainder <<< 1) ^^^ n.polynomial
  else remainder <<< 1

def crcSlow (n : NormeCrc w) (message : List UInt8) : BitVec w :=
  n.reflechitReste (message.foldl (fun remainder x =>
    n.divise^[8] (remainder ^^^ (n.reflechit x).setWidth w <<< (w - 8))) n.initialRemainder) ^^^
    n.finalXorValue

/-- `crcInit`: the content of `crcTable`. -/
def crcInit (n : NormeCrc w) : List (BitVec w) :=
  (List.range 256).map fun dividend => n.divise^[8] (BitVec.ofNat w dividend <<< (w - 8))

/-- `crcFast`; before `crcInit` the entries of `crcTable` are zero. -/
def crcFast (n : NormeCrc w) (crcTable : List (BitVec w)) (message : List UInt8) : BitVec w :=
  n.reflechitReste (message.foldl (fun remainder x =>
    let data := n.reflechit x ^^^ (remainder >>> (w - 8)).setWidth 8
    crcTable.getD data.toNat 0#w ^^^ remainder <<< 8) n.initialRemainder) ^^^ n.finalXorValue

/-- The `CHECK_VALUE` of each standard: the checksum of the digits from one to nine. -/
example : let chiffres : List UInt8 := [0x31, 0x32, 0x33, 0x34, 0x35, 0x36, 0x37, 0x38, 0x39]
    crcCcitt.crcSlow chiffres = 0x29B1 ∧ crc16.crcSlow chiffres = 0xBB3D ∧
      crc32.crcSlow chiffres = 0xCBF43926 := by decide +kernel

end NormeCrc

end GestAqua
