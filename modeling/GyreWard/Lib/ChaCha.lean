/-
Module: GyreWard.Lib.ChaCha
Purpose: The ChaCha block function, over a state of sixteen words named by their place.
Trusted boundary: human-reviewed spec
Main exports: ChaCha.Words, ChaCha.quarterRound, ChaCha.doubleRound, ChaCha.block
-/
import Mathlib.Data.Fin.Basic
import Mathlib.Logic.Function.Basic
import Mathlib.Logic.Function.Iterate

namespace Lib.ChaCha

/-- The sixteen words of a state. -/
abbrev Words := Fin 16 → UInt32

/-- A word turned left by `n` bits. -/
def rotate (n : Nat) (w : UInt32) : UInt32 := UInt32.ofBitVec (w.toBitVec.rotateLeft n)

/-- `x[a] += x[b]; x[d] ^= x[a]; x[d] <<<= n`. -/
def mix (n : Nat) (x : Words) (a b d : Fin 16) : Words :=
  let x := Function.update x a (x a + x b)
  Function.update x d (rotate n (x d ^^^ x a))

/-- The quarter round on the words at four places. -/
def quarterRound (x : Words) (a b c d : Fin 16) : Words :=
  let x := mix 16 x a b d
  let x := mix 12 x c d b
  let x := mix 8 x a b d
  mix 7 x c d b

/-- The four columns. -/
def columnRound (x : Words) : Words :=
  let x := quarterRound x 0 4 8 12
  let x := quarterRound x 1 5 9 13
  let x := quarterRound x 2 6 10 14
  quarterRound x 3 7 11 15

/-- The four diagonals. -/
def diagonalRound (x : Words) : Words :=
  let x := quarterRound x 0 5 10 15
  let x := quarterRound x 1 6 11 12
  let x := quarterRound x 2 7 8 13
  quarterRound x 3 4 9 14

def doubleRound (x : Words) : Words := diagonalRound (columnRound x)

/-- A block: `rounds` double rounds, and the state added back word by word. -/
def block (rounds : Nat) (x : Words) : Words := fun i => doubleRound^[rounds] x i + x i

/-- `"expand 32-byte k"`, as four little-endian words. -/
def constants : Fin 4 → UInt32
  | 0 => 0x61707865
  | 1 => 0x3320646e
  | 2 => 0x79622d32
  | 3 => 0x6b206574

/-- Four places that are apart. -/
structure FourApart (a b c d : Fin 16) : Prop where
  ab : a ≠ b
  ac : a ≠ c
  ad : a ≠ d
  bc : b ≠ c
  bd : b ≠ d
  cd : c ≠ d

/-- A state with four words put at four places. -/
def put (x : Words) (a b c d : Fin 16) (w : UInt32 × UInt32 × UInt32 × UInt32) : Words := fun i =>
  if i = a then w.1 else if i = b then w.2.1 else if i = c then w.2.2.1 else if i = d then w.2.2.2
  else x i

end Lib.ChaCha
