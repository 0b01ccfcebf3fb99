/-
Module: GyreWard.Model.Rng
Purpose: ChaCha20 as a seeded stream of numbers (`rng.h`).
Trusted boundary: human-reviewed translation of the source
Main exports: Rng, rngSeed, rngNext, rngBelow, rngBelow_lt
-/
import Mathlib.Algebra.Group.Nat.Defs
import Mathlib.Algebra.Ring.Int.Defs
import Mathlib.Data.List.Basic

namespace GyreWard

/-- `rng_t`: sixteen words of state, sixteen of output, and how many were handed out. -/
structure Rng where
  state : List UInt32
  out : List UInt32
  used : Nat
deriving DecidableEq, Repr

/-- `memset` to zero. -/
def Rng.zero : Rng := { state := List.replicate 16 0, out := List.replicate 16 0, used := 0 }

def rotl (a b : UInt32) : UInt32 := (a <<< b) ||| (a >>> (32 - b))

/-- `RNG_QR` on four words. -/
def quarterRound (a b c d : UInt32) : UInt32 × UInt32 × UInt32 × UInt32 :=
  let a := a + b
  let d := rotl (d ^^^ a) 16
  let c := c + d
  let b := rotl (b ^^^ c) 12
  let a := a + b
  let d := rotl (d ^^^ a) 8
  let c := c + d
  let b := rotl (b ^^^ c) 7
  (a, b, c, d)

/-- The body of the loop in `rng_block`: four columns, then four diagonals. -/
def doubleRound : List UInt32 → List UInt32
  | [x0, x1, x2, x3, x4, x5, x6, x7, x8, x9, x10, x11, x12, x13, x14, x15] =>
      let (x0, x4, x8, x12) := quarterRound x0 x4 x8 x12
      let (x1, x5, x9, x13) := quarterRound x1 x5 x9 x13
      let (x2, x6, x10, x14) := quarterRound x2 x6 x10 x14
      let (x3, x7, x11, x15) := quarterRound x3 x7 x11 x15
      let (x0, x5, x10, x15) := quarterRound x0 x5 x10 x15
      let (x1, x6, x11, x12) := quarterRound x1 x6 x11 x12
      let (x2, x7, x8, x13) := quarterRound x2 x7 x8 x13
      let (x3, x4, x9, x14) := quarterRound x3 x4 x9 x14
      [x0, x1, x2, x3, x4, x5, x6, x7, x8, x9, x10, x11, x12, x13, x14, x15]
  | words => words

def doubleRounds : Nat → List UInt32 → List UInt32
  | 0, words => words
  | n + 1, words => doubleRounds n (doubleRound words)

/-- `if (++state[12] == 0) state[13]++`. -/
def bumpCounter (state : List UInt32) : List UInt32 :=
  let low := state.getD 12 0 + 1
  let state := state.set 12 low
  if low = 0 then state.set 13 (state.getD 13 0 + 1) else state

def rngBlock (r : Rng) : Rng :=
  { state := bumpCounter r.state
    out := List.zipWith (· + ·) (doubleRounds 10 r.state) r.state
    used := 0 }

/-- Key word `i` of a seed. -/
def seedWord (seed : UInt64) (i : Nat) : UInt32 :=
  (seed >>> UInt64.ofNat (i % 2 * 32)).toUInt32 ^^^ UInt32.ofNat i

/-- The constants are `"expand 32-byte k"` read as four little-endian words. -/
def rngSeed (seed : UInt64) : Rng :=
  rngBlock
    { state := [0x61707865, 0x3320646e, 0x79622d32, 0x6b206574] ++
        [4, 5, 6, 7, 8, 9, 10, 11].map (seedWord seed) ++ [0, 0, 0x67452301, 0xefcdab89]
      out := List.replicate 16 0
      used := 0 }

def rngNext (r : Rng) : UInt32 × Rng :=
  let r := if 16 ≤ r.used then rngBlock r else r
  (r.out.getD r.used 0, { r with used := r.used + 1 })

/-- The largest word `rng_below` accepts for `n`. -/
def rngLimit (n : UInt32) : UInt32 := 0xFFFFFFFF - 0xFFFFFFFF % n - 1

/-- The rejection loop, at most `turns` times round. -/
def rngBelowLoop (n : UInt32) : Nat → Rng → Option (UInt32 × Rng)
  | 0, _ => none
  | turns + 1, r =>
      let (v, r) := rngNext r
      if rngLimit n < v then rngBelowLoop n turns r else some (v % n, r)

/-- A number below `n`, and `none` when the loop never ends.  The 64-bit block counter gives the
stream a period of `2^68` words, so a loop that rejected a period and a block never stops. -/
def rngBelow (r : Rng) (n : UInt32) : Option (UInt32 × Rng) :=
  if n = 0 then some (0, r) else rngBelowLoop n (2 ^ 68 + 16) r

theorem rngBelowLoop_lt {n : UInt32} (positive : n ≠ 0) :
    ∀ {turns : Nat} {r r' : Rng} {v : UInt32},
      rngBelowLoop n turns r = some (v, r') → v < n
  | 0, _, _, _, h => by simp [rngBelowLoop] at h
  | turns + 1, r, r', v, h => by
      simp only [rngBelowLoop] at h
      split at h
      · exact rngBelowLoop_lt positive h
      · obtain ⟨rfl, -⟩ := Prod.mk.inj (Option.some.inj h)
        exact UInt32.mod_lt _ (UInt32.pos_iff_ne_zero.mpr positive)

/-- What `rng_below` returns is below its bound. -/
theorem rngBelow_lt {r r' : Rng} {n v : UInt32} (positive : n ≠ 0)
    (h : rngBelow r n = some (v, r')) : v < n := by
  rw [rngBelow, if_neg positive] at h
  exact rngBelowLoop_lt positive h

end GyreWard
