/-
Module: GyreWard.Proofs.Keystream
Purpose: The ward's random numbers are the ChaCha keystream of its seed, word for word.
Trusted boundary: human-reviewed spec (`keystreamInput`, `keystreamWord`)
Main exports: quarterRound_put, doubleRound_words, bumpCounter_withCounter, Standing,
  Standing.drawn, draws_are_the_keystream
-/
import Mathlib.Algebra.Group.Nat.Defs
import Mathlib.Data.List.OfFn
import GyreWard.Lib.ChaCha
import GyreWard.Lib.Draws
import GyreWard.Model.Rng

namespace GyreWard

open Lib

/-! ### The rounds -/

theorem rotl_rotate {a b : UInt32} (positive : 0 < b.toNat) (few : b.toNat < 32) :
    rotl a b = ChaCha.rotate b.toNat a := by
  apply UInt32.toBitVec_inj.mp
  simp only [rotl, ChaCha.rotate, UInt32.toBitVec_or, UInt32.toBitVec_shiftLeft,
    UInt32.toBitVec_shiftRight, BitVec.rotateLeft_def, Nat.mod_eq_of_lt few, BitVec.ushiftRight_eq',
    BitVec.shiftLeft_eq']
  congr 2
  · simp [BitVec.toNat_umod]; omega
  · simp [BitVec.toNat_umod]; omega

/-- The quarter round writes its four places, as `RNG_QR` does, and no other. -/
theorem quarterRound_put (x : ChaCha.Words) {a b c d : Fin 16} (apart : ChaCha.FourApart a b c d) :
    ChaCha.quarterRound x a b c d =
      ChaCha.put x a b c d (quarterRound (x a) (x b) (x c) (x d)) := by
  have turn16 (w : UInt32) : ChaCha.rotate 16 w = rotl w 16 :=
    (rotl_rotate (b := 16) (by decide) (by decide)).symm
  have turn12 (w : UInt32) : ChaCha.rotate 12 w = rotl w 12 :=
    (rotl_rotate (b := 12) (by decide) (by decide)).symm
  have turn8 (w : UInt32) : ChaCha.rotate 8 w = rotl w 8 :=
    (rotl_rotate (b := 8) (by decide) (by decide)).symm
  have turn7 (w : UInt32) : ChaCha.rotate 7 w = rotl w 7 :=
    (rotl_rotate (b := 7) (by decide) (by decide)).symm
  obtain ⟨ab, ac, ad, bc, bd, cd⟩ := apart
  funext i
  simp only [ChaCha.quarterRound, ChaCha.mix, ChaCha.put, quarterRound, turn16, turn12, turn8, turn7,
    Function.update_apply]
  grind

/-- A state as the source keeps it. -/
def wordList (x : ChaCha.Words) : List UInt32 := List.ofFn x

theorem wordList_getD (x : ChaCha.Words) (k : Nat) :
    (wordList x).getD (k % 16) 0 = x (Fin.ofNat 16 k) := by
  have small : k % 16 < (List.ofFn x).length := by
    rw [List.length_ofFn]
    exact Nat.mod_lt k (by decide)
  rw [wordList, List.getD_eq_getElem?_getD, List.getElem?_eq_getElem small, List.getElem_ofFn]
  rfl

/-- A state, word by word. -/
theorem wordList_eq (x : ChaCha.Words) : wordList x =
    [x 0, x 1, x 2, x 3, x 4, x 5, x 6, x 7, x 8, x 9, x 10, x 11, x 12, x 13, x 14, x 15] := rfl

theorem columnRound_words (x : ChaCha.Words) {p q r s : UInt32 × UInt32 × UInt32 × UInt32}
    (first : quarterRound (x 0) (x 4) (x 8) (x 12) = p)
    (second : quarterRound (x 1) (x 5) (x 9) (x 13) = q)
    (third : quarterRound (x 2) (x 6) (x 10) (x 14) = r)
    (fourth : quarterRound (x 3) (x 7) (x 11) (x 15) = s) :
    wordList (ChaCha.columnRound x) =
      [p.1, q.1, r.1, s.1, p.2.1, q.2.1, r.2.1, s.2.1, p.2.2.1, q.2.2.1, r.2.2.1, s.2.2.1,
        p.2.2.2, q.2.2.2, r.2.2.2, s.2.2.2] := by
  rw [ChaCha.columnRound, quarterRound_put x (by constructor <;> decide), first,
    quarterRound_put _ (a := 1) (by constructor <;> decide),
    quarterRound_put _ (a := 2) (by constructor <;> decide),
    quarterRound_put _ (a := 3) (by constructor <;> decide)]
  simp [wordList, List.ofFn_succ, ChaCha.put, second, third, fourth]

theorem diagonalRound_words (x : ChaCha.Words) {p q r s : UInt32 × UInt32 × UInt32 × UInt32}
    (first : quarterRound (x 0) (x 5) (x 10) (x 15) = p)
    (second : quarterRound (x 1) (x 6) (x 11) (x 12) = q)
    (third : quarterRound (x 2) (x 7) (x 8) (x 13) = r)
    (fourth : quarterRound (x 3) (x 4) (x 9) (x 14) = s) :
    wordList (ChaCha.diagonalRound x) =
      [p.1, q.1, r.1, s.1, s.2.1, p.2.1, q.2.1, r.2.1, r.2.2.1, s.2.2.1, p.2.2.1, q.2.2.1,
        q.2.2.2, r.2.2.2, s.2.2.2, p.2.2.2] := by
  rw [ChaCha.diagonalRound, quarterRound_put x (by constructor <;> decide), first,
    quarterRound_put _ (a := 1) (by constructor <;> decide),
    quarterRound_put _ (a := 2) (by constructor <;> decide),
    quarterRound_put _ (a := 3) (by constructor <;> decide)]
  simp [wordList, List.ofFn_succ, ChaCha.put, second, third, fourth]

/-- The body of the source's loop is a double round. -/
theorem doubleRound_words (x : ChaCha.Words) :
    doubleRound (wordList x) = wordList (ChaCha.doubleRound x) := by
  have columns := columnRound_words x rfl rfl rfl rfl
  have diagonals := diagonalRound_words (ChaCha.columnRound x) rfl rfl rfl rfl
  rw [wordList_eq] at columns
  simp only [List.cons.injEq, and_true] at columns
  obtain ⟨c0, c1, c2, c3, c4, c5, c6, c7, c8, c9, c10, c11, c12, c13, c14, c15⟩ := columns
  simp only [c0, c1, c2, c3, c4, c5, c6, c7, c8, c9, c10, c11, c12, c13, c14, c15] at diagonals
  rw [ChaCha.doubleRound, diagonals, wordList_eq x]
  simp only [doubleRound]

theorem doubleRounds_words (n : Nat) (x : ChaCha.Words) :
    doubleRounds n (wordList x) = wordList (ChaCha.doubleRound^[n] x) := by
  induction n generalizing x with
  | zero => rfl
  | succ n ih => rw [doubleRounds, doubleRound_words, ih, Function.iterate_succ_apply]

theorem rngBlock_words (x : ChaCha.Words) :
    List.zipWith (· + ·) (doubleRounds 10 (wordList x)) (wordList x) = wordList (ChaCha.block 10 x) := by
  rw [doubleRounds_words]
  apply List.ext_getElem
  · simp [wordList]
  · intro i h k
    simp [wordList, ChaCha.block]

/-! ### The counter -/

/-- A state with `j` in its counter, the low word first. -/
def withCounter (state : List UInt32) (j : Nat) : List UInt32 :=
  (state.set 12 (UInt32.ofNat j)).set 13 (UInt32.ofNat (j / 2 ^ 32))

theorem carry (j : Nat) :
    UInt32.ofNat ((j + 1) / 2 ^ 32) =
      if UInt32.ofNat j + 1 = 0 then UInt32.ofNat (j / 2 ^ 32) + 1 else UInt32.ofNat (j / 2 ^ 32) := by
  have wraps : UInt32.ofNat j + 1 = 0 ↔ (j + 1) % 2 ^ 32 = 0 := by
    rw [← UInt32.toNat_inj]
    simp
  split
  case isTrue full =>
      have next : (j + 1) / 2 ^ 32 = j / 2 ^ 32 + 1 := by
        have := wraps.mp full
        omega
      rw [next, UInt32.ofNat_add]
      rfl
  case isFalse room =>
      have same : (j + 1) / 2 ^ 32 = j / 2 ^ 32 := by
        have := mt wraps.mpr room
        omega
      rw [same]

theorem withCounter_low {state : List UInt32} (long : 12 < state.length) (j : Nat) :
    (withCounter state j).getD 12 0 = UInt32.ofNat j := by
  simp [withCounter, long]

/-- Both words of the counter written again. -/
theorem withCounter_set (state : List UInt32) (j : Nat) (low high : UInt32) :
    ((withCounter state j).set 12 low).set 13 high = (state.set 12 low).set 13 high := by
  rw [withCounter, List.set_comm _ _ (by decide), List.set_set, List.set_comm _ _ (by decide),
    List.set_set]

theorem withCounter_set_low (state : List UInt32) (j : Nat) (low : UInt32) :
    (withCounter state j).set 12 low = (state.set 12 low).set 13 (UInt32.ofNat (j / 2 ^ 32)) := by
  rw [withCounter, List.set_comm _ _ (by decide), List.set_set]

/-- The counter counts, also when its low word wraps. -/
theorem bumpCounter_withCounter (state : List UInt32) (j : Nat) :
    bumpCounter (withCounter state j) = withCounter state (j + 1) := by
  by_cases long : 12 < state.length
  case pos =>
      have next : UInt32.ofNat (j + 1) = UInt32.ofNat j + 1 := UInt32.ofNat_add j 1
      rw [bumpCounter, withCounter_low long, withCounter.eq_1 state (j + 1), carry, next]
      split
      case isFalse => exact withCounter_set_low state j _
      case isTrue =>
          rw [withCounter_set]
          by_cases longer : 13 < state.length
          case pos => simp [withCounter, longer]
          case neg =>
              have beyond (w : UInt32) : (state.set 12 (UInt32.ofNat j + 1)).set 13 w =
                  state.set 12 (UInt32.ofNat j + 1) :=
                List.set_eq_of_length_le (by simp; omega)
              rw [beyond, beyond]
  case neg =>
      have beyond (i : Nat) (w : UInt32) : state.set (12 + i) w = state :=
        List.set_eq_of_length_le (by omega)
      have low := beyond 0
      have high := beyond 1
      have absent : state[12]? = none := List.getElem?_eq_none (by omega)
      simp [withCounter, bumpCounter, low, high, absent]

theorem bumpCounters (state : List UInt32) (j k : Nat) :
    bumpCounter^[k] (withCounter state j) = withCounter state (j + k) := by
  induction k generalizing j with
  | zero => rfl
  | succ k ih =>
      rw [Function.iterate_succ_apply, bumpCounter_withCounter, ih, Nat.add_right_comm]
      rfl

/-- Every state has something in its counter. -/
theorem exists_counter (state : List UInt32) : ∃ j, state = withCounter state j := by
  let low := state.getD 12 0
  let high := state.getD 13 0
  exists low.toNat + high.toNat * 2 ^ 32
  have small : low.toNat < 2 ^ 32 := low.toNat_lt
  have first : UInt32.ofNat (low.toNat + high.toNat * 2 ^ 32) = low := by
    apply UInt32.toNat_inj.mp
    simp
  have second : UInt32.ofNat ((low.toNat + high.toNat * 2 ^ 32) / 2 ^ 32) = high := by
    have quotient : (low.toNat + high.toNat * 2 ^ 32) / 2 ^ 32 = high.toNat := by omega
    rw [quotient, UInt32.ofNat_toNat]
  rw [withCounter, first, second]
  apply List.ext_getElem?
  intro i
  grind

/-- The counter comes round after `2^64` blocks. -/
theorem bumpCounter_period (state : List UInt32) : bumpCounter^[2 ^ 64] state = state := by
  obtain ⟨j, counter⟩ := exists_counter state
  have low : UInt32.ofNat (j + 2 ^ 64) = UInt32.ofNat j := by
    apply UInt32.toNat_inj.mp
    simp
  have high : UInt32.ofNat ((j + 2 ^ 64) / 2 ^ 32) = UInt32.ofNat (j / 2 ^ 32) := by
    apply UInt32.toNat_inj.mp
    simp
    omega
  rw [counter, bumpCounters, withCounter, low, high, ← withCounter, ← counter]

/-! ### Draws -/

/-- A block of output, as `rng_block` computes it from a state. -/
def blockWords (state : List UInt32) : List UInt32 :=
  List.zipWith (· + ·) (doubleRounds 10 state) state

/-- The source is in block `q` of those that `s` starts, and `u` of its words are handed out. -/
structure Standing (s : List UInt32) (q u : Nat) (r : Rng) : Prop where
  state : r.state = bumpCounter^[q + 1] s
  out : r.out = blockWords (bumpCounter^[q] s)
  used : r.used = u
  few : u ≤ 16

variable {s : List UInt32} {q u : Nat} {r : Rng}

theorem standing_rngBlock (r : Rng) : Standing r.state 0 0 (rngBlock r) where
  state := rfl
  out := rfl
  used := rfl
  few := by decide

/-- A draw inside a block. -/
theorem Standing.step (standing : Standing s q u r) (inside : u < 16) :
    (rngNext r).1 = (blockWords (bumpCounter^[q] s)).getD u 0 ∧
      Standing s q (u + 1) (rngNext r).2 := by
  have fresh : ¬ 16 ≤ r.used := by
    rw [standing.used]
    exact Nat.not_le.mpr inside
  have next : rngNext r = (r.out.getD r.used 0, { r with used := r.used + 1 }) := by
    rw [rngNext, if_neg fresh]
  rw [next]
  constructor
  · rw [standing.out, standing.used]
  · exact ⟨standing.state, standing.out, congrArg (· + 1) standing.used, inside⟩

/-- A draw from a source whose block is used up: the next block is the one of the next counter. -/
theorem rngNext_refill (spent : 16 ≤ r.used) :
    (rngNext r).1 = (blockWords r.state).getD 0 0 ∧ Standing r.state 0 1 (rngNext r).2 := by
  have next : rngNext r = ((rngBlock r).out.getD 0 0, { rngBlock r with used := 1 }) := by
    rw [rngNext, if_pos spent]
    rfl
  rw [next]
  constructor
  · rfl
  · exact ⟨rfl, rfl, rfl, by decide⟩

/-- A source in the blocks of a later state is in the blocks of the state itself. -/
theorem Standing.shift {p : Nat} (standing : Standing (bumpCounter^[p] s) q u r) :
    Standing s (p + q) u r where
  state := by
    rw [standing.state, ← Function.iterate_add_apply]
    congr 1
    omega
  out := by
    rw [standing.out, ← Function.iterate_add_apply, Nat.add_comm]
  used := standing.used
  few := standing.few

/-- Every draw of a source, by its place in the blocks: none is skipped and none repeated. -/
theorem Standing.drawn (standing : Standing s q u r) (k : Nat) :
    drawn rngNext r k =
      (blockWords (bumpCounter^[q + (u + k) / 16] s)).getD ((u + k) % 16) 0 := by
  induction k generalizing q u r with
  | zero =>
      by_cases inside : u < 16
      case pos =>
          have here : (u + 0) / 16 = 0 := by omega
          have place : (u + 0) % 16 = u := by omega
          rw [here, place]
          exact (standing.step inside).1
      case neg =>
          have full : u = 16 := by
            have few := standing.few
            omega
          have spent : 16 ≤ r.used := by rw [standing.used, full]
          rw [full, drawn_zero, (rngNext_refill spent).1, standing.state]
  | succ k ih =>
      rw [drawn_succ]
      by_cases inside : u < 16
      case pos =>
          rw [ih (standing.step inside).2, Nat.add_right_comm u 1 k, Nat.add_assoc u k 1]
      case neg =>
          have full : u = 16 := by
            have few := standing.few
            omega
          have spent : 16 ≤ r.used := by rw [standing.used, full]
          have next := (rngNext_refill spent).2
          rw [standing.state] at next
          have place : (16 + (k + 1)) % 16 = (1 + k) % 16 := by omega
          have block : q + (16 + (k + 1)) / 16 = q + 1 + 0 + (1 + k) / 16 := by omega
          rw [ih next.shift, full, place, block]

/-- Draws inside the block a source is in only count. -/
theorem after_inside {k : Nat} (inside : k ≤ 16 - r.used) :
    after rngNext k r = { r with used := r.used + k } := by
  induction k with
  | zero => rfl
  | succ k ih =>
      have fresh : ¬ 16 ≤ r.used + k := by omega
      rw [after_add, ih (Nat.le_of_succ_le inside), after_succ, after_zero, rngNext, if_neg fresh]
      rfl

/-- What any source hands out once the block it is in is used up. -/
theorem drawn_late (r : Rng) (i : Nat) :
    drawn rngNext r (16 - r.used + i) =
      (blockWords (bumpCounter^[i / 16] r.state)).getD (i % 16) 0 := by
  have spent : 16 ≤ (after rngNext (16 - r.used) r).used := by
    rw [after_inside (Nat.le_refl _)]
    change 16 ≤ r.used + (16 - r.used)
    omega
  have state : (after rngNext (16 - r.used) r).state = r.state := by
    rw [after_inside (Nat.le_refl _)]
  have refilled := rngNext_refill spent
  rw [state] at refilled
  rw [← drawn_after]
  cases i with
  | zero => exact refilled.1
  | succ i => rw [drawn_succ, refilled.2.drawn, Nat.zero_add, Nat.add_comm 1 i]

/-! ### The keystream -/

/-- The ChaCha input of a seed with `j` in its counter. -/
def keystreamInput (seed : UInt64) (j : Nat) : ChaCha.Words := fun i =>
  if first : i.val < 4 then ChaCha.constants ⟨i, first⟩
  else if i.val < 12 then (seed >>> UInt64.ofNat (i % 2 * 32)).toUInt32 ^^^ UInt32.ofNat i
  else if i.val = 12 then UInt32.ofNat j
  else if i.val = 13 then UInt32.ofNat (j / 2 ^ 32)
  else if i.val = 14 then 0x67452301
  else 0xefcdab89

/-- Word `k` of the ChaCha keystream of a seed: word `k mod 16` of block `k div 16`. -/
def keystreamWord (seed : UInt64) (k : Nat) : UInt32 :=
  ChaCha.block 10 (keystreamInput seed (k / 16)) ⟨k % 16, Nat.mod_lt k (Nat.succ_pos 15)⟩

theorem withCounter_keystreamInput (seed : UInt64) (i j : Nat) :
    withCounter (wordList (keystreamInput seed i)) j = wordList (keystreamInput seed j) := rfl

theorem rngSeed_words (seed : UInt64) :
    rngSeed seed =
      rngBlock { state := wordList (keystreamInput seed 0), out := List.replicate 16 0, used := 0 } := by
  have words : [0x61707865, 0x3320646e, 0x79622d32, 0x6b206574] ++
      [4, 5, 6, 7, 8, 9, 10, 11].map (seedWord seed) ++ [0, 0, 0x67452301, 0xefcdab89] =
        wordList (keystreamInput seed 0) := rfl
  rw [rngSeed, words]

/-- The input of block `j` is the seed's own with `j` in its counter. -/
theorem bumpCounters_keystreamInput (seed : UInt64) (j : Nat) :
    bumpCounter^[j] (wordList (keystreamInput seed 0)) = wordList (keystreamInput seed j) := by
  have counted := bumpCounters (wordList (keystreamInput seed 0)) 0 j
  rw [withCounter_keystreamInput, withCounter_keystreamInput, Nat.zero_add] at counted
  exact counted

theorem drawn_rngSeed (seed : UInt64) (k : Nat) :
    drawn rngNext (rngSeed seed) k = keystreamWord seed k := by
  have standing : Standing (wordList (keystreamInput seed 0)) 0 0 (rngSeed seed) := by
    rw [rngSeed_words]
    exact standing_rngBlock { state := wordList (keystreamInput seed 0), .. }
  rw [standing.drawn, Nat.zero_add, Nat.zero_add, bumpCounters_keystreamInput, blockWords,
    rngBlock_words, wordList_getD]
  rfl

/-- The counter of a block tells it from the others. -/
theorem keystreamInput_injective (seed : UInt64) {i j : Nat} (hi : i < 2 ^ 64) (hj : j < 2 ^ 64)
    (same : keystreamInput seed i = keystreamInput seed j) : i = j := by
  have low : UInt32.ofNat i = UInt32.ofNat j := congrFun same 12
  have high : UInt32.ofNat (i / 2 ^ 32) = UInt32.ofNat (j / 2 ^ 32) := congrFun same 13
  have low' := congrArg UInt32.toNat low
  have high' := congrArg UInt32.toNat high
  simp at low' high'
  omega

/-- The draws of a seeded source are its ChaCha keystream, and no two blocks of a period have the same
input. -/
theorem draws_are_the_keystream (seed : UInt64) :
    (∀ k < 2 ^ 68, drawn rngNext (rngSeed seed) k = keystreamWord seed k) ∧
      ∀ i < 2 ^ 64, ∀ j < 2 ^ 64, keystreamInput seed i = keystreamInput seed j → i = j := by
  constructor
  · intro k _
    exact drawn_rngSeed seed k
  · intro i hi j hj same
    exact keystreamInput_injective seed hi hj same

end GyreWard
