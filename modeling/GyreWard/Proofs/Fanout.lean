/-
Module: GyreWard.Proofs.Fanout
Purpose: What the fan-out edge sends: a packet is read back as it was, each subscriber is sent the first entities of
  its slice, and which entities are in it.
Trusted boundary: none
Main exports: layout, packets_round_trip, near, a_slice_is_what_is_near, Clear, ComesNear, nothing_near_is_missed_iff,
  a_step_down_is_missed
-/
import GyreWard.Model.Fanout
import Mathlib.Data.List.Pairwise

namespace GyreWard.Fanout

open Lib

/-! ### Numbers on the wire -/

@[simp] theorem gu32_pu32 (v : UInt32) : gu32 (pu32 v) = v := by
  unfold gu32 pu32
  rw [ofLittleEndian_littleEndian v.toNat_lt, UInt32.ofNat_toNat]

@[simp] theorem gi64_pi64 (v : Int64) : gi64 (pi64 v) = v := by
  unfold gi64 pi64
  rw [ofLittleEndian_littleEndian v.toUInt64.toNat_lt, UInt64.ofNat_toNat, Int64.toInt64_toUInt64]

@[simp] theorem gi16_pi16 (v : Int16) : gi16 (pi16 v) = v := by
  unfold gi16 pi16
  rw [ofLittleEndian_littleEndian v.toUInt16.toNat_lt, UInt16.ofNat_toNat, Int16.toInt16_toUInt16]

theorem pu32_gu32 {bytes : List UInt8} (four : bytes.length = 4) : pu32 (gu32 bytes) = bytes := by
  have fits := ofLittleEndian_lt bytes
  rw [four] at fits
  unfold gu32 pu32
  rw [UInt32.toNat_ofNat_of_lt' fits, ← four, littleEndian_ofLittleEndian]

theorem pi64_gi64 {bytes : List UInt8} (eight : bytes.length = 8) : pi64 (gi64 bytes) = bytes := by
  have fits := ofLittleEndian_lt bytes
  rw [eight] at fits
  unfold gi64 pi64
  rw [UInt64.toUInt64_toInt64, UInt64.toNat_ofNat_of_lt' fits, ← eight, littleEndian_ofLittleEndian]

theorem pi16_gi16 {bytes : List UInt8} (two : bytes.length = 2) : pi16 (gi16 bytes) = bytes := by
  have fits := ofLittleEndian_lt bytes
  rw [two] at fits
  unfold gi16 pi16
  rw [UInt16.toUInt16_toInt16, UInt16.toNat_ofNat_of_lt' fits, ← two, littleEndian_ofLittleEndian]

/-! ### The packet -/

/-- Where the fields stand and how wide they are. -/
def layout : List (Nat × Nat) :=
  [(0, 4), (4, 8), (12, 8), (20, 8), (28, 2), (30, 2), (32, 2), (40, 4), (44, 4), (48, 4), (52, 2), (54, 2), (56, 2),
    (58, 42)]

theorem layout_fields (p : EntityPacket) : (p.fields.map fun field => (field.1, field.2.length)) = layout := by
  have payload : p.payload.toList.length = 42 := p.payload.length_toList
  simp [EntityPacket.fields, layout, pu32, pi64, pi16, payload, offGid, offPos, offVel, offHlc, offClassOwner,
    offSubIndex, offRot, payloadOffset]

theorem fit_fields (p : EntityPacket) : Fit (List.replicate packetSize (0 : UInt8)).length p.fields := by
  rw [List.length_replicate]
  exact Fit.of_layout (layout_fields p) (by decide) (by decide)

@[simp] theorem length_encode (p : EntityPacket) : (encode p).length = packetSize := by
  rw [encode, length_writeAll (fit_fields p), List.length_replicate]

/-- A field of a packet that was encoded. -/
theorem slice_encode {p : EntityPacket} {place width : Nat} {bytes : List UInt8} (mem : (place, bytes) ∈ p.fields)
    (wide : bytes.length = width) : slice (encode p) place width = bytes := by
  rw [← wide]
  exact slice_writeAll (fit_fields p) mem

section Fields

variable {p : EntityPacket} {place : Nat}

theorem gu32_field {v : UInt32} (mem : (place, pu32 v) ∈ p.fields) : gu32 (slice (encode p) place 4) = v := by
  rw [slice_encode mem (length_littleEndian _ _), gu32_pu32]

theorem gi64_field {v : Int64} (mem : (place, pi64 v) ∈ p.fields) : gi64 (slice (encode p) place 8) = v := by
  rw [slice_encode mem (length_littleEndian _ _), gi64_pi64]

theorem gi16_field {v : Int16} (mem : (place, pi16 v) ∈ p.fields) : gi16 (slice (encode p) place 2) = v := by
  rw [slice_encode mem (length_littleEndian _ _), gi16_pi16]

theorem payload_encode (p : EntityPacket) (i : Fin payloadLen) :
    (encode p).getD (payloadOffset + i) 0 = p.payload[i] := by
  have mem : (payloadOffset, p.payload.toList) ∈ p.fields := by simp [EntityPacket.fields]
  have bytes := slice_encode mem p.payload.length_toList
  have byte := congrArg (·[i.val]?) bytes
  rw [getElem?_slice, if_pos i.isLt] at byte
  rw [List.getD_eq_getElem?_getD, byte]
  simp

end Fields

theorem decode_encode (p : EntityPacket) : decode (encode p) = p := by
  refine EntityPacket.ext (gu32_field ?_) (gi64_field ?_) (gi64_field ?_) (gi64_field ?_) (gi16_field ?_)
    (gi16_field ?_) (gi16_field ?_) (gu32_field ?_) (gu32_field ?_) (gu32_field ?_) (gi16_field ?_) (gi16_field ?_)
    (gi16_field ?_) ?_
  case refine_14 =>
    apply Vector.ext
    intro i inside
    change (Vector.ofFn fun i : Fin payloadLen => (encode p).getD (payloadOffset + i) 0)[i] = _
    rw [Vector.getElem_ofFn]
    exact payload_encode p ⟨i, inside⟩
  all_goals simp [EntityPacket.fields]

/-- The bytes that are of no field. -/
theorem layout_gap (i : Nat) : (∀ place ∈ layout, ¬ (place.1 ≤ i ∧ i < place.1 + place.2)) ↔
    (34 ≤ i ∧ i < 40) ∨ packetSize ≤ i := by
  simp only [layout, List.forall_mem_cons, packetSize, List.not_mem_nil, false_imp_iff, implies_true, and_true]
  omega

/-- Each field of what was decoded is written as it was read. -/
theorem fields_decode {bytes : List UInt8} (whole : bytes.length = packetSize) :
    ∀ field ∈ (decode bytes).fields, field.2 = slice bytes field.1 field.2.length := by
  have wide : ∀ {place width}, place + width ≤ packetSize → (slice bytes place width).length = width := by
    intro place width room
    rw [slice, List.length_take, List.length_drop, whole]
    omega
  have four : ∀ {place}, place + 4 ≤ packetSize → pu32 (gu32 (slice bytes place 4)) = slice bytes place 4 :=
    fun room => pu32_gu32 (wide room)
  have eight : ∀ {place}, place + 8 ≤ packetSize → pi64 (gi64 (slice bytes place 8)) = slice bytes place 8 :=
    fun room => pi64_gi64 (wide room)
  have two : ∀ {place}, place + 2 ≤ packetSize → pi16 (gi16 (slice bytes place 2)) = slice bytes place 2 :=
    fun room => pi16_gi16 (wide room)
  have payload : (decode bytes).payload.toList = slice bytes payloadOffset payloadLen := by
    apply List.ext_getElem?
    intro i
    rw [getElem?_slice]
    by_cases inside : i < payloadLen
    · have there : payloadOffset + i < bytes.length := by
        rw [whole]
        exact Nat.add_lt_add_left inside payloadOffset
      rw [if_pos inside, List.getElem?_eq_getElem there]
      simp [decode, inside, List.getElem?_eq_getElem there]
    · rw [if_neg inside, List.getElem?_eq_none]
      rw [Vector.length_toList]
      exact Nat.not_lt.mp inside
  simp only [EntityPacket.fields, List.forall_mem_cons]
  refine ⟨four ?_, eight ?_, eight ?_, eight ?_, two ?_, two ?_, two ?_, four ?_, four ?_, four ?_, two ?_, two ?_,
    two ?_, ?_, fun _ none => (by cases none)⟩
  case refine_14 =>
    rw [Vector.length_toList]
    exact payload
  all_goals decide

/-- A packet comes back from the wire as it was; and a hundred bytes are those of a packet exactly when the six that
no field has are zero. -/
theorem packets_round_trip : (∀ p, decode (encode p) = p) ∧ ∀ bytes, bytes.length = packetSize →
    (encode (decode bytes) = bytes ↔ ∀ i, 34 ≤ i → i < 40 → bytes[i]? = some 0) := by
  refine ⟨decode_encode, fun bytes whole => ?_⟩
  have alike : bytes.length = (List.replicate packetSize (0 : UInt8)).length := by
    rw [whole, List.length_replicate]
  unfold encode
  rw [writeAll_eq_iff (fit_fields _) alike (fields_decode whole)]
  simp only [nowhere_iff (layout_fields _), layout_gap]
  constructor
  · intro same i after before
    rw [same i (Or.inl ⟨after, before⟩), List.getElem?_replicate_of_lt (Nat.lt_trans before (by decide))]
  · rintro zero i (⟨after, before⟩ | beyond)
    · rw [zero i after before, List.getElem?_replicate_of_lt (Nat.lt_trans before (by decide))]
    · rw [List.getElem?_eq_none (whole ▸ beyond), List.getElem?_eq_none]
      rw [List.length_replicate]
      exact beyond

/-! ### Messages -/

theorem slice_append_left {a b : List UInt8} {width : Nat} (wide : a.length = width) :
    slice (a ++ b) 0 width = a := by
  rw [slice, List.drop_zero, ← wide, List.take_left]

/-- The packets after the first. -/
theorem slice_packed (p : EntityPacket) (rest : List UInt8) (i : Nat) :
    slice (encode p ++ rest) ((i + 1) * packetSize) packetSize = slice rest (i * packetSize) packetSize := by
  have place : (i + 1) * packetSize = (encode p).length + i * packetSize := by
    rw [length_encode, Nat.succ_mul, Nat.add_comm]
  unfold slice
  rw [place, List.drop_length_add_append]

theorem length_packed (ps : List EntityPacket) : (ps.flatMap encode).length = ps.length * packetSize := by
  induction ps with
  | nil => rfl
  | cons p rest ih =>
      rw [List.flatMap_cons, List.length_append, length_encode, ih, List.length_cons, Nat.succ_mul, Nat.add_comm]

/-- A receiver finds the packets that were packed. -/
theorem unpack_packed (ps : List EntityPacket) : unpack (ps.flatMap encode) = ps := by
  have positive : 0 < packetSize := by decide
  unfold unpack
  rw [length_packed, Nat.mul_div_cancel _ positive]
  induction ps with
  | nil => rfl
  | cons p rest ih =>
      rw [List.length_cons, List.range_succ_eq_map, List.map_cons, List.map_map, List.flatMap_cons, Nat.zero_mul,
        slice_append_left (length_encode p), decode_encode]
      refine congrArg (List.cons p) (Eq.trans (List.map_congr_left fun i _ => ?_) ih)
      exact congrArg decode (slice_packed p _ i)

/-- The entities whose ghosts touch a box. -/
def interested (interest : Aabb) (ents : List EntityPacket) : List EntityPacket :=
  ents.filter fun e => aabbOverlaps (ghostAabbOf e) interest

/-- The slice of a subscriber. -/
def near (interest : Aabb) (ents : List EntityPacket) : List EntityPacket :=
  (interested interest ents).take maxSliceEntities

theorem fanoutLoop_eq (interest : Aabb) (ents : List EntityPacket) (out : Nat) (batch : List UInt8) :
    fanoutLoop interest ents out batch =
      (out + ((interested interest ents).take (maxSliceEntities - out)).length,
        batch ++ ((interested interest ents).take (maxSliceEntities - out)).flatMap encode) := by
  induction ents generalizing out batch with
  | nil => simp [fanoutLoop, interested]
  | cons e rest ih =>
      rw [fanoutLoop]
      by_cases room : out < maxSliceEntities
      · rw [if_pos room]
        by_cases touches : aabbOverlaps (ghostAabbOf e) interest = true
        · have kept : interested interest (e :: rest) = e :: interested interest rest :=
            List.filter_cons_of_pos touches
          have left : maxSliceEntities - out = maxSliceEntities - (out + 1) + 1 := by omega
          rw [if_pos touches, ih, kept, left, List.take_succ_cons, List.length_cons, List.flatMap_cons,
            List.append_assoc, Nat.add_assoc, Nat.add_comm 1]
        · have dropped : interested interest (e :: rest) = interested interest rest :=
            List.filter_cons_of_neg touches
          rw [if_neg touches, ih, dropped]
      · have full : maxSliceEntities - out = 0 := Nat.sub_eq_zero_of_le (Nat.not_lt.mp room)
        rw [if_neg room, full]
        simp

section Slices

variable {C : Type}

theorem fanoutOne_eq (sub : Subscriber C) (ents : List EntityPacket) :
    fanoutOne sub ents = ((near sub.interest ents).length,
      if near sub.interest ents = [] then [] else [(sub.conn, (near sub.interest ents).flatMap encode)]) := by
  unfold fanoutOne
  rw [fanoutLoop_eq, Nat.zero_add, List.nil_append, Nat.sub_zero]
  change (_, if 0 < (near sub.interest ents).length then _ else _) = _
  simp only [List.length_pos_iff, ne_eq, ite_not]
  rfl

/-- In a tick each subscriber that is near anything is sent one message, of whole packets, one to 64 of them, in which
a receiver finds the first of the entities whose ghosts touch its box; the others are sent nothing. -/
theorem a_slice_is_what_is_near (subs : List (Subscriber C)) (ents : List EntityPacket) :
    ((fanoutTick subs ents).map fun message => (message.1, unpack message.2)) =
        (subs.filterMap fun sub =>
          if near sub.interest ents = [] then none else some (sub.conn, near sub.interest ents)) ∧
      ∀ message ∈ fanoutTick subs ents, packetSize ∣ message.2.length ∧
        0 < message.2.length ∧ message.2.length ≤ maxSliceEntities * packetSize := by
  unfold fanoutTick
  simp only [fanoutOne_eq]
  constructor
  · induction subs with
    | nil => rfl
    | cons sub rest ih =>
        rw [List.flatMap_cons, List.map_append, ih, List.filterMap_cons]
        split <;> simp [unpack_packed]
  · intro message mem
    obtain ⟨sub, -, sent⟩ := List.mem_flatMap.mp mem
    split at sent
    · cases sent
    · cases List.mem_singleton.mp sent
      have few : (near sub.interest ents).length ≤ maxSliceEntities := List.length_take_le _ _
      have some : 0 < (near sub.interest ents).length := List.length_pos_iff.mpr ‹_›
      rw [length_packed]
      exact ⟨Nat.dvd_mul_left _ _, Nat.mul_pos some (by decide), Nat.mul_le_mul_right _ few⟩

end Slices

/-! ### Ghosts -/

inductive Axis where
  | x
  | y
  | z
deriving DecidableEq

namespace Axis

def lo (box : Aabb) : Axis → Int
  | x => box.minX
  | y => box.minY
  | z => box.minZ

def hi (box : Aabb) : Axis → Int
  | x => box.maxX
  | y => box.maxY
  | z => box.maxZ

def pos (e : EntityPacket) : Axis → Int
  | x => e.posUmX.toInt
  | y => e.posUmY.toInt
  | z => e.posUmZ.toInt

def vel (e : EntityPacket) : Axis → Int16
  | x => e.velX
  | y => e.velY
  | z => e.velZ

theorem forall_iff {p : Axis → Prop} : (∀ a, p a) ↔ p x ∧ p y ∧ p z := by
  constructor
  · exact fun all => ⟨all x, all y, all z⟩
  · rintro ⟨first, second, third⟩ a
    cases a with
    | x => exact first
    | y => exact second
    | z => exact third

end Axis

/-- The box that is one point. -/
def point (place : Axis → Int) : Aabb where
  minX := place .x
  maxX := place .x
  minY := place .y
  maxY := place .y
  minZ := place .z
  maxZ := place .z

@[simp] theorem Axis.lo_point (place : Axis → Int) (a : Axis) : a.lo (point place) = place a := by
  cases a <;> rfl

@[simp] theorem Axis.hi_point (place : Axis → Int) (a : Axis) : a.hi (point place) = place a := by
  cases a <;> rfl

/-- The box of an entity after so many ticks, when it keeps its velocity. -/
def bodyAt (e : EntityPacket) (t : Int) : Aabb where
  minX := e.posUmX.toInt + velUm e.velX * t - entityExtUm
  maxX := e.posUmX.toInt + velUm e.velX * t + entityExtUm
  minY := e.posUmY.toInt + velUm e.velY * t - entityExtUm
  maxY := e.posUmY.toInt + velUm e.velY * t + entityExtUm
  minZ := e.posUmZ.toInt + velUm e.velZ * t - entityExtUm
  maxZ := e.posUmZ.toInt + velUm e.velZ * t + entityExtUm

/-- Does the entity touch the box now, or within the ticks that its ghost is for? -/
def ComesNear (interest : Aabb) (e : EntityPacket) : Prop :=
  ∃ t, 0 ≤ t ∧ t ≤ ghostTicks ∧ aabbOverlaps (bodyAt e t) interest = true

/-- The numbers of an `int64_t`. -/
def Held (n : Int) : Prop := Int64.minValue.toInt ≤ n ∧ n ≤ Int64.maxValue.toInt

/-- Does no sum that the ghost of an entity takes overflow? -/
def Clear (e : EntityPacket) : Prop := ∀ a : Axis,
  Held (a.pos e - entityExtUm) ∧ Held (a.pos e - entityExtUm - velUm (a.vel e) * ghostTicks) ∧
    Held (a.pos e + entityExtUm) ∧ Held (a.pos e + entityExtUm + velUm (a.vel e) * ghostTicks)

theorem held_pos (e : EntityPacket) (a : Axis) : Held (a.pos e) := by
  cases a <;> exact ⟨Int64.minValue_le_toInt _, Int64.toInt_le _⟩

section Ghosts

variable {interest : Aabb} {e : EntityPacket}

theorem aabbOverlaps_iff {a o : Aabb} : aabbOverlaps a o = true ↔
    ∀ axis : Axis, axis.lo a ≤ axis.hi o ∧ axis.lo o ≤ axis.hi a := by
  unfold aabbOverlaps
  rw [decide_eq_true_eq, Axis.forall_iff]
  simp only [Axis.lo, Axis.hi, ge_iff_le, and_assoc]

theorem overlaps_bodyAt {t : Int} : aabbOverlaps (bodyAt e t) interest = true ↔
    ∀ a : Axis, a.pos e + velUm (a.vel e) * t - entityExtUm ≤ a.hi interest ∧
      a.lo interest ≤ a.pos e + velUm (a.vel e) * t + entityExtUm := by
  simp only [aabbOverlaps_iff, Axis.forall_iff]
  exact Iff.rfl

/-- The ghost of an entity is its box, drawn out at both ends by the way that it goes in two ticks: drawn in, where
it goes down the axis. -/
theorem overlaps_ghostAabbOf : aabbOverlaps (ghostAabbOf e) interest = true ↔
    ∀ a : Axis, a.pos e - entityExtUm - velUm (a.vel e) * ghostTicks ≤ a.hi interest ∧
      a.lo interest ≤ a.pos e + entityExtUm + velUm (a.vel e) * ghostTicks := by
  have low : ∀ a : Axis, a.lo (ghostAabbOf e) = a.pos e - entityExtUm - velUm (a.vel e) * ghostTicks := by
    intro a
    cases a <;> simp [Axis.lo, Axis.pos, Axis.vel, ghostAabbOf, ghostAabbMin, accelHalfUm, Int.sub_eq_add_neg]
  have high : ∀ a : Axis, a.hi (ghostAabbOf e) = a.pos e + entityExtUm + velUm (a.vel e) * ghostTicks := by
    intro a
    cases a <;> simp [Axis.hi, Axis.pos, Axis.vel, ghostAabbOf, ghostAabbMax, accelHalfUm]
  simp only [aabbOverlaps_iff, low, high]

theorem velUm_neg {v : Int16} (back : v.toInt < 0) : velUm v < 0 := by
  have quotient : velUm v = - ((-v.toInt * vMaxUmPerTick).tdiv int16Max) := by
    rw [Int.neg_mul, Int.neg_tdiv, Int.neg_neg]
    rfl
  have forward : 0 ≤ -v.toInt * vMaxUmPerTick := Int.mul_nonneg (by omega) (by decide)
  have positive : 0 < (-v.toInt * vMaxUmPerTick).tdiv int16Max := by
    rw [Int.tdiv_eq_ediv_of_nonneg forward]
    simp only [vMaxUmPerTick, int16Max]
    omega
  omega

theorem velUm_nonneg {v : Int16} (forward : 0 ≤ v.toInt) : 0 ≤ velUm v :=
  Int.tdiv_nonneg (Int.mul_nonneg forward (by decide)) (by decide)

/-- The ghost of an entity that goes up every axis covers where it is now and where it will be. -/
theorem ghost_covers (up : ∀ a : Axis, 0 ≤ (a.vel e).toInt) (comes : ComesNear interest e) :
    aabbOverlaps (ghostAabbOf e) interest = true := by
  obtain ⟨t, since, until', touches⟩ := comes
  rw [overlaps_bodyAt] at touches
  rw [overlaps_ghostAabbOf]
  intro a
  obtain ⟨below, above⟩ := touches a
  have way : 0 ≤ velUm (a.vel e) * t := Int.mul_nonneg (velUm_nonneg (up a)) since
  have far : velUm (a.vel e) * t ≤ velUm (a.vel e) * ghostTicks :=
    Int.mul_le_mul_of_nonneg_left until' (velUm_nonneg (up a))
  omega

/-- The face that an entity turns its back to. -/
def behind (e : EntityPacket) (axis : Axis) : Aabb :=
  point fun a => if a = axis then a.pos e - entityExtUm else a.pos e

theorem comesNear_behind (axis : Axis) : ComesNear (behind e axis) e := by
  refine ⟨0, Int.le_refl 0, by decide, overlaps_bodyAt.mpr fun a => ?_⟩
  have wide : 0 < entityExtUm := by decide
  simp only [behind, Axis.hi_point, Axis.lo_point, Int.mul_zero]
  split <;> omega

/-- The ghost of an entity that goes down an axis has left the face behind it. -/
theorem ghost_leaves {axis : Axis} (back : (axis.vel e).toInt < 0) :
    ¬ aabbOverlaps (ghostAabbOf e) (behind e axis) = true := by
  rw [overlaps_ghostAabbOf]
  intro touches
  obtain ⟨drawn, -⟩ := touches axis
  have down := velUm_neg back
  simp only [behind, Axis.hi_point, ↓reduceIte, ghostTicks] at drawn
  omega

/-- Is every number of the box one of an `int64_t`? -/
def Aabb.Int64s (box : Aabb) : Prop := ∀ a : Axis, Held (a.lo box) ∧ Held (a.hi box)

theorem int64s_behind (clear : Clear e) (axis : Axis) : (behind e axis).Int64s := by
  intro a
  have each : Held (if a = axis then a.pos e - entityExtUm else a.pos e) := by
    split
    · exact (clear a).1
    · exact held_pos e a
  simp only [behind, Axis.hi_point, Axis.lo_point]
  exact ⟨each, each⟩

end Ghosts

/-- A subscriber gets the entities of its slice. -/
theorem sent_iff {C : Type} (sub : Subscriber C) (ents : List EntityPacket) (e : EntityPacket) :
    (∃ message ∈ fanoutTick [sub] ents, e ∈ unpack message.2) ↔ e ∈ near sub.interest ents := by
  simp only [fanoutTick, List.flatMap_singleton, fanoutOne_eq]
  split
  · simp [‹near sub.interest ents = []›]
  · simp [unpack_packed]

/-- Where no sum overflows, an entity is sent to every subscriber whose box it touches now or in the next two ticks,
if the slice has room, exactly when no component of its velocity is negative. -/
theorem nothing_near_is_missed_iff (e : EntityPacket) (clear : Clear e) :
    (∀ (sub : Subscriber Unit) (ents : List EntityPacket), sub.interest.Int64s → e ∈ ents →
      (interested sub.interest ents).length ≤ maxSliceEntities → ComesNear sub.interest e →
      ∃ message ∈ fanoutTick [sub] ents, e ∈ unpack message.2) ↔ ∀ a : Axis, 0 ≤ (a.vel e).toInt := by
  simp only [sent_iff]
  constructor
  · intro complete axis
    apply Int.not_lt.mp
    intro back
    have alone : (interested (behind e axis) [e]).length ≤ maxSliceEntities :=
      Nat.le_trans (List.length_filter_le _ [e]) (Nat.le_add_left 1 63)
    have sent := complete ⟨behind e axis, ()⟩ [e] (int64s_behind clear axis) List.mem_cons_self alone
      (comesNear_behind axis)
    exact ghost_leaves back (List.mem_filter.mp (List.mem_of_mem_take sent)).2
  · intro up sub ents _ mem few comes
    unfold near
    rw [List.take_of_length_le few]
    exact List.mem_filter.mpr ⟨mem, ghost_covers up comes⟩

/-- Something at the origin that goes down the first axis is missed by someone. -/
theorem a_step_down_is_missed : ¬ ∀ (sub : Subscriber Unit) (ents : List EntityPacket), sub.interest.Int64s →
    ({ velX := -1 } : EntityPacket) ∈ ents → (interested sub.interest ents).length ≤ maxSliceEntities →
    ComesNear sub.interest { velX := -1 } →
    ∃ message ∈ fanoutTick [sub] ents, ({ velX := -1 } : EntityPacket) ∈ unpack message.2 := by
  have clear : Clear { velX := -1 } := by
    intro a
    cases a <;> simp only [Held] <;> decide
  intro complete
  exact absurd ((nothing_near_is_missed_iff { velX := -1 } clear).mp complete .x) (by decide)

end GyreWard.Fanout
