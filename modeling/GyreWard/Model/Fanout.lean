/-
Module: GyreWard.Model.Fanout
Purpose: The fan-out edge: the entity packet (`xr_grid_entity_packet.h`), the ghost box of an entity
  (`predictive_bvh.h`, with `pbvh_adapter.cpp`), and one tick sent to the subscribers of a relay (`fanout.cpp`).
Trusted boundary: human-reviewed translation of the source
Main exports: EntityPacket, encode, decode, ghostAabbMin, ghostAabbMax, Aabb, aabbOverlaps, ghostAabbOf, Subscriber,
  fanoutOne, fanoutTick, unpack
-/
import GyreWard.Lib.Fields

namespace GyreWard.Fanout

open Lib

/-! ### The packet -/

def packetSize : Nat := 100
def payloadOffset : Nat := 58
def payloadLen : Nat := 42
def offGid : Nat := 0
def offPos : Nat := 4
def offVel : Nat := 28
def offHlc : Nat := 40
def offClassOwner : Nat := 44
def offSubIndex : Nat := 48
def offRot : Nat := 52

/-- The scale of a velocity, in micrometres for each tick. -/
def vMaxUmPerTick : Int := 500000

/-- `xr_grid_entity_packet_t`. -/
@[ext] structure EntityPacket where
  gid : UInt32 := 0
  posUmX : Int64 := 0
  posUmY : Int64 := 0
  posUmZ : Int64 := 0
  velX : Int16 := 0
  velY : Int16 := 0
  velZ : Int16 := 0
  hlc : UInt32 := 0
  classOwner : UInt32 := 0
  subIndex : UInt32 := 0
  rotX : Int16 := 0
  rotY : Int16 := 0
  rotZ : Int16 := 0
  payload : Vector UInt8 payloadLen := .replicate payloadLen 0
deriving DecidableEq

/-- `xr__pu32`. -/
def pu32 (v : UInt32) : List UInt8 := littleEndian 4 v.toNat

/-- `xr__gu32`. -/
def gu32 (bytes : List UInt8) : UInt32 := .ofNat (ofLittleEndian bytes)

/-- `xr__pi64`. -/
def pi64 (v : Int64) : List UInt8 := littleEndian 8 v.toUInt64.toNat

/-- `xr__gi64`. -/
def gi64 (bytes : List UInt8) : Int64 := (UInt64.ofNat (ofLittleEndian bytes)).toInt64

/-- `xr__pi16`. -/
def pi16 (v : Int16) : List UInt8 := littleEndian 2 v.toUInt16.toNat

/-- `xr__gi16`. -/
def gi16 (bytes : List UInt8) : Int16 := (UInt16.ofNat (ofLittleEndian bytes)).toInt16

/-- The fields of a packet, where they stand on the wire. -/
def EntityPacket.fields (p : EntityPacket) : List (Nat × List UInt8) :=
  [(offGid, pu32 p.gid),
    (offPos + 0, pi64 p.posUmX), (offPos + 8, pi64 p.posUmY), (offPos + 16, pi64 p.posUmZ),
    (offVel + 0, pi16 p.velX), (offVel + 2, pi16 p.velY), (offVel + 4, pi16 p.velZ),
    (offHlc, pu32 p.hlc), (offClassOwner, pu32 p.classOwner), (offSubIndex, pu32 p.subIndex),
    (offRot + 0, pi16 p.rotX), (offRot + 2, pi16 p.rotY), (offRot + 4, pi16 p.rotZ),
    (payloadOffset, p.payload.toList)]

/-- `xr_grid_entity_packet_encode`: every byte is zero before the fields are written. -/
def encode (p : EntityPacket) : List UInt8 := writeAll (.replicate packetSize 0) p.fields

/-- `xr_grid_entity_packet_decode`. -/
def decode (bytes : List UInt8) : EntityPacket where
  gid := gu32 (slice bytes offGid 4)
  posUmX := gi64 (slice bytes (offPos + 0) 8)
  posUmY := gi64 (slice bytes (offPos + 8) 8)
  posUmZ := gi64 (slice bytes (offPos + 16) 8)
  velX := gi16 (slice bytes (offVel + 0) 2)
  velY := gi16 (slice bytes (offVel + 2) 2)
  velZ := gi16 (slice bytes (offVel + 4) 2)
  hlc := gu32 (slice bytes offHlc 4)
  classOwner := gu32 (slice bytes offClassOwner 4)
  subIndex := gu32 (slice bytes offSubIndex 4)
  rotX := gi16 (slice bytes (offRot + 0) 2)
  rotY := gi16 (slice bytes (offRot + 2) 2)
  rotZ := gi16 (slice bytes (offRot + 4) 2)
  payload := .ofFn fun i => bytes.getD (payloadOffset + i) 0

/-! ### Boxes -/

/-- `ghost_aabb_min`, where no product or sum overflows. -/
def ghostAabbMin (center ext v aHalf tau : Int) : Int :=
  let t0 := -1 * ext
  let t1 := center + t0
  let t2 := v * tau
  let t3 := aHalf * tau
  let t4 := t3 * tau
  let t5 := t2 + t4
  let t6 := -1 * t5
  t1 + t6

/-- `ghost_aabb_max`, where no product or sum overflows. -/
def ghostAabbMax (center ext v aHalf tau : Int) : Int :=
  let t0 := center + ext
  let t1 := v * tau
  let t2 := aHalf * tau
  let t3 := t2 * tau
  let t4 := t1 + t3
  t0 + t4

/-- `Aabb`. -/
structure Aabb where
  minX : Int
  maxX : Int
  minY : Int
  maxY : Int
  minZ : Int
  maxZ : Int
deriving DecidableEq, Repr

/-- `aabb_overlaps`: boxes that touch overlap. -/
def aabbOverlaps (a o : Aabb) : Bool :=
  a.minX ≤ o.maxX ∧ a.maxX ≥ o.minX ∧ a.minY ≤ o.maxY ∧ a.maxY ≥ o.minY ∧ a.minZ ≤ o.maxZ ∧ a.maxZ ≥ o.minZ

/-! ### The fan-out -/

def entityExtUm : Int := 500000
def accelHalfUm : Int := 0
def ghostTicks : Int := 2
def int16Max : Int := 32767

/-- A velocity of the wire, in micrometres for each tick. -/
def velUm (v : Int16) : Int := (v.toInt * vMaxUmPerTick).tdiv int16Max

/-- `ghost_aabb_of`. -/
def ghostAabbOf (e : EntityPacket) : Aabb :=
  let vx := velUm e.velX
  let vy := velUm e.velY
  let vz := velUm e.velZ
  { minX := ghostAabbMin e.posUmX.toInt entityExtUm vx accelHalfUm ghostTicks
    maxX := ghostAabbMax e.posUmX.toInt entityExtUm vx accelHalfUm ghostTicks
    minY := ghostAabbMin e.posUmY.toInt entityExtUm vy accelHalfUm ghostTicks
    maxY := ghostAabbMax e.posUmY.toInt entityExtUm vy accelHalfUm ghostTicks
    minZ := ghostAabbMin e.posUmZ.toInt entityExtUm vz accelHalfUm ghostTicks
    maxZ := ghostAabbMax e.posUmZ.toInt entityExtUm vz accelHalfUm ghostTicks }

/-- `subscriber_t`, with the connection that its sink sends on. -/
structure Subscriber (C : Type) where
  interest : Aabb
  conn : C

def maxSliceEntities : Nat := 64

variable {C : Type}

/-- The loop of `fanout_one`, with what it has packed. -/
def fanoutLoop (interest : Aabb) : List EntityPacket → Nat → List UInt8 → Nat × List UInt8
  | [], out, batch => (out, batch)
  | e :: rest, out, batch =>
      if out < maxSliceEntities then
        if aabbOverlaps (ghostAabbOf e) interest then fanoutLoop interest rest (out + 1) (batch ++ encode e)
        else fanoutLoop interest rest out batch
      else (out, batch)

/-- `fanout_one`: how many entities were packed, and what is handed to the sink. -/
def fanoutOne (sub : Subscriber C) (ents : List EntityPacket) : Nat × List (C × List UInt8) :=
  match fanoutLoop sub.interest ents 0 [] with
  | (out, batch) => (out, if 0 < out then [(sub.conn, batch)] else [])

/-- `fanout_tick`: what is handed to the sinks. -/
def fanoutTick (subs : List (Subscriber C)) (ents : List EntityPacket) : List (C × List UInt8) :=
  subs.flatMap fun sub => (fanoutOne sub ents).2

/-- What a receiver makes of a message: the count is the length over the size of a packet. -/
def unpack (message : List UInt8) : List EntityPacket :=
  (List.range (message.length / packetSize)).map fun i => decode (slice message (i * packetSize) packetSize)

end GyreWard.Fanout
