/-
Module: GyreWard.Model.Timer
Purpose: When the WebTransport server wakes (`wt.c`, `arm_timer`, `flush`, `wt_tick`), and what picoquic
  tells it of that (`quicctx.c`, `picoquic_get_next_wake_time`).
Trusted boundary: human-reviewed translation of the source; the packets a flush sends are left out
Main exports: Quic, nextWakeTime, Itimerspec, armTimer, wakeAt
-/

namespace GyreWard

/-- What `picoquic_quic_t` keeps of when to wake: whether a stateless packet is pending, and the wake
times of the connections, the earliest first. -/
structure Quic where
  pendingStatelessPacket : Bool
  cnxWakeTree : List UInt64
deriving DecidableEq, Repr

/-- `UINT64_MAX`. -/
def never : UInt64 := 0xffffffffffffffff

/-- `picoquic_get_next_wake_time`. -/
def nextWakeTime (quic : Quic) (currentTime : UInt64) : UInt64 :=
  if quic.pendingStatelessPacket then currentTime
  else
    match quic.cnxWakeTree.head? with
    | some first => first
    | none => never

/-- `it_value` of an `itimerspec`. -/
structure Itimerspec where
  sec : Int
  nsec : Int
deriving DecidableEq, Repr

/-- The microseconds in a timer. -/
def Itimerspec.micros (its : Itimerspec) : Int := its.sec * 1000000 + its.nsec.tdiv 1000

/-- `arm_timer`: the difference is an `uint64_t`, read as an `int64_t`. -/
def armTimer (quic : Quic) (now : UInt64) : Itimerspec :=
  let delta := (nextWakeTime quic now - now).toInt64.toInt
  let delta := if delta < 1000 then 1000 else delta
  { sec := delta.tdiv 1000000, nsec := delta.tmod 1000000 * 1000 }

/-- When the server wakes for the `n`-th time, from a flush at `now` on: every wake flushes, and every
flush arms the timer. -/
def wakeAt (quic : Quic) (now : UInt64) : Nat → UInt64
  | 0 => now
  | n + 1 => wakeAt quic (now + UInt64.ofInt (armTimer quic now).micros) n

end GyreWard
