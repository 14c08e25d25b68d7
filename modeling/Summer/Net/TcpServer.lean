import Summer.Basic
import Summer.Lib.Run
import Summer.Lib.Decimal
import Mathlib.Logic.Function.Basic

/-!
# The connections of a server

A server keeps its connections in a map under their names. A name is that of the server, its
address and the number of the connection, and all but the name of the server are written into an
array of 32 characters, which `snprintf` cuts off.
-/
namespace Summer.Net

open Summer.Lib

/-- The characters of a `std::string`. -/
abbrev Name := List Char

structure InetAddress where
  a : BitVec 8
  b : BitVec 8
  c : BitVec 8
  d : BitVec 8
  port : BitVec 16
  deriving DecidableEq, Repr

/-- The string in an array of `size` characters, the last of which ends it. -/
def snprintf (size : Nat) (text : Name) : Name := text.take (size - 1)

def inet_ntop (addr : InetAddress) : Name :=
  decimal addr.a.toNat ++ '.' :: decimal addr.b.toNat ++ '.' :: decimal addr.c.toNat ++
    '.' :: decimal addr.d.toNat

def InetAddress.toHostPort (addr : InetAddress) : Name :=
  snprintf 32 (inet_ntop addr ++ ':' :: decimal addr.port.toNat)

/-- `C` is the type of `TcpConnectionPtr`. -/
structure TcpServer (C : Type) where
  name : Name
  hostPort : Name
  nextConnId : Nat := 1
  connections : Name → Option C := fun _ => none

namespace TcpServer

variable {C : Type}

/-- The name of connection number `n`. -/
def connNameOf (name hostPort : Name) (n : Nat) : Name :=
  name ++ snprintf 32 (':' :: hostPort ++ '-' :: decimal n)

/-- The name that `newConnection` builds. -/
def connName (s : TcpServer C) : Name := connNameOf s.name s.hostPort s.nextConnId

def init (name : Name) (addr : InetAddress) : TcpServer C where
  name := name
  hostPort := addr.toHostPort

def newConnection (s : TcpServer C) (conn : C) : TcpServer C :=
  { s with
    nextConnId := s.nextConnId + 1
    connections := Function.update s.connections s.connName (some conn) }

/-- `getName` is the name of the connection that is removed. -/
def removeConnectionInLoop (s : TcpServer C) (getName : Name) : Except Fault (TcpServer C) := do
  ensure (s.connections getName ≠ none) (.assertion .removeConnectionInLoop)
  .ok { s with connections := Function.update s.connections getName none }

end TcpServer

/-! ## The length of an address -/

theorem length_decimal_octet (n : BitVec 8) : (decimal n.toNat).length ≤ 3 :=
  (length_decimal_le_iff (by decide)).mpr (n.isLt.trans (by decide))

/-- An address is never cut off. -/
theorem InetAddress.length_toHostPort (addr : InetAddress) : addr.toHostPort.length ≤ 21 := by
  have ha := length_decimal_octet addr.a
  have hb := length_decimal_octet addr.b
  have hc := length_decimal_octet addr.c
  have hd := length_decimal_octet addr.d
  have hport : (decimal addr.port.toNat).length ≤ 5 :=
    (length_decimal_le_iff (by decide)).mpr (addr.port.isLt.trans (by decide))
  have htext : (inet_ntop addr ++ ':' :: decimal addr.port.toNat).length ≤ 21 := by
    simp only [inet_ntop, List.length_append, List.length_cons]
    omega
  exact (List.length_take_le' _ _).trans htext

/-! ## Names -/

/-- How many digits of the number are left of it. -/
def TcpServer.room (hostPort : Name) : Nat := 29 - hostPort.length

namespace TcpServer

variable {name hostPort : Name} {n m : Nat}

theorem connNameOf_eq (h : hostPort.length ≤ 29) (n : Nat) : connNameOf name hostPort n =
    name ++ ':' :: (hostPort ++ '-' :: (decimal n).take (room hostPort)) := by
  have hlen : 32 - 1 - (':' :: hostPort).length = room hostPort + 1 := by
    rw [room, List.length_cons]
    omega
  rw [connNameOf, snprintf, List.take_append, hlen, List.take_succ_cons,
    List.take_of_length_le (by omega)]
  rfl

theorem connNameOf_inj_iff (h : hostPort.length ≤ 29) :
    connNameOf name hostPort n = connNameOf name hostPort m ↔
      (decimal n).take (room hostPort) = (decimal m).take (room hostPort) := by
  rw [connNameOf_eq h, connNameOf_eq h]
  simp

/-- As long as the numbers fit, their names are different. -/
theorem connNameOf_inj (h : hostPort.length < 29) (hn : n < 10 ^ room hostPort)
    (hm : m < 10 ^ room hostPort) (he : connNameOf name hostPort n = connNameOf name hostPort m) :
    n = m := by
  have hroom : 0 < room hostPort := Nat.sub_pos_of_lt h
  have htake := (connNameOf_inj_iff (Nat.le_of_lt h)).mp he
  rw [take_decimal hroom hn, take_decimal hroom hm] at htake
  exact decimal_injective htake

/-- The first number that does not fit has the name of an earlier one. -/
theorem connNameOf_collides (h : hostPort.length < 29) :
    connNameOf name hostPort (10 ^ room hostPort) =
      connNameOf name hostPort (10 ^ (room hostPort - 1)) :=
  (connNameOf_inj_iff (Nat.le_of_lt h)).mpr (take_decimal_pow (Nat.sub_pos_of_lt h))

end TcpServer

end Summer.Net
