import Summer.Net.TcpServer
import Mathlib.Data.List.Nodup

/-!
# The names of the accepted connections

The names of two connections are different as long as the number of each fits into what the
address leaves of the array, and then the map has each connection that was not removed under its
own name. The first number that does not fit has the name of an earlier one.
-/
namespace Summer.Net

open Summer.Lib

/-- The connections are numbered as they are accepted: `accepted` has their names, and `removed`
those for which `removeConnectionInLoop` was called. -/
structure NamedConnections where
  server : TcpServer Nat
  accepted : List Name := []
  removed : List Nat := []

namespace NamedConnections

inductive Action where
  | newConnection
  | removeConnectionInLoop (conn : Nat)
  deriving DecidableEq

def init (name : Name) (addr : InetAddress) : NamedConnections where
  server := .init name addr

/-- `nextConnId_` is an `int`. Each connection is closed once, in any order. -/
def step (s : NamedConnections) : Action → Except Fault NamedConnections
  | .newConnection => do
    ensure (s.server.nextConnId < 2 ^ 31) .notEnabled
    .ok { s with
      server := s.server.newConnection s.accepted.length
      accepted := s.accepted ++ [s.server.connName] }
  | .removeConnectionInLoop conn =>
    match s.accepted[conn]? with
    | none => .error .notEnabled
    | some getName => do
      ensure (conn ∉ s.removed) .notEnabled
      let server ← s.server.removeConnectionInLoop getName
      .ok { s with server := server, removed := conn :: s.removed }

/-- No two connections have one name, and `connections_` has exactly those that were not
removed. -/
structure Unique (s : NamedConnections) : Prop where
  distinct : s.accepted.Nodup
  found : ∀ getName conn, s.server.connections getName = some conn ↔
    s.accepted[conn]? = some getName ∧ conn ∉ s.removed

variable {as : List Action} {a : Action} {s s' : NamedConnections} {name : Name}
  {addr : InetAddress} {conn : Nat}

/-! ## What each step does -/

theorem newConnection_ok (h : step s .newConnection = .ok s') : s' = { s with
    server := s.server.newConnection s.accepted.length
    accepted := s.accepted ++ [s.server.connName] } := by
  obtain ⟨_, -, h⟩ := bind_eq_ok.mp h
  cases h
  rfl

theorem remove_ok (h : step s (.removeConnectionInLoop conn) = .ok s') : ∃ getName,
    s.accepted[conn]? = some getName ∧ conn ∉ s.removed ∧
    s' = { s with
      server := { s.server with
        connections := Function.update s.server.connections getName none }
      removed := conn :: s.removed } := by
  rw [step] at h
  split at h
  · cases h
  · rename_i getName hname
    obtain ⟨_, hen, h⟩ := bind_eq_ok.mp h
    obtain ⟨server, hserver, h⟩ := bind_eq_ok.mp h
    obtain ⟨_, -, hserver⟩ := bind_eq_ok.mp hserver
    cases hserver
    cases h
    exact ⟨getName, hname, ensure_eq_ok.mp hen, rfl⟩

/-! ## The numbers -/

/-- Connection `n`, counted from zero, has the number `n + 1` in its name. -/
structure Numbered (name : Name) (addr : InetAddress) (s : NamedConnections) : Prop where
  prefixes : s.server.name = name ∧ s.server.hostPort = addr.toHostPort
  next : s.server.nextConnId = s.accepted.length + 1
  accepted : s.accepted = (List.range s.accepted.length).map fun n =>
    TcpServer.connNameOf name addr.toHostPort (n + 1)
  removed : ∀ conn ∈ s.removed, conn < s.accepted.length

theorem init_numbered : Numbered name addr (init name addr) :=
  ⟨⟨rfl, rfl⟩, rfl, rfl, nofun⟩

theorem Numbered.connName (h : Numbered name addr s) : s.server.connName =
    TcpServer.connNameOf name addr.toHostPort (s.accepted.length + 1) := by
  rw [TcpServer.connName, h.prefixes.1, h.prefixes.2, h.next]

theorem numbered_step (h : Numbered name addr s) (hs : step s a = .ok s') :
    Numbered name addr s' := by
  cases a with
  | newConnection =>
    rw [newConnection_ok hs]
    have hlen : (s.accepted ++ [s.server.connName]).length = s.accepted.length + 1 := by
      rw [List.length_append, List.length_singleton]
    refine ⟨h.prefixes, ?_, ?_, fun conn hconn => ?_⟩
    · rw [hlen, ← h.next]
      rfl
    · rw [hlen, List.range_succ, List.map_append, ← h.accepted, h.connName]
      rfl
    · rw [hlen]
      exact Nat.lt_succ_of_lt (h.removed conn hconn)
  | removeConnectionInLoop conn =>
    obtain ⟨getName, hname, -, rfl⟩ := remove_ok hs
    refine ⟨h.prefixes, h.next, h.accepted, fun c hc => ?_⟩
    rcases List.mem_cons.mp hc with rfl | hc
    · exact (List.getElem?_eq_some_iff.mp hname).1
    · exact h.removed c hc

/-- How many connections a server with this address can tell apart. -/
def capacity (addr : InetAddress) : Nat := 10 ^ TcpServer.room addr.toHostPort

theorem Numbered.nodup_iff (h : Numbered name addr s) :
    s.accepted.Nodup ↔ s.accepted.length < capacity addr := by
  have haddr : addr.toHostPort.length < 29 :=
    Nat.lt_of_le_of_lt addr.length_toHostPort (by decide)
  have hroom : 0 < TcpServer.room addr.toHostPort := Nat.sub_pos_of_lt haddr
  constructor
  · intro hnodup
    by_contra hge
    -- the connections with the numbers `10 ^ room` and `10 ^ (room - 1)`
    have hpos : 0 < 10 ^ (TcpServer.room addr.toHostPort - 1) := Nat.pow_pos (by decide)
    have hlt : 10 ^ (TcpServer.room addr.toHostPort - 1) < capacity addr :=
      Nat.pow_lt_pow_right (by decide) (Nat.sub_lt hroom Nat.one_pos)
    rw [h.accepted] at hnodup
    have hinj := List.inj_on_of_nodup_map hnodup
      (List.mem_range.mpr (show capacity addr - 1 < s.accepted.length by omega))
      (List.mem_range.mpr
        (show 10 ^ (TcpServer.room addr.toHostPort - 1) - 1 < s.accepted.length by omega))
    have hcap : capacity addr - 1 + 1 = 10 ^ TcpServer.room addr.toHostPort :=
      Nat.sub_add_cancel (Nat.lt_of_lt_of_le hpos hlt.le)
    rw [hcap, Nat.sub_add_cancel hpos] at hinj
    have hsame := hinj (TcpServer.connNameOf_collides haddr)
    omega
  · intro hlt
    rw [h.accepted]
    refine List.Nodup.map_on ?_ List.nodup_range
    intro n hn m hm he
    have hn := List.mem_range.mp hn
    have hm := List.mem_range.mp hm
    rw [capacity] at hlt
    have hsame := TcpServer.connNameOf_inj haddr (by omega) (by omega) he
    omega

/-! ## The map -/

theorem init_unique : (init name addr).Unique :=
  ⟨List.nodup_nil, fun _ _ => iff_of_false nofun nofun⟩

/-- Two connections with the same name are one. -/
theorem Unique.eq (h : s.Unique) {conn conn' : Nat} {getName : Name}
    (hc : s.accepted[conn]? = some getName) (hc' : s.accepted[conn']? = some getName) :
    conn = conn' :=
  (List.getElem?_inj (List.getElem?_eq_some_iff.mp hc).1 h.distinct).mp (hc.trans hc'.symm)

theorem Unique.newConnection (h : s.Unique) (hn : Numbered name addr s)
    (hnodup : (s.accepted ++ [s.server.connName]).Nodup) : Unique { s with
      server := s.server.newConnection s.accepted.length
      accepted := s.accepted ++ [s.server.connName] } := by
  refine ⟨hnodup, fun getName conn => ?_⟩
  have hlast : (s.accepted ++ [s.server.connName])[s.accepted.length]? = some s.server.connName :=
    List.getElem?_concat_length
  show Function.update s.server.connections s.server.connName _ getName = _ ↔ _
  by_cases hg : getName = s.server.connName
  · subst hg
    rw [Function.update_self, Option.some_inj]
    constructor
    · intro hconn
      subst hconn
      exact ⟨hlast, fun hr => absurd (hn.removed _ hr) (Nat.lt_irrefl _)⟩
    · intro hconn
      have hlt := (List.getElem?_eq_some_iff.mp hlast).1
      exact (List.getElem?_inj hlt hnodup).mp (hlast.trans hconn.1.symm)
  · rw [Function.update_of_ne hg, h.found getName conn]
    refine and_congr_left fun _ => ?_
    rw [List.getElem?_append]
    split
    · exact Iff.rfl
    · rename_i hge
      rw [List.getElem?_eq_none (Nat.le_of_not_lt hge), List.getElem?_singleton]
      split
      · exact iff_of_false nofun fun he => hg (Option.some_inj.mp he).symm
      · exact Iff.rfl

theorem Unique.removed (h : s.Unique) {getName : Name} (hname : s.accepted[conn]? = some getName) :
    Unique { s with
      server := { s.server with
        connections := Function.update s.server.connections getName none }
      removed := conn :: s.removed } := by
  refine ⟨h.distinct, fun g c => ?_⟩
  show Function.update s.server.connections getName none g = _ ↔ _
  by_cases hg : g = getName
  · subst hg
    rw [Function.update_self]
    refine iff_of_false nofun fun hc => hc.2 ?_
    rw [h.eq hc.1 hname]
    exact List.mem_cons_self
  · rw [Function.update_of_ne hg, h.found g c]
    refine and_congr_right fun hc => ?_
    have hne : c ≠ conn := by
      intro he
      rw [he, hname] at hc
      exact hg (Option.some_inj.mp hc).symm
    rw [List.mem_cons, not_or]
    exact (and_iff_right hne).symm

theorem unique_step (h : s.Unique) (hn : Numbered name addr s) (hs : step s a = .ok s')
    (hlt : s'.accepted.length < capacity addr) : s'.Unique := by
  have hnodup := (numbered_step hn hs).nodup_iff.mpr hlt
  cases a with
  | newConnection =>
    cases newConnection_ok hs
    exact h.newConnection hn hnodup
  | removeConnectionInLoop conn =>
    obtain ⟨getName, hname, -, rfl⟩ := remove_ok hs
    exact h.removed hname

/-! ## Runs -/

theorem length_step (hs : step s a = .ok s') :
    s'.accepted.length = s.accepted.length + [a].count .newConnection := by
  cases a with
  | newConnection =>
    rw [newConnection_ok hs]
    exact List.length_append
  | removeConnectionInLoop conn =>
    obtain ⟨getName, -, -, rfl⟩ := remove_ok hs
    rfl

theorem length_run (hrun : run step (init name addr) as = .ok s) :
    s.accepted.length = as.count .newConnection := by
  refine run_history (J := fun as s => s.accepted.length = as.count .newConnection) rfl ?_ hrun
  intro as t a u _ ht hs
  rw [length_step hs, ht, List.count_append]

theorem numbered_run (hrun : run step (init name addr) as = .ok s) : Numbered name addr s :=
  run_preserves (fun _ _ _ h hs => numbered_step h hs) init_numbered hrun

theorem unique_run (hrun : run step (init name addr) as = .ok s)
    (hlt : s.accepted.length < capacity addr) : s.Unique := by
  have hinv : s.accepted.length < capacity addr → s.Unique := by
    refine run_history (J := fun _ s => s.accepted.length < capacity addr → s.Unique)
      (fun _ => init_unique) ?_ hrun
    intro as t a u ht ih hs hlt
    have hle : t.accepted.length ≤ u.accepted.length := length_step hs ▸ Nat.le_add_right ..
    exact unique_step (ih (Nat.lt_of_le_of_lt hle hlt)) (numbered_run ht) hs hlt
  exact hinv hlt

/-- A connection that is found under its name is removed. -/
theorem remove_ne_assertion (h : s.Unique) :
    step s a ≠ .error (.assertion .removeConnectionInLoop) := by
  intro hs
  cases a with
  | newConnection =>
    rcases ensure_bind_eq_error.mp hs with ⟨-, he⟩ | ⟨-, he⟩ <;> cases he
  | removeConnectionInLoop conn =>
    rw [step] at hs
    split at hs
    · cases hs
    · rename_i getName hname
      rcases ensure_bind_eq_error.mp hs with ⟨-, he⟩ | ⟨hconn, hs⟩
      · cases he
      · have hfound := (h.found getName conn).mpr ⟨hname, hconn⟩
        rw [TcpServer.removeConnectionInLoop, ensure_of (by rw [hfound]; nofun)] at hs
        cases hs

/-- The connections of a server have different names, and each is found and removed under its
own, exactly as long as their number stays below what the address leaves room for. -/
theorem connection_names_unique_iff (name : Name) (addr : InetAddress) (as : List Action) :
    (∀ s, run step (init name addr) as = .ok s →
      (s.Unique ↔ s.accepted.length < capacity addr)) ∧
    (as.count .newConnection < capacity addr →
      run step (init name addr) as ≠ .error (.assertion .removeConnectionInLoop)) := by
  constructor
  · intro s hrun
    exact ⟨fun h => (numbered_run hrun).nodup_iff.mp h.distinct, unique_run hrun⟩
  · intro hlt hrun
    obtain ⟨pre, a, post, t, rfl, hpre, hs⟩ := run_error_split hrun
    rw [List.count_append] at hlt
    refine remove_ne_assertion (unique_run hpre ?_) hs
    rw [length_run hpre]
    omega

/-! ## A name that comes back -/

/-- Connections are accepted and none is closed. -/
theorem accept_run (name : Name) (addr : InetAddress) {n : Nat} (hn : n < 2 ^ 31) :
    ∃ s, run step (init name addr) (List.replicate n .newConnection) = .ok s ∧
      s.removed = [] := by
  induction n with
  | zero => exact ⟨_, rfl, rfl⟩
  | succ n ih =>
    obtain ⟨s, hrun, hremoved⟩ := ih (Nat.lt_of_succ_lt hn)
    have hlen : s.accepted.length = n := by
      rw [length_run hrun, List.count_replicate_self]
    have hnext : s.server.nextConnId < 2 ^ 31 := by
      rw [(numbered_run hrun).next, hlen]
      exact hn
    have hs : step s .newConnection = .ok { s with
        server := s.server.newConnection s.accepted.length
        accepted := s.accepted ++ [s.server.connName] } := by
      rw [step, ensure_of hnext, ok_bind]
    rw [List.replicate_succ']
    exact ⟨_, run_append_ok.mpr ⟨s, hrun, run_cons_ok.mpr ⟨_, hs, rfl⟩⟩, hremoved⟩

/-- An accept that takes the name of an earlier connection takes its place in the map. -/
theorem Unique.overwritten (h : s.Unique) (hs : step s .newConnection = .ok s')
    (hname : s.accepted[conn]? = some s.server.connName) (getName : Name) :
    s'.server.connections getName ≠ some conn := by
  rw [newConnection_ok hs]
  show Function.update s.server.connections s.server.connName _ getName ≠ _
  by_cases hg : getName = s.server.connName
  · subst hg
    rw [Function.update_self]
    intro he
    have hlt := (List.getElem?_eq_some_iff.mp hname).1
    exact absurd (Option.some_inj.mp he) (Nat.ne_of_gt hlt)
  · rw [Function.update_of_ne hg]
    intro he
    have hfound := ((h.found getName conn).mp he).1
    exact hg (Option.some_inj.mp (hfound.symm.trans hname))

/-- With the longest address connection number 100000000 gets the name of number 10000000, which
`connections_` loses. -/
theorem connection_name_repeated :
    ∃ s, run step (init [] ⟨255, 255, 255, 255, 65535⟩)
        (List.replicate (99999999 + 1) .newConnection) = .ok s ∧ s.removed = [] ∧
      s.accepted[9999999]? = s.accepted[99999999]? ∧
      ∀ getName, s.server.connections getName ≠ some 9999999 := by
  have hroom : TcpServer.room (InetAddress.toHostPort ⟨255, 255, 255, 255, 65535⟩) = 8 := by
    decide +kernel
  obtain ⟨s, hrun, hremoved⟩ := accept_run [] ⟨255, 255, 255, 255, 65535⟩
    (show 99999999 + 1 < 2 ^ 31 by decide)
  have hlen : s.accepted.length = 99999999 + 1 := by
    rw [length_run hrun, List.count_replicate_self]
  rw [List.replicate_succ'] at hrun
  obtain ⟨t, hpre, hlast⟩ := run_append_ok.mp hrun
  obtain ⟨u, hs, hu⟩ := run_cons_ok.mp hlast
  cases hu
  have hpreLen : t.accepted.length = 99999999 := by
    rw [length_run hpre, List.count_replicate_self]
  have hcap : capacity ⟨255, 255, 255, 255, 65535⟩ = 99999999 + 1 := by
    rw [capacity, hroom]
    rfl
  have hunique : t.Unique := unique_run hpre (by rw [hcap, hpreLen]; exact Nat.lt_succ_self _)
  -- connection `n` has the name of number `n + 1`
  have hnames : ∀ n < 99999999, t.accepted[n]? = some (TcpServer.connNameOf []
      (InetAddress.toHostPort ⟨255, 255, 255, 255, 65535⟩) (n + 1)) := by
    intro n hn
    rw [(numbered_run hpre).accepted, List.getElem?_map, List.getElem?_range (hpreLen ▸ hn)]
    rfl
  have hsame : t.accepted[9999999]? = some t.server.connName := by
    have hcollides := @TcpServer.connNameOf_collides []
      (InetAddress.toHostPort ⟨255, 255, 255, 255, 65535⟩) (by decide +kernel)
    rw [hroom] at hcollides
    rw [hnames _ (by decide), (numbered_run hpre).connName, hpreLen]
    exact congrArg some hcollides.symm
  refine ⟨s, ?_, hremoved, ?_, hunique.overwritten hs hsame⟩
  · rw [List.replicate_succ']
    exact hrun
  · rw [newConnection_ok hs]
    show (t.accepted ++ [t.server.connName])[9999999]? =
      (t.accepted ++ [t.server.connName])[99999999]?
    rw [List.getElem?_append_left (by rw [hpreLen]; decide), hsame, ← hpreLen,
      List.getElem?_concat_length]

end NamedConnections

end Summer.Net
