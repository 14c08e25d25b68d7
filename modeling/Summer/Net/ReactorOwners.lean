import Summer.Net.ConnectionSpec
import Summer.Net.Reactor

/-!
# Who refers to a connection

A connection whose channel may be registered is kept by its server or client, or by a functor that
was queued to remove or destroy it. `Accounted` says so of every connection, and that no two that
exist have one name; each operation on the parts of the state preserves it.
-/
namespace Summer.Net

open Summer.Lib

/-! ## The stages of a connection -/

namespace TcpConnection

variable {T : Type} {c c' : TcpConnection T}

/-- Not established yet. -/
structure Fresh (c : TcpConnection T) : Prop where
  state : c.state = .kConnecting
  index : c.channel.index = -1
  registered : c.poller.registered = none

/-- Its channel was removed from the poller. -/
structure Removed (c : TcpConnection T) : Prop where
  index : c.channel.index = 1
  registered : c.poller.registered = none

def Staged (c : TcpConnection T) : Prop := c.Fresh ∨ c.Registered ∨ c.Removed

theorem Registered.ne_none (h : c.Registered) : c.poller.registered ≠ none := by
  rw [h.events]
  nofun

theorem Registered.not_removed (h : c.Registered) : ¬ c.Removed := fun hr =>
  h.ne_none hr.registered

theorem Fresh.not_removed (h : c.Fresh) : ¬ c.Removed := fun hr => by
  have hindex := h.index.symm.trans hr.index
  cases hindex

theorem Staged.registered (h : c.Staged) (hreg : c.poller.registered ≠ none) : c.Registered := by
  rcases h with hfresh | hr | hremoved
  · exact absurd hfresh.registered hreg
  · exact hr
  · exact absurd hremoved.registered hreg

/-- A channel that was removed cannot be updated. -/
theorem Removed.update (h : c.Removed) (events : Events) :
    (c.setEvents events).update ≠ .ok c' := by
  intro hu
  obtain ⟨r, hr, -⟩ := bind_eq_ok.mp hu
  rw [EpollPoller.updateChannel] at hr
  split at hr
  · rename_i hneg
    have hindex : c.channel.index < 0 := hneg
    rw [h.index] at hindex
    exact absurd hindex (by decide)
  · obtain ⟨_, hne, -⟩ := bind_eq_ok.mp hr
    exact ensure_eq_ok.mp hne h.registered

theorem connectionEstablished_stage (h : c.connectionEstablished = .ok c') :
    ¬ c.Removed ∧ c'.Registered := by
  obtain ⟨_, -, h⟩ := bind_eq_ok.mp h
  refine ⟨fun hr => ?_, ?_⟩
  · exact Removed.update (c := { c with state := .kConnected }) ⟨hr.index, hr.registered⟩ _ h
  · rw [update_ok h]
    exact registered_watch _ _

theorem disableAll_stage {state : StateE} (h : { c with state := state }.disableAll = .ok c') :
    c'.Registered := by
  rw [update_ok h]
  exact registered_watch _ _

theorem connectionDestroyed_stage (hc : c.Staged) (h : c.connectionDestroyed = .ok c') :
    c'.Removed := by
  by_cases hstate : c.state = .kConnecting
  · rw [connectionDestroyed, if_pos hstate] at h
    obtain ⟨c₁, hc₁, h⟩ := bind_eq_ok.mp h
    obtain ⟨c₂, hc₂, hc₁⟩ := bind_eq_ok.mp hc₁
    obtain ⟨p, hp, h⟩ := bind_eq_ok.mp h
    obtain ⟨-, -, rfl⟩ := removeChannel_ok hp
    rw [update_ok hc₂] at hc₁
    cases hc₁
    cases h
    exact ⟨rfl, rfl⟩
  · have hreg : c.Registered := by
      refine hc.registered ?_
      rw [connectionDestroyed, if_neg hstate, ok_bind] at h
      obtain ⟨p, hp, -⟩ := bind_eq_ok.mp h
      exact (removeChannel_ok hp).1
    obtain ⟨-, rfl⟩ := connectionDestroyed_ok hstate h
    exact ⟨hreg.index, rfl⟩

/-- What a function that neither establishes nor destroys does to the stage. -/
structure Stays (c c' : TcpConnection T) : Prop where
  staged : c'.Staged
  registered : c.Registered → c'.Registered
  removed : c.Removed → c'.Removed

theorem Registered.stays (h : c'.Registered) (hc : ¬ c.Removed) : Stays c c' :=
  ⟨.inr (.inl h), fun _ => h, fun hr => absurd hr hc⟩

theorem Staged.stays (h : c.Staged) (hf : c.Fresh → c' = c) (hq : c.Registered → c'.Registered)
    (hr : c.Removed → c'.Removed) : Stays c c' := by
  refine ⟨?_, hq, hr⟩
  rcases h with hfresh | hreg | hremoved
  · rw [hf hfresh]
    exact .inl hfresh
  · exact .inr (.inl (hq hreg))
  · exact .inr (.inr (hr hremoved))

theorem Staged.send {message : Bytes} {nwrite : Int} (h : c.Staged)
    (hs : (if c.state = .kConnected then c.sendInLoop message nwrite else .ok c) = .ok c') :
    Stays c c' := by
  split at hs
  · rename_i hstate
    refine h.stays (fun hfresh => ?_) (sendInLoop_spec hs).quiet.registered fun hremoved => ?_
    · rw [hfresh.state] at hstate
      cases hstate
    · obtain ⟨hchannel, hpoller⟩ := sendInLoop_removed hremoved.index hremoved.registered hs
      exact ⟨hchannel ▸ hremoved.index, hpoller ▸ hremoved.registered⟩
  · cases hs
    exact ⟨h, id, id⟩

theorem Staged.shutdown (h : c.Staged) : Stays c c.shutdown := by
  have hs := shutdown_spec c
  refine h.stays (fun hfresh => ?_) hs.quiet.registered fun hremoved => ?_
  · exact shutdown_of_ne (by rw [hfresh.state]; nofun)
  · exact ⟨hs.channel ▸ hremoved.index, hs.poller ▸ hremoved.registered⟩

end TcpConnection

/-! ## References -/

variable {L S C T : Type}

/-- The connection that the functor is bound with. -/
def ReactorFunctor.conn : ReactorFunctor S C → Option (ConnId S C)
  | .connectionEstablished conn | .connectionDestroyed conn | .writeCompleteCallback conn =>
    some conn
  | .removeConnectionInLoop server nextConnId => some (.server server nextConnId)
  | .startInLoop _ | .resetChannel _ => none

/-- The connection that the functor was queued to remove or destroy. -/
def ReactorFunctor.ends : ReactorFunctor S C → Option (ConnId S C)
  | .connectionDestroyed conn => some conn
  | .removeConnectionInLoop server nextConnId => some (.server server nextConnId)
  | .connectionEstablished _ | .writeCompleteCallback _ | .startInLoop _ | .resetChannel _ => none

theorem ReactorFunctor.conn_of_ends {f : ReactorFunctor S C} {conn : ConnId S C}
    (h : f.ends = some conn) : f.conn = some conn := by
  cases f <;> first | exact h | cases h

namespace ReactorLoop

/-- The functors that were not called yet. -/
def queue (x : ReactorLoop S C) : List (ReactorFunctor S C) :=
  match x.phase with
  | .running _ functors => functors ++ x.eventLoop.pendingFunctors
  | _ => x.eventLoop.pendingFunctors

/-- All functors, which are destroyed with their batch. -/
def bound (x : ReactorLoop S C) : List (ReactorFunctor S C) := x.called ++ x.queue

theorem queue_running {x : ReactorLoop S C} {called functors : List (ReactorFunctor S C)}
    (h : x.phase = .running called functors) :
    x.queue = functors ++ x.eventLoop.pendingFunctors := by
  rw [queue, h]

/-- Outside `doPendingFunctor` all functors are in the queue. -/
theorem queue_idle {x : ReactorLoop S C}
    (h : ∀ called functors, x.phase ≠ .running called functors) :
    x.queue = x.eventLoop.pendingFunctors ∧ x.bound = x.eventLoop.pendingFunctors := by
  cases hphase : x.phase with
  | running called functors => exact absurd hphase (h called functors)
  | between | handling current callbacks active =>
    rw [bound, called, queue, hphase]
    exact ⟨rfl, rfl⟩

end ReactorLoop

namespace Reactor

/-- A server or a client has the connection, or is creating it. -/
def Owned (s : Reactor L S C T) : ConnId S C → Prop
  | .server server n => (∃ name, (s.servers server).connections name = some n) ∨
      ∃ l, (s.loops l).within = .inserting server n
  | .client client n => (s.clients client).connection = some n

/-- Someone has a `TcpConnectionPtr`. -/
def Held (s : Reactor L S C T) (conn : ConnId S C) : Prop :=
  s.Owned conn ∨ conn ∈ s.copies ∨ ∃ l, ∃ f ∈ (s.loops l).bound, f.conn = some conn

/-- The connection is about to be removed or destroyed. -/
def Ending (s : Reactor L S C T) (conn : ConnId S C) : Prop :=
  ∃ l, ∃ f ∈ (s.loops l).queue, f.ends = some conn

def Kept (s : Reactor L S C T) (conn : ConnId S C) : Prop := s.Owned conn ∨ s.Ending conn

/-- Every connection but `ex` is kept until its channel was removed. -/
structure Accounted (s : Reactor L S C T) (ex : Option (ConnId S C)) : Prop where
  kept : ∀ conn c, s.conns conn = some c → c.conn.Removed ∨ s.Kept conn ∨ ex = some conn
  staged : ∀ conn c, s.conns conn = some c → c.conn.Staged
  named : ∀ server name n, (s.servers server).connections name = some n →
    name = (s.servers server).getName n
  distinct : ∀ server n n', s.Held (.server server n) → s.Held (.server server n') →
    (s.servers server).getName n = (s.servers server).getName n' → n = n'

variable {s : Reactor L S C T} {conn : ConnId S C} {ex : Option (ConnId S C)}

theorem Owned.held (h : s.Owned conn) : s.Held conn := .inl h

theorem Kept.held (h : s.Kept conn) : s.Held conn := by
  rcases h with howned | ⟨l, f, hf, hends⟩
  · exact .inl howned
  · exact .inr (.inr ⟨l, f, List.mem_append_right _ hf, ReactorFunctor.conn_of_ends hends⟩)

/-- An exempt connection is the only one that may be unaccounted for. -/
theorem Accounted.weaken (h : s.Accounted none) : s.Accounted ex := by
  refine ⟨fun conn c hc => ?_, h.staged, h.named, h.distinct⟩
  rcases h.kept conn c hc with hremoved | hkept | hnone
  · exact .inl hremoved
  · exact .inr (.inl hkept)
  · cases hnone

variable [DecidableEq L] {l : L} {x : ReactorLoop S C}

/-! ## The loops -/

@[simp] theorem setLoop_self : (s.setLoop l x).loops l = x := Function.update_self ..

theorem setLoop_of_ne {l' : L} (h : l' ≠ l) : (s.setLoop l x).loops l' = s.loops l' :=
  Function.update_of_ne h ..

theorem exists_of_setLoop {P : ReactorLoop S C → Prop} (h : ∃ l', P ((s.setLoop l x).loops l')) :
    P x ∨ ∃ l', P (s.loops l') := by
  rcases (Function.exists_update_iff s.loops (p := fun _ y => P y)).mp h with hx | ⟨l', -, hl'⟩
  · exact .inl hx
  · exact .inr ⟨l', hl'⟩

theorem exists_setLoop {P : ReactorLoop S C → Prop} (h : ∃ l', P (s.loops l'))
    (hx : P (s.loops l) → P x) : ∃ l', P ((s.setLoop l x).loops l') := by
  refine (Function.exists_update_iff s.loops (p := fun _ y => P y)).mpr ?_
  obtain ⟨l', hl'⟩ := h
  by_cases he : l' = l
  · exact .inl (hx (he ▸ hl'))
  · exact .inr ⟨l', he, hl'⟩

/-- A thread enters no `newConnection` of a server, and leaves one behind the assignment only. -/
structure Inside (s : Reactor L S C T) (x y : ReactorLoop S C) : Prop where
  leaves : ∀ server n, x.within = .inserting server n →
    y.within = .inserting server n ∨ ∃ name, (s.servers server).connections name = some n
  enters : ∀ server n, y.within = .inserting server n → x.within = .inserting server n

omit [DecidableEq L] in
theorem inside_of_eq {y : ReactorLoop S C} (h : y.within = x.within) : s.Inside x y :=
  ⟨fun _ _ hx => .inl (h.trans hx), fun _ _ hy => h.symm.trans hy⟩

theorem owned_setLoop (hx : s.Inside (s.loops l) x) :
    (s.setLoop l x).Owned conn ↔ s.Owned conn := by
  cases conn with
  | client client n => exact Iff.rfl
  | server server n =>
    constructor
    · rintro (hname | hwithin)
      · exact .inl hname
      · rcases exists_of_setLoop (P := fun y => y.within = .inserting server n) hwithin with h | h
        · exact .inr ⟨l, hx.enters server n h⟩
        · exact .inr h
    · rintro (hname | ⟨l', hl'⟩)
      · exact .inl hname
      · by_cases he : l' = l
        · rcases hx.leaves server n (he ▸ hl') with h | h
          · exact .inr ⟨l, (congrArg _ setLoop_self).trans h⟩
          · exact .inl h
        · exact .inr ⟨l', (congrArg _ (setLoop_of_ne he)).trans hl'⟩

theorem owned_of_within (h : x.within = (s.loops l).within) :
    (s.setLoop l x).Owned conn ↔ s.Owned conn := owned_setLoop (inside_of_eq h)

/-- The loop `x` is replaced by `y`: it lets go of no functor that ends a connection other than
`ex`, and takes up none with a connection that does not exist. -/
structure Shifts (s : Reactor L S C T) (ex : Option (ConnId S C)) (x y : ReactorLoop S C) :
    Prop where
  inside : s.Inside x y
  queue : ∀ f ∈ x.queue, ∀ conn, f.ends = some conn → f ∈ y.queue ∨ ex = some conn
  bound : ∀ f ∈ y.bound, ∀ conn, f.conn = some conn → f ∈ x.bound ∨ s.Held conn

theorem held_of_setLoop (hx : s.Shifts ex (s.loops l) x) (h : (s.setLoop l x).Held conn) :
    s.Held conn := by
  rcases h with howned | hcopy | hbound
  · exact .inl ((owned_setLoop hx.inside).mp howned)
  · exact .inr (.inl hcopy)
  · rcases exists_of_setLoop (P := fun y => ∃ f ∈ y.bound, f.conn = some conn) hbound with
      ⟨f, hf, hconn⟩ | h
    · rcases hx.bound f hf conn hconn with h | h
      · exact .inr (.inr ⟨l, f, h, hconn⟩)
      · exact h
    · exact .inr (.inr h)

theorem kept_setLoop (hx : s.Shifts ex (s.loops l) x) (h : s.Kept conn) :
    (s.setLoop l x).Kept conn ∨ ex = some conn := by
  by_cases hex : ex = some conn
  · exact .inr hex
  · refine .inl ?_
    rcases h with howned | hqueue
    · exact .inl ((owned_setLoop hx.inside).mpr howned)
    · refine .inr (exists_setLoop (P := fun y => ∃ f ∈ y.queue, f.ends = some conn) hqueue ?_)
      rintro ⟨f, hf, hends⟩
      exact ⟨f, (hx.queue f hf conn hends).resolve_right hex, hends⟩

theorem Accounted.setLoop (h : s.Accounted ex) (hx : s.Shifts ex (s.loops l) x) :
    (s.setLoop l x).Accounted ex := by
  refine ⟨fun conn c hc => ?_, h.staged, h.named, fun server n n' hn hn' => ?_⟩
  · rcases h.kept conn c hc with hremoved | hkept | hex
    · exact .inl hremoved
    · exact .inr (kept_setLoop hx hkept)
    · exact .inr (.inr hex)
  · exact h.distinct server n n' (held_of_setLoop hx hn) (held_of_setLoop hx hn')

/-! ## The queues -/

section

variable {e : EventLoop (ReactorFunctor S C)} {f : ReactorFunctor S C}

theorem queue_push (he : e.pendingFunctors = x.eventLoop.pendingFunctors ++ [f]) :
    { x with eventLoop := e }.queue = x.queue ++ [f] := by
  rw [ReactorLoop.queue, ReactorLoop.queue, he]
  cases x.phase with
  | running called functors => exact (List.append_assoc ..).symm
  | between | handling current callbacks active => rfl

theorem bound_push (he : e.pendingFunctors = x.eventLoop.pendingFunctors ++ [f]) :
    { x with eventLoop := e }.bound = x.bound ++ [f] := by
  rw [ReactorLoop.bound, queue_push he, ← List.append_assoc]
  rfl

/-- What a functor refers to that is queued. -/
theorem held_of_push (he : e.pendingFunctors = (s.loops l).eventLoop.pendingFunctors ++ [f])
    (h : (s.setLoop l { s.loops l with eventLoop := e }).Held conn) :
    s.Held conn ∨ f.conn = some conn := by
  rcases h with (howned | hcopy | hbound)
  · exact .inl (.inl ((owned_of_within (by rfl)).mp howned))
  · exact .inl (.inr (.inl hcopy))
  · rcases exists_of_setLoop (P := fun y => ∃ f ∈ y.bound, f.conn = some conn) hbound with
      ⟨g, hg, hconn⟩ | h
    · rw [bound_push he] at hg
      rcases List.mem_append.mp hg with hg | hg
      · exact .inl (.inr (.inr ⟨l, g, hg, hconn⟩))
      · rw [List.mem_singleton.mp hg] at hconn
        exact .inr hconn
    · exact .inl (.inr (.inr h))

theorem kept_push (he : e.pendingFunctors = (s.loops l).eventLoop.pendingFunctors ++ [f])
    (h : s.Kept conn ∨ f.ends = some conn) :
    (s.setLoop l { s.loops l with eventLoop := e }).Kept conn := by
  rcases h with (howned | hqueue) | hends
  · exact .inl ((owned_of_within (by rfl)).mpr howned)
  · refine .inr (exists_setLoop (P := fun y => ∃ f ∈ y.queue, f.ends = some conn) hqueue ?_)
    rintro ⟨g, hg, hends⟩
    refine ⟨g, ?_, hends⟩
    rw [queue_push he]
    exact List.mem_append_left _ hg
  · refine .inr ⟨l, f, ?_, hends⟩
    rw [setLoop_self, queue_push he]
    exact List.mem_append_right _ List.mem_cons_self

/-- A functor is queued with a connection that exists; it may be the one that ends `ex`. -/
theorem Accounted.push (h : s.Accounted ex)
    (he : e.pendingFunctors = (s.loops l).eventLoop.pendingFunctors ++ [f])
    (hheld : ∀ server n, f.conn = some (.server server n) → s.Held (.server server n)) :
    (s.setLoop l { s.loops l with eventLoop := e }).Accounted ex := by
  have hserver : ∀ server n, (s.setLoop l { s.loops l with eventLoop := e }).Held
      (.server server n) → s.Held (.server server n) := fun server n hn =>
    (held_of_push he hn).elim id (hheld server n)
  refine ⟨fun conn c hc => ?_, h.staged, h.named, fun server n n' hn hn' => ?_⟩
  · rcases h.kept conn c hc with hremoved | hkept | hex
    · exact .inl hremoved
    · exact .inr (.inl (kept_push he (.inl hkept)))
    · exact .inr (.inr hex)
  · exact h.distinct server n n' (hserver server n hn) (hserver server n' hn')

theorem Accounted.queueInLoop (h : s.Accounted ex) (b : Bool)
    (hheld : ∀ server n, f.conn = some (.server server n) → s.Held (.server server n)) :
    (s.queueInLoop l b f).Accounted ex :=
  h.push (EventLoop.queueInLoop_pendingFunctors ..) hheld

theorem Accounted.otherRunInLoop (h : s.Accounted ex)
    (hheld : ∀ server n, f.conn = some (.server server n) → s.Held (.server server n)) :
    (s.otherRunInLoop l f).Accounted ex :=
  h.push (EventLoop.queueInLoop_pendingFunctors ..) hheld

/-- Queueing lets go of no reference. -/
theorem held_push (he : e.pendingFunctors = (s.loops l).eventLoop.pendingFunctors ++ [f])
    (h : s.Held conn) : (s.setLoop l { s.loops l with eventLoop := e }).Held conn := by
  rcases h with howned | hcopy | hbound
  · exact .inl ((owned_of_within (by rfl)).mpr howned)
  · exact .inr (.inl hcopy)
  · refine .inr (.inr (exists_setLoop (P := fun y => ∃ f ∈ y.bound, f.conn = some conn) hbound ?_))
    rintro ⟨g, hg, hconn⟩
    refine ⟨g, ?_, hconn⟩
    rw [bound_push he]
    exact List.mem_append_left _ hg

theorem Accounted.deliver {fs : List (ReactorFunctor S C)} (h : s.Accounted ex)
    (hheld : ∀ f ∈ fs, ∀ server n, f.conn = some (.server server n) →
      s.Held (.server server n)) : (s.deliver l fs).Accounted ex := by
  induction fs generalizing s with
  | nil => exact h
  | cons f fs ih =>
    refine ih (h.queueInLoop true (hheld f List.mem_cons_self)) fun g hg server n hn => ?_
    exact held_push (EventLoop.queueInLoop_pendingFunctors ..)
      (hheld g (List.mem_cons_of_mem _ hg) server n hn)

end

/-- A loop enters `newConnection`, for a name that no connection of the server has. -/
theorem Accounted.enter (h : s.Accounted none) {server : S} {n : Nat}
    (hwithin : (s.loops l).within = .outside) (hx : x.within = .inserting server n)
    (hqueue : x.queue = (s.loops l).queue) (hbound : x.bound = (s.loops l).bound)
    (hfree : ∀ n', s.Held (.server server n') →
      (s.servers server).getName n' ≠ (s.servers server).getName n) :
    (s.setLoop l x).Accounted none := by
  have howned : ∀ conn, s.Owned conn → (s.setLoop l x).Owned conn := by
    rintro (⟨server', n'⟩ | ⟨client, n'⟩) ho
    · rcases ho with hname | hl
      · exact .inl hname
      · refine .inr
          (exists_setLoop (P := fun y => y.within = .inserting server' n') hl fun hl => ?_)
        rw [hwithin] at hl
        cases hl
    · exact ho
  have hheld : ∀ server' n', (s.setLoop l x).Held (.server server' n') →
      s.Held (.server server' n') ∨ (server' = server ∧ n' = n) := by
    rintro server' n' ((hname | hl) | hcopy | hb)
    · exact .inl (.inl (.inl hname))
    · rcases exists_of_setLoop (P := fun y => y.within = .inserting server' n') hl with hl | hl
      · rw [hx] at hl
        cases hl
        exact .inr ⟨rfl, rfl⟩
      · exact .inl (.inl (.inr hl))
    · exact .inl (.inr (.inl hcopy))
    · rcases exists_of_setLoop (P := fun y => ∃ f ∈ y.bound, f.conn = some (.server server' n')) hb
        with hb | hb
      · rw [hbound] at hb
        exact .inl (.inr (.inr ⟨l, hb⟩))
      · exact .inl (.inr (.inr hb))
  refine ⟨fun conn c hc => ?_, h.staged, h.named, fun server' n₁ n₂ h₁ h₂ hname => ?_⟩
  · rcases h.kept conn c hc with hremoved | (ho | hq) | hnone
    · exact .inl hremoved
    · exact .inr (.inl (.inl (howned conn ho)))
    · refine .inr (.inl (.inr ?_))
      refine exists_setLoop (P := fun y => ∃ f ∈ y.queue, f.ends = some conn) hq fun hq => ?_
      rw [hqueue]
      exact hq
    · cases hnone
  · rcases hheld server' n₁ h₁ with h₁ | ⟨rfl, rfl⟩
    · rcases hheld server' n₂ h₂ with h₂ | ⟨rfl, rfl⟩
      · exact h.distinct server' n₁ n₂ h₁ h₂ hname
      · exact absurd hname (hfree n₁ h₁)
    · rcases hheld server' n₂ h₂ with h₂ | ⟨-, rfl⟩
      · exact absurd hname.symm (hfree n₂ h₂)
      · rfl

/-! ## The objects -/

section

omit [DecidableEq L]

theorem Accounted.copies (h : s.Accounted ex) {copies : List (ConnId S C)}
    (hheld : ∀ conn ∈ copies, s.Held conn) : Accounted { s with copies := copies } ex := by
  have hserver : ∀ conn, Held { s with copies := copies } conn → s.Held conn := by
    rintro conn (howned | hcopy | hbound)
    · exact .inl howned
    · exact hheld conn hcopy
    · exact .inr (.inr hbound)
  exact ⟨h.kept, h.staged, h.named, fun server n n' hn hn' =>
    h.distinct server n n' (hserver _ hn) (hserver _ hn')⟩

theorem Accounted.threads (h : s.Accounted ex) (threads : T → CallerAt C) :
    Accounted { s with threads := threads } ex :=
  ⟨h.kept, h.staged, h.named, h.distinct⟩

section

variable [DecidableEq S] {server : S} {nextConnId : Nat} {connections : Name → Option Nat}

@[simp] theorem putServer_self {value : TcpServer Nat} :
    (s.putServer server value).servers server = value := Function.update_self ..

theorem putServer_of_ne {server' : S} {value : TcpServer Nat} (h : server' ≠ server) :
    (s.putServer server value).servers server' = s.servers server' := Function.update_of_ne h ..

theorem getName_putServer (server' : S) (n : Nat) :
    ((s.putServer server { s.servers server with
      nextConnId := nextConnId, connections := connections }).servers server').getName n =
      (s.servers server').getName n := by
  by_cases he : server' = server
  · subst he
    rw [putServer_self]
    rfl
  · rw [putServer_of_ne he]

theorem connections_putServer (server' : S) :
    ((s.putServer server { s.servers server with
      nextConnId := nextConnId, connections := connections }).servers server').connections =
      if server' = server then connections else (s.servers server').connections := by
  split
  · rename_i he
    rw [he, putServer_self]
  · rename_i he
    rw [putServer_of_ne he]

/-- The number and the map of a server change; what is taken from the map is about to end. -/
theorem Accounted.putServer (h : s.Accounted ex)
    (hkeeps : ∀ name n, (s.servers server).connections name = some n →
      (∃ name', connections name' = some n) ∨ s.Ending (.server server n))
    (hadds : ∀ name n, connections name = some n →
      name = (s.servers server).getName n ∧ s.Held (.server server n)) :
    (s.putServer server { s.servers server with
      nextConnId := nextConnId, connections := connections }).Accounted ex := by
  have hheld : ∀ server' n, (s.putServer server { s.servers server with
      nextConnId := nextConnId, connections := connections }).Held (.server server' n) →
      s.Held (.server server' n) := by
    rintro server' n ((⟨name, hname⟩ | hl) | hcopy | hbound)
    · rw [connections_putServer] at hname
      split at hname
      · rename_i he
        exact he ▸ (hadds name n hname).2
      · exact .inl (.inl ⟨name, hname⟩)
    · exact .inl (.inr hl)
    · exact .inr (.inl hcopy)
    · exact .inr (.inr hbound)
  refine ⟨fun conn c hc => ?_, h.staged, fun server' name n hname => ?_,
    fun server' n n' hn hn' hname => ?_⟩
  · rcases h.kept conn c hc with hremoved | (ho | hq) | hex
    · exact .inl hremoved
    · cases conn with
      | client client n => exact .inr (.inl (.inl ho))
      | server server' n =>
        rcases ho with ⟨name, hname⟩ | hl
        · by_cases he : server' = server
          · subst he
            rcases hkeeps name n hname with ⟨name', hname'⟩ | hending
            · refine .inr (.inl (.inl (.inl ⟨name', ?_⟩)))
              rw [connections_putServer, if_pos rfl]
              exact hname'
            · exact .inr (.inl (.inr hending))
          · refine .inr (.inl (.inl (.inl ⟨name, ?_⟩)))
            rw [connections_putServer, if_neg he]
            exact hname
        · exact .inr (.inl (.inl (.inr hl)))
    · exact .inr (.inl (.inr hq))
    · exact .inr (.inr hex)
  · rw [connections_putServer] at hname
    rw [getName_putServer]
    split at hname
    · rename_i he
      exact he ▸ (hadds name n hname).1
    · exact h.named server' name n hname
  · rw [getName_putServer, getName_putServer] at hname
    exact h.distinct server' n n' (hheld server' n hn) (hheld server' n' hn') hname

end

section

variable [DecidableEq C]

@[simp] theorem putClient_self {client : C} {value : TcpClient} :
    (s.putClient client value).clients client = { value with loop := {} } :=
  Function.update_self ..

theorem putClient_of_ne {client client' : C} {value : TcpClient} (h : client' ≠ client) :
    (s.putClient client value).clients client' = s.clients client' := Function.update_of_ne h ..

/-- A client lets go of no connection but the one that is exempt. -/
theorem Accounted.putClient (h : s.Accounted ex) {client : C} {value : TcpClient}
    (hkeeps : ∀ n, (s.clients client).connection = some n →
      value.connection = some n ∨ ex = some (.client client n)) :
    (s.putClient client value).Accounted ex := by
  refine ⟨fun conn c hc => ?_, h.staged, h.named, h.distinct⟩
  rcases h.kept conn c hc with hremoved | (ho | hq) | hex
  · exact .inl hremoved
  · cases conn with
    | server server n => exact .inr (.inl (.inl ho))
    | client client' n =>
      by_cases he : client' = client
      · subst he
        rcases hkeeps n ho with hvalue | hex
        · refine .inr (.inl (.inl ?_))
          exact (congrArg TcpClient.connection putClient_self).trans hvalue
        · exact .inr (.inr hex)
      · refine .inr (.inl (.inl ?_))
        exact (congrArg TcpClient.connection (putClient_of_ne he)).trans ho
  · exact .inr (.inl (.inr hq))
  · exact .inr (.inr hex)

end

section

variable [DecidableEq S] [DecidableEq C]

@[simp] theorem putConn_self {l : L} {value : TcpConnection Empty} :
    (s.putConn conn l value).conns conn = some ⟨l, { value with loop := {} }⟩ :=
  Function.update_self ..

theorem putConn_of_ne {conn' : ConnId S C} {l : L} {value : TcpConnection Empty}
    (h : conn' ≠ conn) : (s.putConn conn l value).conns conn' = s.conns conn' :=
  Function.update_of_ne h ..

theorem Accounted.putConn (h : s.Accounted ex) {l : L} {value : TcpConnection Empty}
    (hstaged : value.Staged) (hkept : value.Removed ∨ s.Kept conn ∨ ex = some conn) :
    (s.putConn conn l value).Accounted ex := by
  refine ⟨fun conn' c hc => ?_, fun conn' c hc => ?_, h.named, h.distinct⟩
  · by_cases he : conn' = conn
    · subst he
      cases putConn_self.symm.trans hc
      rcases hkept with hremoved | hkept
      · exact .inl ⟨hremoved.index, hremoved.registered⟩
      · exact .inr hkept
    · exact h.kept conn' c ((putConn_of_ne he).symm.trans hc)
  · by_cases he : conn' = conn
    · subst he
      cases putConn_self.symm.trans hc
      rcases hstaged with hfresh | hreg | hremoved
      · exact .inl ⟨hfresh.state, hfresh.index, hfresh.registered⟩
      · exact .inr (.inl ⟨hreg.index, hreg.events⟩)
      · exact .inr (.inr ⟨hremoved.index, hremoved.registered⟩)
    · exact h.staged conn' c ((putConn_of_ne he).symm.trans hc)

/-- The connection that was exempt was removed from the poller. -/
theorem Accounted.destroyed (h : s.Accounted (some conn)) {l : L} {value : TcpConnection Empty}
    (hremoved : value.Removed) : (s.putConn conn l value).Accounted none := by
  have hput : (s.putConn conn l value).Accounted (some conn) :=
    h.putConn (.inr (.inr hremoved)) (.inl hremoved)
  refine ⟨fun conn' c hc => ?_, hput.staged, hput.named, hput.distinct⟩
  rcases hput.kept conn' c hc with hr | hkept | he
  · exact .inl hr
  · exact .inr (.inl hkept)
  · cases he
    cases putConn_self.symm.trans hc
    exact .inl ⟨hremoved.index, hremoved.registered⟩

end

end

end Reactor

end Summer.Net
