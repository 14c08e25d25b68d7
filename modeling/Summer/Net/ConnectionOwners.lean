import Summer.Net.ConnectionInvariant

/-!
# The owners of a connection

A connection lives as long as someone has a `TcpConnectionPtr` to it: the server or the
client, the user, or a functor that was bound with one. A functor is destroyed with the vector
of its batch, when `doPendingFunctor` returns. The functors of `send()` and `shutdown()` are
bound with `this`, so they own nothing; to run one after the last owner is gone is a fault.
-/
namespace Summer.Net

open Summer.Lib

variable {T : Type} [DecidableEq T]

/-- The functor is bound with a `TcpConnectionPtr`. -/
def Functor.owns : Functor T → Bool
  | .connectionDestroyed => true
  | .writeCompleteCallback => true
  | .sendInLoop _ _ => false
  | .shutdownInLoop => false
  | .other => false

/-- The functor is bound with `this`. -/
def Functor.raw : Functor T → Bool
  | .sendInLoop _ _ => true
  | .shutdownInLoop => true
  | .connectionDestroyed => false
  | .writeCompleteCallback => false
  | .other => false

/-- `copies` has the thread of each `TcpConnectionPtr` of the user, `none` for the loop thread;
`called` the functors of the running batch that were called; and `removed` counts the
`removeConnectionInLoop` functors called in a base loop whose batch has not ended. -/
structure OwnedConnection (T : Type) where
  system : ConnectionSystem T
  copies : List (Option T) := []
  called : List (Functor T) := []
  removed : Nat := 0

namespace OwnedConnection

inductive Action (T : Type) where
  | connection (action : ConnectionSystem.Action T)
  | copy (thread : Option T)
  | drop (thread : Option T)
  /-- `doPendingFunctor` of the base loop returns. -/
  | endBasePass
  deriving DecidableEq

def init (owner : Owner) (writeComplete : Bool) : OwnedConnection T where
  system := .init owner writeComplete

/-- The set of the owners is not empty. -/
def Alive (s : OwnedConnection T) : Prop :=
  s.system.conn.held = true ∨ 0 < s.system.conn.removals ∨ 0 < s.removed ∨ s.copies ≠ [] ∨
    ∃ f ∈ s.called ++ s.system.functors, f.owns = true

instance (s : OwnedConnection T) : Decidable s.Alive := inferInstanceAs (Decidable (_ ∨ _))

/-- The thread that needs a `TcpConnectionPtr` for the action. -/
def caller : ConnectionSystem.Action T → Option (Option T)
  | .send _ _ => some none
  | .shutdown => some none
  | .otherSend t _ => some (some t)
  | .otherShutdown t => some (some t)
  | _ => none

/-- The step uses the connection through a pointer that does not own it: that of its channel or
of a functor. -/
def Uses (s : OwnedConnection T) : ConnectionSystem.Action T → Prop
  | .poll _ _ => s.system.conn.poller.registered ≠ none
  | .handleEvent _ =>
    match s.system.phase with
    | .handling (_ :: _) _ => True
    | _ => False
  | .runFunctor _ => ∃ f ∈ s.system.batch.head?, f.raw = true
  | _ => False

instance (s : OwnedConnection T) (a : ConnectionSystem.Action T) : Decidable (s.Uses a) := by
  unfold Uses
  cases a with
  | handleEvent n =>
    dsimp only
    split <;> infer_instance
  | _ => infer_instance

/-- The thread is not inside a call. -/
def Idle (s : OwnedConnection T) : Option T → Prop
  | none => True
  | some t => s.system.threads t = .idle

instance (s : OwnedConnection T) (t : Option T) : Decidable (s.Idle t) := by
  unfold Idle
  cases t <;> infer_instance

/-- What becomes of the functor that was called, and of those of a batch that has ended. -/
def after (s : OwnedConnection T) (system : ConnectionSystem T) :
    ConnectionSystem.Action T → OwnedConnection T
  | .runFunctor n =>
    { s with system := system, called := s.called ++ s.system.popped (.runFunctor n) }
  | .endPass => { s with system := system, called := [] }
  | .removeConnectionInLoop => { s with system := system, removed := s.removed + 1 }
  | _ => { s with system := system }

def step (s : OwnedConnection T) : Action T → Except Fault (OwnedConnection T)
  | .connection a => do
    ensure (∀ t ∈ caller a, t ∈ s.copies) .notEnabled
    ensure (s.Uses a → s.Alive) .dangling
    let system ← s.system.step a
    .ok (s.after system a)
  | .copy t => do
    ensure s.Alive .notEnabled
    .ok { s with copies := t :: s.copies }
  | .drop t => do
    ensure (t ∈ s.copies ∧ s.Idle t) .notEnabled
    .ok { s with copies := s.copies.erase t }
  | .endBasePass => do
    ensure (0 < s.removed) .notEnabled
    .ok { s with removed := 0 }

/-- The functors bound with `this` that are queued. -/
def raws (s : OwnedConnection T) : List (Functor T) := s.system.functors.filter Functor.raw

/-- No functor that is queued for the connection will find it destroyed. -/
def Sound (s : OwnedConnection T) : Prop := s.Alive ∨ s.raws = []

/-- Those that were queued after the loop had swapped out the batch of
`connectionDestroyed`. -/
def late (s : OwnedConnection T) : List (Functor T) :=
  if .connectionDestroyed ∈ s.called ++ s.system.batch then
    s.system.conn.loop.pendingFunctors.filter Functor.raw
  else if s.system.destroyed = true then s.raws
  else []

/-- The state without what the step lets go of. -/
def without (s : OwnedConnection T) : Action T → OwnedConnection T
  | .drop t => { s with copies := s.copies.erase t }
  | .endBasePass => { s with removed := 0 }
  | .connection .endPass => { s with called := [] }
  | _ => s

/-- A step that lets go of the last owner leaves no late functor behind. -/
def LetsGo (s : OwnedConnection T) (a : Action T) : Prop :=
  s.Alive → ¬ (s.without a).Alive → s.late = []

instance (s : OwnedConnection T) (a : Action T) : Decidable (LetsGo s a) :=
  inferInstanceAs (Decidable (_ → _ → _))

end OwnedConnection

/-! ## What a step does to the owners -/

namespace ConnectionSystem

open TcpConnection

variable {s s' : ConnectionSystem T} {a : Action T}

/-- One functor at most leaves the queue, and the server, the client or a functor of the base
loop lets go of the connection only when it queues `connectionDestroyed`. -/
structure Flow (s : ConnectionSystem T) (a : Action T) (s' : ConnectionSystem T)
    (pushed : List (Functor T)) : Prop where
  turnover : Turnover s s' (s.popped a) pushed
  held : s.conn.held = true → s'.conn.held = true ∨ .connectionDestroyed ∈ pushed
  removals : s.conn.removals ≤ s'.conn.removals ∨ .connectionDestroyed ∈ pushed

omit [DecidableEq T] in
theorem flow_quiet (hq : Quiet s.conn s'.conn) (hb : s.batch = s.popped a ++ s'.batch) :
    ∃ pushed, Flow s a s' pushed := by
  obtain ⟨l, hl, -⟩ := hq.queue
  exact ⟨l, turnover_of hb hl, fun h => .inl (hq.held.trans h), .inl hq.removals.ge⟩

theorem flow_of_moves (h : Moves s a s') (hstate : s.conn.state ≠ .kConnecting) :
    ∃ pushed, Flow s a s' pushed := by
  cases h with
  | passes hp =>
    refine ⟨[], hp.turnover.1, ?_, ?_⟩
    · obtain ⟨loop, revents, phase, rfl⟩ := hp.frame
      exact .inl
    · obtain ⟨loop, revents, phase, rfl⟩ := hp.frame
      exact .inl (Nat.le_refl _)
  | notify => exact ⟨[], turnover_of rfl (List.append_nil _).symm, .inl, .inl (Nat.le_refl _)⟩
  | close _ hphase _ hclose =>
    rcases (handleClose_spec hclose).removal with ⟨-, -, hr, hq⟩ | ⟨hh, hr, hq⟩
    · exact ⟨[.connectionDestroyed], turnover_of (batch_handling hphase) hq,
        fun _ => .inr List.mem_cons_self, .inl hr.ge⟩
    · exact ⟨[], turnover_same (batch_handling hphase) hq, fun hheld => .inl (hh.trans hheld),
        .inl (by dsimp only; omega)⟩
  | drain _ hphase hdrain =>
    exact flow_quiet (handleWrite_spec hdrain).quiet (batch_handling hphase)
  | destroy _ hphase hdestroy =>
    obtain ⟨-, rfl⟩ := connectionDestroyed_ok hstate hdestroy
    refine ⟨[], ?_, .inl, .inl (Nat.le_refl _)⟩
    rw [popped_of_running hphase]
    exact turnover_of (batch_running hphase) (List.append_nil _).symm
  | runSend _ hphase hsend =>
    refine flow_quiet (sendInLoop_spec hsend).quiet ?_
    rw [popped_of_running hphase, batch_running hphase]
    rfl
  | runShutdown _ hphase =>
    refine flow_quiet (shutdownInLoop_spec s.conn).quiet ?_
    rw [popped_of_running hphase, batch_running hphase]
    rfl
  | send _ _ hsend =>
    exact flow_quiet (sendInLoop_spec hsend).quiet rfl
  | shutdown _ _ =>
    exact flow_quiet (shutdown_spec s.conn).quiet rfl
  | otherSend _ _ =>
    exact ⟨[], turnover_of rfl (List.append_nil _).symm, .inl, .inl (Nat.le_refl _)⟩
  | otherSendPush _ => exact ⟨_, turnover_push _ _, .inl, .inl (Nat.le_refl _)⟩
  | otherShutdown _ _ _ =>
    exact ⟨[], turnover_of rfl (List.append_nil _).symm, .inl, .inl (Nat.le_refl _)⟩
  | otherShutdownSet _ =>
    exact ⟨[], turnover_of rfl (List.append_nil _).symm, .inl, .inl (Nat.le_refl _)⟩
  | otherShutdownPush _ => exact ⟨_, turnover_push _ _, .inl, .inl (Nat.le_refl _)⟩
  | otherFunctor => exact ⟨_, turnover_push _ s.threads, .inl, .inl (Nat.le_refl _)⟩
  | baseRemove _ _ =>
    refine ⟨[.connectionDestroyed], turnover_of rfl (EventLoop.queueInLoop_pendingFunctors ..),
      fun _ => .inr List.mem_cons_self, .inr List.mem_cons_self⟩

theorem endPass_ok (h : step s .endPass = .ok s') : s.batch = [] ∧
    s'.functors = s.functors ∧ s'.conn.held = s.conn.held ∧
    s'.conn.removals = s.conn.removals := by
  obtain ⟨_, -, h⟩ := bind_eq_ok.mp h
  cases hphase : s.phase with
  | between => rw [hphase] at h; cases h
  | handling callbacks read => rw [hphase] at h; cases h
  | running fs =>
    rw [hphase] at h
    cases fs with
    | nil =>
      cases h
      exact ⟨batch_running hphase, by rw [functors, functors, batch_running hphase]; rfl, rfl, rfl⟩
    | cons f fs => cases h

end ConnectionSystem

end Summer.Net
