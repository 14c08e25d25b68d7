import Summer.Lib.Ledger
import Summer.Net.Connector

/-!
# What the functions of a connector do

`Tracked` says which descriptor, if any, is the socket of an attempt that is still watched, and
that every other one was disposed of. An attempt begins in `startInLoop` and ends in
`removeAndResetChannel`.
-/
namespace Summer.Net.Connector

open Summer.Lib

variable {c c' : Connector} {e fd : Nat} {isSelfConnect : Bool} {f : Fault}

/-- The channel of an attempt, registered and waiting to be writable. -/
def watching (fd : Nat) : ConnectChannel :=
  { fd := fd, channel := { events := kNoneEvent ||| kWriteEvent, index := 1 } }

/-- The channel of an attempt that has ended. -/
def removed (fd : Nat) : ConnectChannel :=
  { fd := fd, channel := { events := kNoneEvent, index := 1 } }

def registration : EpollPoller := ⟨some (kNoneEvent ||| kWriteEvent)⟩

/-! ## Starting -/

/-- The connector after an attempt was begun. -/
def begun (c : Connector) : Connector :=
  { c with
    state := .kConnecting
    sockets := c.sockets + 1
    poller := Function.update c.poller c.sockets registration
    channel := some (watching c.sockets) }

/-- How `startInLoop` succeeds: the attempt goes on, is to be made again, or is given up. -/
inductive Started (c : Connector) (e : Nat) : Connector → Prop where
  | connecting : proceeds e → c.channel = none → Started c e c.begun
  | retry : ¬ proceeds e → retries e →
      Started c e ({ c with sockets := c.sockets + 1 }.retry c.sockets)
  | close : ¬ proceeds e → ¬ retries e →
      Started c e ({ c with sockets := c.sockets + 1 }.close c.sockets)

theorem startInLoop_ok (h : c.startInLoop e = .ok c') :
    c.state = .kDisConnected ∧ Started c e c' := by
  obtain ⟨_, hstate, h⟩ := bind_eq_ok.mp h
  refine ⟨ensure_eq_ok.mp hstate, ?_⟩
  dsimp only at h
  split at h
  · rename_i hp
    obtain ⟨_, hnone, h⟩ := bind_eq_ok.mp h
    obtain ⟨r, hr, h⟩ := bind_eq_ok.mp h
    have hr := EpollPoller.updateChannel_ok hr
    subst hr
    cases h
    exact .connecting hp (ensure_eq_ok.mp hnone)
  · rename_i hp
    split at h
    · rename_i hre
      cases h
      exact .retry hp hre
    · rename_i hre
      cases h
      exact .close hp hre

/-- An attempt goes on if nothing of an earlier one is left. -/
theorem startInLoop_begins (hp : proceeds e) (hstate : c.state = .kDisConnected)
    (hnone : c.channel = none) (hfresh : c.poller c.sockets = {}) :
    c.startInLoop e = .ok c.begun := by
  have hentry : ({ c with sockets := c.sockets + 1, state := .kConnecting } : Connector).poller
      c.sockets = {} := hfresh
  rw [startInLoop, ensure_of hstate, ok_bind]
  dsimp only
  rw [if_pos hp, connecting, ensure_of hnone, ok_bind, update]
  dsimp only at hentry ⊢
  rw [hentry]
  rfl

/-- A new socket has no entry in the poller, so only the two assertions can fail. -/
theorem startInLoop_error (hfresh : c.poller c.sockets = {}) (h : c.startInLoop e = .error f) :
    (f = .assertion .startInLoop ∧ c.state ≠ .kDisConnected) ∨
      (f = .assertion .connecting ∧ proceeds e ∧ c.channel ≠ none) := by
  rcases ensure_bind_eq_error.mp h with ⟨hstate, rfl⟩ | ⟨-, h⟩
  · exact .inl ⟨rfl, hstate⟩
  · dsimp only at h
    split at h
    · rename_i hp
      rcases ensure_bind_eq_error.mp h with ⟨hchannel, rfl⟩ | ⟨-, h⟩
      · exact .inr ⟨rfl, hp, hchannel⟩
      · rcases bind_eq_error.mp h with h | ⟨_, -, h⟩
        · dsimp only at h
          rw [hfresh] at h
          cases h
        · cases h
    · split at h <;> cases h

/-! ## Ending an attempt -/

/-- The connector after `removeAndResetChannel`. -/
def ended (c : Connector) (fd : Nat) : Connector :=
  { c with
    poller := Function.update c.poller fd {}
    channel := some (removed fd)
    resets := c.resets ++ [fd] }

/-- The channel of the attempt on `fd` is registered. -/
structure Watches (c : Connector) (fd : Nat) : Prop where
  channel : c.channel = some (watching fd)
  poller : c.poller fd = registration

instance (c : Connector) (fd : Nat) : Decidable (c.Watches fd) :=
  decidable_of_iff (c.channel = some (watching fd) ∧ c.poller fd = registration)
    ⟨fun h => ⟨h.1, h.2⟩, fun h => ⟨h.channel, h.poller⟩⟩

theorem Watches.removeAndResetChannel (h : c.Watches fd) :
    c.removeAndResetChannel = .ok (fd, c.ended fd) := by
  rw [Connector.removeAndResetChannel, h.channel]
  dsimp only [watching]
  rw [h.poller]
  rfl

theorem Watches.handleError (h : c.Watches fd) :
    c.handleError = if c.state = .kConnecting then .ok ((c.ended fd).retry fd)
      else .error (.assertion .handleError) := by
  rw [Connector.handleError]
  split
  · rename_i hstate
    rw [ensure_of hstate, ok_bind, h.removeAndResetChannel]
    rfl
  · rename_i hstate
    rw [ensure_of_not hstate]
    rfl

theorem Watches.handleWrite (h : c.Watches fd) :
    c.handleWrite isSelfConnect =
      if c.state = .kConnecting then
        if isSelfConnect = true then .ok ((c.ended fd).retry fd)
        else .ok { c.ended fd with state := .kConnected, handed := c.handed ++ [fd] }
      else (ensure (c.state = .kDisConnected) (.assertion .handleWrite)).bind fun _ => .ok c := by
  rw [Connector.handleWrite]
  split
  · rw [h.removeAndResetChannel]
    rfl
  · rfl

/-! ## A dispatch -/

/-- The connector after `newConnectionCallback_` was given the socket. -/
def connected (c : Connector) (fd : Nat) : Connector :=
  { c.ended fd with state := .kConnected, handed := c.handed ++ [fd] }

theorem handed_lt : c.handed.length < (c.connected fd).handed.length := by
  show _ < (c.handed ++ [fd]).length
  rw [List.length_append]
  exact Nat.lt_succ_self _

/-- The attempt that is watched goes on, or ends: it is to be made again, or has succeeded. -/
inductive Dispatched (c : Connector) (fd : Nat) : Connector → Prop where
  | nothing : Dispatched c fd c
  | failed : Dispatched c fd ((c.ended fd).retry fd)
  | connected : Dispatched c fd (c.connected fd)

/-- Two of the four callbacks are set. -/
theorem handleCallbacks_eq (revents : Events) (ch : Channel) :
    c.handleCallbacks isSelfConnect { ch with revents := revents }.handleEvent =
      (if revents.has (POLLERR ||| POLLNVAL) = true then c.handleError else .ok c) >>= fun c =>
        if revents.has POLLOUT = true then c.handleWrite isSelfConnect else .ok c := by
  have hskip : ∀ (c : Connector) (b : Bool) (callback : EventCallback),
      callback = .closeCallback ∨ callback = .readCallback →
      run (fun c callback => handleCallback c isSelfConnect callback) c
        (if b = true then [callback] else []) = .ok c := by
    rintro c b callback (rfl | rfl)
    · rw [run_optional]
      exact ite_self _
    · rw [run_optional]
      exact ite_self _
  rw [handleCallbacks, Channel.handleEvent, run_append, run_append, run_append,
    hskip _ _ _ (.inl rfl), ok_bind, run_optional]
  show ((if revents.has (POLLERR ||| POLLNVAL) = true then c.handleError else .ok c) >>= _) >>=
    _ = _
  cases (if revents.has (POLLERR ||| POLLNVAL) = true then c.handleError else .ok c) with
  | error f => rfl
  | ok c =>
    rw [ok_bind, ok_bind, hskip _ _ _ (.inr rfl), ok_bind, run_optional]
    rfl

/-- Whatever is reported, a watched attempt has no assertion fail. -/
theorem Watches.handleEvent (h : c.Watches fd) (hstate : c.state = .kConnecting)
    (revents : Events) (isSelfConnect : Bool) :
    ∃ c', c.handleEvent fd revents isSelfConnect = .ok c' ∧ Dispatched c fd c' := by
  rw [Connector.handleEvent, h.channel]
  dsimp only
  rw [ensure_of (show (watching fd).fd = fd from rfl), ok_bind, handleCallbacks_eq,
    h.handleError, if_pos hstate]
  split
  · refine ⟨_, ?_, .failed⟩
    rw [ok_bind]
    split
    · rfl
    · rfl
  · rw [ok_bind]
    split
    · rw [h.handleWrite, if_pos hstate]
      split
      · exact ⟨_, rfl, .failed⟩
      · exact ⟨_, rfl, .connected⟩
    · exact ⟨_, rfl, .nothing⟩

theorem Watches.handleEvent_ok (h : c.Watches fd) (hstate : c.state = .kConnecting)
    {revents : Events} (hs : c.handleEvent fd revents isSelfConnect = .ok c') :
    Dispatched c fd c' := by
  obtain ⟨k, hk, hdispatched⟩ := h.handleEvent hstate revents isSelfConnect
  cases hs.symm.trans hk
  exact hdispatched

/-- The socket of the attempt is writable, and not connected to itself. -/
theorem Watches.handleEvent_writable (h : c.Watches fd) (hstate : c.state = .kConnecting) :
    c.handleEvent fd POLLOUT false = .ok (c.connected fd) := by
  have hout : POLLOUT.has POLLOUT = true := by decide
  have herr : POLLOUT.has (POLLERR ||| POLLNVAL) = false := by decide
  rw [Connector.handleEvent, h.channel]
  dsimp only
  rw [ensure_of (show (watching fd).fd = fd from rfl), ok_bind, handleCallbacks_eq, herr, hout,
    if_neg Bool.false_ne_true, ok_bind, if_pos rfl, h.handleWrite, if_pos hstate,
    if_neg Bool.false_ne_true]
  rfl

/-- Past its attempt the connector asserts, or ignores what is reported. -/
theorem Watches.handleEvent_disconnected (h : c.Watches fd) (hstate : c.state = .kDisConnected)
    {revents : Events} (hs : c.handleEvent fd revents isSelfConnect = .ok c') : c' = c := by
  have hne : c.state ≠ .kConnecting := by rw [hstate]; nofun
  rw [Connector.handleEvent, h.channel] at hs
  dsimp only at hs
  rw [ensure_of (show (watching fd).fd = fd from rfl), ok_bind, handleCallbacks_eq,
    h.handleError, if_neg hne] at hs
  split at hs
  · cases hs
  · rw [ok_bind] at hs
    split at hs
    · rw [h.handleWrite, if_neg hne, ensure_of hstate] at hs
      cases hs
      rfl
    · cases hs
      rfl

end Summer.Net.Connector
