import Summer.Basic
import Summer.Lib.Run

/-!
# Channels and the epoll poller

The model follows one channel, so the poller is the entry of that channel's descriptor: the
events it is registered for, or nothing. `channels_` and the kernel's list change together.
-/
namespace Summer.Net

open Summer.Lib

abbrev Events := BitVec 32

def POLLIN : Events := 0x001
def POLLPRI : Events := 0x002
def POLLOUT : Events := 0x004
def POLLERR : Events := 0x008
def POLLHUP : Events := 0x010
def POLLNVAL : Events := 0x020
def POLLRDHUP : Events := 0x2000

/-- `events & mask`, used as a condition. -/
def Events.has (events mask : Events) : Bool := events &&& mask != 0

def kNoneEvent : Events := 0
def kReadEvent : Events := POLLIN ||| POLLPRI
def kWriteEvent : Events := POLLOUT

structure Channel where
  events : Events := kNoneEvent
  revents : Events := 0
  index : Int := -1
  deriving DecidableEq

namespace Channel

def isWriting (c : Channel) : Bool := c.events.has kWriteEvent

end Channel

/-- The callbacks `TcpConnection` sets on its channel. -/
inductive EventCallback where
  | closeCallback
  | errorCallback
  | readCallback
  | writeCallback
  deriving DecidableEq, Repr

/-- The callbacks `handleEvent` calls, in order. -/
def Channel.handleEvent (c : Channel) : List EventCallback :=
  (if c.revents.has POLLHUP && !c.revents.has POLLIN then [.closeCallback] else []) ++
  (if c.revents.has (POLLERR ||| POLLNVAL) then [.errorCallback] else []) ++
  (if c.revents.has (POLLIN ||| POLLPRI ||| POLLRDHUP) then [.readCallback] else []) ++
  (if c.revents.has POLLOUT then [.writeCallback] else [])

theorem has_none (mask : Events) : kNoneEvent.has mask = false := by
  have h : kNoneEvent &&& mask = 0 := BitVec.zero_and
  rw [Events.has, h]
  rfl

theorem has_write_enableWriting (events : Events) :
    (events ||| kWriteEvent).has kWriteEvent = true := by
  have h : (events ||| kWriteEvent) &&& kWriteEvent = kWriteEvent := by
    ext i
    simp only [BitVec.getElem_and, BitVec.getElem_or]
    cases events[i] <;> simp
  rw [Events.has, h]
  decide

theorem has_write_disableWriting (events : Events) :
    (events &&& ~~~kWriteEvent).has kWriteEvent = false := by
  have h : events &&& ~~~kWriteEvent &&& kWriteEvent = 0 := by
    rw [BitVec.and_assoc, BitVec.not_and_self]
    exact BitVec.and_zero
  rw [Events.has, h]
  rfl

/-! ## The poller -/

structure EpollPoller where
  registered : Option Events := none
  deriving DecidableEq

namespace EpollPoller

/-- A channel that was never added is added, and any other one is modified. -/
def updateChannel (p : EpollPoller) (c : Channel) : Except Fault (EpollPoller × Channel) :=
  if c.index < 0 then do
    ensure (p.registered = none) (.assertion .updateChannel)
    .ok (⟨some c.events⟩, { c with index := 1 })
  else do
    ensure (p.registered ≠ none) (.assertion .updateChannel)
    ensure (c.index = 1) (.assertion .updateChannel)
    .ok (⟨some c.events⟩, c)

/-- The index of the channel stays what it was. -/
def removeChannel (p : EpollPoller) (c : Channel) : Except Fault EpollPoller := do
  ensure (p.registered ≠ none) (.assertion .removeChannel)
  ensure (c.events = kNoneEvent) (.assertion .removeChannel)
  .ok ⟨none⟩

variable {p : EpollPoller} {c : Channel}

/-- Whatever it was before, an updated channel is registered with its events. -/
theorem updateChannel_ok {r : EpollPoller × Channel} (h : updateChannel p c = .ok r) :
    r = (⟨some c.events⟩, { c with index := 1 }) := by
  rw [updateChannel] at h
  split at h
  · obtain ⟨_, -, h⟩ := bind_eq_ok.mp h
    cases h
    rfl
  · obtain ⟨_, -, h⟩ := bind_eq_ok.mp h
    obtain ⟨_, hi, h⟩ := bind_eq_ok.mp h
    cases h
    have hi := ensure_eq_ok.mp hi
    cases c
    cases hi
    rfl

/-- A registered channel can always be updated. -/
theorem updateChannel_error {f : Fault} (h : updateChannel p c = .error f) :
    f = .assertion .updateChannel ∧ ¬ (c.index = 1 ∧ p.registered ≠ none) := by
  rw [updateChannel] at h
  split at h
  · rename_i hneg
    rcases ensure_bind_eq_error.mp h with ⟨-, rfl⟩ | ⟨-, h⟩
    · exact ⟨rfl, fun hr => by omega⟩
    · cases h
  · rcases ensure_bind_eq_error.mp h with ⟨hr, rfl⟩ | ⟨-, h⟩
    · exact ⟨rfl, fun hr' => hr hr'.2⟩
    · rcases ensure_bind_eq_error.mp h with ⟨hi, rfl⟩ | ⟨-, h⟩
      · exact ⟨rfl, fun hr' => hi hr'.1⟩
      · cases h

end EpollPoller

end Summer.Net
