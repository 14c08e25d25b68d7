import Summer.Net.Poller
import Summer.Lib.DenseTable
import Summer.Lib.Run

/-!
# The poll back end

`pollfds_` has one entry for each registered channel, and the index of the channel is the
position of its entry. An entry with the descriptor `-fd - 1` is ignored by the kernel. The
source never makes it positive again, so a channel that was ignored once stays so.
-/
namespace Summer.Net.Pollers

open Summer.Lib

/-- `struct pollfd`. A mask stands for the `int` that the `short` is converted to. -/
structure PollFd where
  fd : Int
  events : Events
  revents : Events
  deriving DecidableEq

structure PollPoller where
  pollfds : List PollFd := []
  channels : Int → Option ChannelPtr := fun _ => none

structure PollSystem where
  poller : PollPoller := {}
  channels : Channels := fun _ => {}

/-- `pollfds_[index]`, behind the assertion that the index is in range. -/
def PollPoller.pollfdAt (p : PollPoller) (site : Site) : Int → Except Fault PollFd
  | .ofNat i =>
    match p.pollfds[i]? with
    | some pfd => .ok pfd
    | none => .error (.assertion site)
  | .negSucc _ => .error (.assertion site)

/-- What `::poll` writes into an entry. -/
def PollFd.polled (ready : Readiness) (pfd : PollFd) : PollFd :=
  { pfd with revents := if pfd.fd < 0 then 0 else report ready pfd.fd.toNat pfd.events }

namespace PollSystem

def updateChannel (s : PollSystem) (c : ChannelPtr) : Except Fault PollSystem :=
  if (s.channels c).index = -1 then do
    ensure (s.poller.channels c.fd = none) (.assertion .updateChannel)
    let pfd : PollFd := { fd := c.fd, events := (s.channels c).events, revents := 0 }
    let pollfds := s.poller.pollfds ++ [pfd]
    let idx : Int := pollfds.length - 1
    .ok {
      poller := { pollfds, channels := Function.update s.poller.channels pfd.fd (some c) }
      channels := s.channels.set_index c idx }
  else do
    ensure (s.poller.channels c.fd ≠ none) (.assertion .updateChannel)
    ensure (s.poller.channels c.fd = some c) (.assertion .updateChannel)
    let idx := (s.channels c).index
    let pfd ← s.poller.pollfdAt .updateChannel idx
    ensure (pfd.fd = c.fd ∨ pfd.fd = -c.fd - 1) (.assertion .updateChannel)
    let pfd := { pfd with events := (s.channels c).events, revents := 0 }
    let pfd := if (s.channels c).events = kNoneEvent then { pfd with fd := -c.fd - 1 } else pfd
    .ok { s with poller := { s.poller with pollfds := s.poller.pollfds.set idx.toNat pfd } }

/-- The index of the removed channel stays what it was. -/
def removeChannel (s : PollSystem) (c : ChannelPtr) : Except Fault PollSystem := do
  ensure (s.poller.channels c.fd ≠ none) (.assertion .removeChannel)
  ensure (s.poller.channels c.fd = some c) (.assertion .removeChannel)
  ensure ((s.channels c).events = kNoneEvent) (.assertion .removeChannel)
  let index := (s.channels c).index
  let pfd ← s.poller.pollfdAt .removeChannel index
  ensure (pfd.fd = -c.fd - 1 ∧ pfd.events = (s.channels c).events) (.assertion .removeChannel)
  let pollfds := s.poller.pollfds
  let channels := Function.update s.poller.channels c.fd none
  let last := pollfds.length - 1
  if index.toNat = last then .ok { s with poller := { pollfds := pollfds.dropLast, channels } }
  else do
    let back ← s.poller.pollfdAt .removeChannel last
    let channelAtEnd := if back.fd < 0 then -back.fd - 1 else back.fd
    match channels channelAtEnd with
    | none => .error .nullPointer
    | some atEnd => .ok {
        poller := { pollfds := (iterSwap pollfds index.toNat last).dropLast, channels }
        channels := s.channels.set_index atEnd index }

/-- The loop over the entries, with what is left of `numEvents`. -/
def fillActiveChannels (map : Int → Option ChannelPtr) :
    Nat → List PollFd → Channels → List ChannelPtr → Except Fault (Channels × List ChannelPtr)
  | _, [], channels, activeChannels => .ok (channels, activeChannels)
  | numEvents, pfd :: pollfds, channels, activeChannels =>
    if 0 < numEvents then
      if 0 < pfd.revents.toInt then
        match map pfd.fd with
        | none => .error (.assertion .fillActiveChannels)
        | some c => do
          ensure ((c.fd : Int) = pfd.fd) (.assertion .fillActiveChannels)
          fillActiveChannels map (numEvents - 1) pollfds (channels.set_revents c pfd.revents)
            (activeChannels ++ [c])
      else fillActiveChannels map numEvents pollfds channels activeChannels
    else .ok (channels, activeChannels)

/-- `::poll` counts the entries with events. -/
def poll (s : PollSystem) (ready : Readiness) : Except Fault (PollSystem × List ChannelPtr) := do
  let pollfds := s.poller.pollfds.map (PollFd.polled ready)
  let numEvents := pollfds.countP fun pfd => pfd.revents ≠ 0
  let (channels, activeChannels) ← (if 0 < numEvents then
      fillActiveChannels s.poller.channels numEvents pollfds s.channels []
    else .ok (s.channels, []))
  .ok ({ poller := { s.poller with pollfds := pollfds }, channels := channels }, activeChannels)

/-- A member of `Channel` up to its `update()`. -/
def changed (s : PollSystem) (c : ChannelPtr) (change : Change) : PollSystem :=
  { s with channels := s.channels.change c change }

def init : PollSystem := {}

def step (s : PollSystem) : Action → Except Fault PollSystem
  | .update c change => (s.changed c change).updateChannel c
  | .removeChannel c => s.removeChannel c
  | .poll ready _ => do
    let (s, _) ← s.poll ready
    .ok s

/-! ## The entries of the channels -/

def Registered (s : PollSystem) (c : ChannelPtr) : Prop := s.poller.channels c.fd = some c

instance (s : PollSystem) (c : ChannelPtr) : Decidable (s.Registered c) :=
  inferInstanceAs (Decidable (_ = _))

/-- The position of the entry of a registered channel. -/
def slot (s : PollSystem) (c : ChannelPtr) : Option Nat :=
  if s.Registered c then some (s.channels c).index.toNat else none

def entry (s : PollSystem) (c : ChannelPtr) : Option PollFd := entryOf s.slot s.poller.pollfds c

/-- Each registered channel has an entry that shows what it asks for. -/
structure Watches (s : PollSystem) : Prop where
  enabled : ∀ c, s.Registered c → (s.channels c).events ≠ kNoneEvent →
    ∃ pfd, s.entry c = some pfd ∧ pfd.fd = c.fd ∧ pfd.events = (s.channels c).events
  disabled : ∀ c, s.Registered c → (s.channels c).events = kNoneEvent →
    ∀ pfd, s.entry c = some pfd → pfd.fd < 0

/-! ## What each step does -/

theorem pollfdAt_ok {p : PollPoller} {site : Site} {index : Int} {pfd : PollFd}
    (h : p.pollfdAt site index = .ok pfd) : ∃ i : Nat, index = i ∧ p.pollfds[i]? = some pfd := by
  cases index with
  | ofNat i =>
    rw [PollPoller.pollfdAt] at h
    split at h
    · cases h
      exact ⟨i, rfl, ‹_›⟩
    · cases h
  | negSucc n => cases h

/-- A channel with a new entry at the end. -/
def append (s : PollSystem) (c : ChannelPtr) (pfd : PollFd) : PollSystem where
  poller := {
    pollfds := s.poller.pollfds ++ [pfd]
    channels := Function.update s.poller.channels c.fd (some c) }
  channels := s.channels.set_index c s.poller.pollfds.length

/-- Another entry at position `i`. -/
def put (s : PollSystem) (i : Nat) (pfd : PollFd) : PollSystem :=
  { s with poller := { s.poller with pollfds := s.poller.pollfds.set i pfd } }

/-- The channel of the last entry is removed. -/
def dropBack (s : PollSystem) (c : ChannelPtr) : PollSystem :=
  { s with poller := {
    pollfds := s.poller.pollfds.dropLast
    channels := Function.update s.poller.channels c.fd none } }

/-- The channel of entry `i` is removed, and the last entry, which is that of `atEnd`, takes
its place. -/
def moveBack (s : PollSystem) (c : ChannelPtr) (i : Nat) (atEnd : ChannelPtr) : PollSystem where
  poller := {
    pollfds := (iterSwap s.poller.pollfds i (s.poller.pollfds.length - 1)).dropLast
    channels := Function.update s.poller.channels c.fd none }
  channels := s.channels.set_index atEnd i

/-- What `updateChannel` does. -/
inductive Updates (s : PollSystem) (c : ChannelPtr) : PollSystem → Prop where
  | added : (s.channels c).index = -1 → s.poller.channels c.fd = none →
      Updates s c (s.append c ⟨c.fd, (s.channels c).events, 0⟩)
  | changed {i : Nat} {pfd : PollFd} : (s.channels c).index = i → s.Registered c →
      s.poller.pollfds[i]? = some pfd →
      Updates s c (s.put i ⟨if (s.channels c).events = kNoneEvent then -c.fd - 1 else pfd.fd,
        (s.channels c).events, 0⟩)

theorem updates_of_updateChannel {s s' : PollSystem} {c : ChannelPtr}
    (h : s.updateChannel c = .ok s') : Updates s c s' := by
  rw [updateChannel] at h
  split at h
  · rename_i hindex
    obtain ⟨_, hnone, h⟩ := bind_eq_ok.mp h
    cases h
    have hidx (pfd : PollFd) : ((s.poller.pollfds ++ [pfd]).length : Int) - 1 =
        s.poller.pollfds.length := by
      rw [List.length_append, List.length_singleton]
      omega
    rw [hidx]
    exact .added hindex (ensure_eq_ok.mp hnone)
  · obtain ⟨_, -, h⟩ := bind_eq_ok.mp h
    obtain ⟨_, hreg, h⟩ := bind_eq_ok.mp h
    obtain ⟨pfd, hpfd, h⟩ := bind_eq_ok.mp h
    obtain ⟨_, -, h⟩ := bind_eq_ok.mp h
    obtain ⟨i, hindex, hpfd⟩ := pollfdAt_ok hpfd
    have hnat : (s.channels c).index.toNat = i := by rw [hindex, Int.toNat_natCast]
    cases h
    rw [hnat]
    have hchanged := Updates.changed hindex (ensure_eq_ok.mp hreg) hpfd
    split
    · rename_i hnone
      rwa [if_pos hnone] at hchanged
    · rename_i hsome
      rwa [if_neg hsome] at hchanged

/-- What `removeChannel` does. -/
inductive Removes (s : PollSystem) (c : ChannelPtr) : PollSystem → Prop where
  | last {i : Nat} : (s.channels c).index = i → i = s.poller.pollfds.length - 1 →
      Removes s c (s.dropBack c)
  | inner {i : Nat} {back : PollFd} {atEnd : ChannelPtr} : (s.channels c).index = i →
      i ≠ s.poller.pollfds.length - 1 →
      s.poller.pollfds[s.poller.pollfds.length - 1]? = some back →
      Function.update s.poller.channels c.fd none
        (if back.fd < 0 then -back.fd - 1 else back.fd) = some atEnd →
      Removes s c (s.moveBack c i atEnd)

theorem removes_of_removeChannel {s s' : PollSystem} {c : ChannelPtr}
    (h : s.removeChannel c = .ok s') : s.Registered c ∧ Removes s c s' := by
  obtain ⟨_, -, h⟩ := bind_eq_ok.mp h
  obtain ⟨_, hreg, h⟩ := bind_eq_ok.mp h
  obtain ⟨_, -, h⟩ := bind_eq_ok.mp h
  obtain ⟨pfd, hpfd, h⟩ := bind_eq_ok.mp h
  obtain ⟨_, -, h⟩ := bind_eq_ok.mp h
  obtain ⟨i, hindex, -⟩ := pollfdAt_ok hpfd
  have hnat : (s.channels c).index.toNat = i := by rw [hindex, Int.toNat_natCast]
  refine ⟨ensure_eq_ok.mp hreg, ?_⟩
  rw [hnat] at h
  dsimp only at h
  split at h
  · cases h
    exact .last hindex ‹_›
  · rename_i hne
    obtain ⟨back, hback, h⟩ := bind_eq_ok.mp h
    obtain ⟨j, hj, hback⟩ := pollfdAt_ok hback
    cases Int.ofNat_inj.mp hj
    split at h
    · cases h
    · rename_i atEnd hatEnd
      cases h
      rw [hindex]
      exact .inner hindex hne hback hatEnd

end PollSystem

end Summer.Net.Pollers
