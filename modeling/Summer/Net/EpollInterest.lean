import Summer.Net.Poller
import Summer.Lib.Run
import Mathlib.Data.List.Perm.Subperm

/-!
# The epoll back end with all its channels

The kernel keeps a list of registrations, each with a descriptor, a mask and the channel that
`epoll_wait` gives back. `channels_` and that list change together, so each registered channel
has one registration, with what it asks for.
-/
namespace Summer.Net.Pollers

open Summer.Lib

/-- One registration in the kernel. -/
structure Registration where
  fd : Nat
  events : Events
  data : ChannelPtr
  deriving DecidableEq

/-- `epfd` stands for the list it refers to, and `events` for the size of `events_`. -/
structure EpollPoller where
  epfd : List Registration := []
  events : Nat := 20
  channels : Int → Option ChannelPtr := fun _ => none

structure EpollSystem where
  poller : EpollPoller := {}
  channels : Channels := fun _ => {}

inductive EpollCtl where
  | add
  | mod
  | del
  deriving DecidableEq, Repr

/-- `::epoll_ctl`, which fails for a descriptor that is there already or is not there. -/
def epoll_ctl (epfd : List Registration) (operation : EpollCtl) (r : Registration) :
    Option (List Registration) :=
  match operation with
  | .add => if ∀ q ∈ epfd, q.fd ≠ r.fd then some (epfd ++ [r]) else none
  | .mod => if ∀ q ∈ epfd, q.fd ≠ r.fd then none
    else some (epfd.map fun q => if q.fd = r.fd then r else q)
  | .del => if ∀ q ∈ epfd, q.fd ≠ r.fd then none else some (epfd.filter fun q => q.fd ≠ r.fd)

namespace EpollPoller

/-- The registrations with events, and what is reported of each. -/
def reports (p : EpollPoller) (ready : Readiness) : List (ChannelPtr × Events) :=
  p.epfd.filterMap fun r =>
    if 0 < report ready r.fd r.events then some (r.data, report ready r.fd r.events) else none

/-- `::epoll_wait` fills the array as far as it goes, in any order. -/
def Answers (p : EpollPoller) (ready : Readiness) (answer : List (ChannelPtr × Events)) : Prop :=
  List.Subperm answer (p.reports ready) ∧ answer.length = min p.events (p.reports ready).length

instance (p : EpollPoller) (ready : Readiness) (answer : List (ChannelPtr × Events)) :
    Decidable (p.Answers ready answer) := inferInstanceAs (Decidable (_ ∧ _))

end EpollPoller

namespace EpollSystem

def update (s : EpollSystem) (operation : EpollCtl) (c : ChannelPtr) :
    Except Fault EpollSystem :=
  match epoll_ctl s.poller.epfd operation ⟨c.fd, (s.channels c).events, c⟩ with
  | some epfd => .ok { s with poller := { s.poller with epfd := epfd } }
  | none => .error .sysFatal

def updateChannel (s : EpollSystem) (c : ChannelPtr) : Except Fault EpollSystem :=
  if (s.channels c).index < 0 then do
    ensure (s.poller.channels c.fd = none) (.assertion .updateChannel)
    let channels := Function.update s.poller.channels c.fd (some c)
    update { poller := { s.poller with channels }, channels := s.channels.set_index c 1 } .add c
  else do
    ensure (s.poller.channels c.fd ≠ none) (.assertion .updateChannel)
    ensure (s.poller.channels c.fd = some c) (.assertion .updateChannel)
    ensure ((s.channels c).index = 1) (.assertion .updateChannel)
    s.update .mod c

/-- The index of the removed channel stays what it was. -/
def removeChannel (s : EpollSystem) (c : ChannelPtr) : Except Fault EpollSystem := do
  ensure (s.poller.channels c.fd ≠ none) (.assertion .removeChannel)
  ensure (s.poller.channels c.fd = some c) (.assertion .removeChannel)
  ensure ((s.channels c).events = kNoneEvent) (.assertion .removeChannel)
  let channels := Function.update s.poller.channels c.fd none
  update { s with poller := { s.poller with channels } } .del c

/-- The loop over the first `numEvents` elements of `events_`. -/
def fillActiveChannels (map : Int → Option ChannelPtr) :
    List (ChannelPtr × Events) → Channels → List ChannelPtr →
      Except Fault (Channels × List ChannelPtr)
  | [], channels, activeChannels => .ok (channels, activeChannels)
  | (c, events) :: answer, channels, activeChannels => do
    ensure (map c.fd ≠ none) (.assertion .fillActiveChannels)
    ensure (map c.fd = some c) (.assertion .fillActiveChannels)
    ensure ((channels c).index = 1) (.assertion .fillActiveChannels)
    fillActiveChannels map answer (channels.set_revents c events) (activeChannels ++ [c])

def poll (s : EpollSystem) (ready : Readiness) (answer : List (ChannelPtr × Events)) :
    Except Fault (EpollSystem × List ChannelPtr) := do
  ensure (s.poller.Answers ready answer) .notEnabled
  if 0 < answer.length then do
    ensure (answer.length ≤ s.poller.events) (.assertion .fillActiveChannels)
    let (channels, activeChannels) ← fillActiveChannels s.poller.channels answer s.channels []
    let events := if answer.length = s.poller.events then s.poller.events * 2 else s.poller.events
    .ok ({ poller := { s.poller with events := events }, channels := channels }, activeChannels)
  else .ok (s, [])

def changed (s : EpollSystem) (c : ChannelPtr) (change : Change) : EpollSystem :=
  { s with channels := s.channels.change c change }

def init : EpollSystem := {}

def step (s : EpollSystem) : Action → Except Fault EpollSystem
  | .update c change => (s.changed c change).updateChannel c
  | .removeChannel c => s.removeChannel c
  | .poll ready answer => do
    let (s, _) ← s.poll ready answer
    .ok s

def Registered (s : EpollSystem) (c : ChannelPtr) : Prop := s.poller.channels c.fd = some c

instance (s : EpollSystem) (c : ChannelPtr) : Decidable (s.Registered c) :=
  inferInstanceAs (Decidable (_ = _))

/-! ## What each step does -/

variable {as : List Action} {a : Action} {s s' : EpollSystem} {c c' : ChannelPtr}

/-- The registration of a channel with what it asks for. -/
def registration (s : EpollSystem) (c : ChannelPtr) : Registration :=
  ⟨c.fd, (s.channels c).events, c⟩

/-- What `updateChannel` does. -/
inductive Updates (s : EpollSystem) (c : ChannelPtr) : EpollSystem → Prop where
  | added : (s.channels c).index < 0 → s.poller.channels c.fd = none →
      (∀ q ∈ s.poller.epfd, q.fd ≠ c.fd) → Updates s c {
        poller := { s.poller with
          epfd := s.poller.epfd ++ [s.registration c]
          channels := Function.update s.poller.channels c.fd (some c) }
        channels := s.channels.set_index c 1 }
  | changed : (s.channels c).index = 1 → s.Registered c →
      Updates s c { s with poller := { s.poller with
        epfd := s.poller.epfd.map fun q => if q.fd = c.fd then s.registration c else q } }

theorem update_ok {operation : EpollCtl} (h : s.update operation c = .ok s') :
    ∃ epfd, epoll_ctl s.poller.epfd operation (s.registration c) = some epfd ∧
      s' = { s with poller := { s.poller with epfd := epfd } } := by
  rw [update] at h
  split at h
  · cases h
    exact ⟨_, ‹_›, rfl⟩
  · cases h

theorem updates_of_updateChannel (h : s.updateChannel c = .ok s') : Updates s c s' := by
  rw [updateChannel] at h
  split at h
  · rename_i hindex
    obtain ⟨_, hnone, h⟩ := bind_eq_ok.mp h
    obtain ⟨epfd, hctl, rfl⟩ := update_ok h
    simp only [epoll_ctl, Option.ite_none_right_eq_some, Option.some.injEq] at hctl
    obtain ⟨hfree, rfl⟩ := hctl
    have hadded := Updates.added hindex (ensure_eq_ok.mp hnone) hfree
    have hreg : registration { s with channels := s.channels.set_index c 1 } c =
        s.registration c := by
      rw [registration, Channels.set_index_events]
      rfl
    rwa [← hreg] at hadded
  · obtain ⟨_, -, h⟩ := bind_eq_ok.mp h
    obtain ⟨_, hreg, h⟩ := bind_eq_ok.mp h
    obtain ⟨_, hindex, h⟩ := bind_eq_ok.mp h
    obtain ⟨epfd, hctl, rfl⟩ := update_ok h
    simp only [epoll_ctl, Option.ite_none_left_eq_some, Option.some.injEq] at hctl
    obtain ⟨-, rfl⟩ := hctl
    exact .changed (ensure_eq_ok.mp hindex) (ensure_eq_ok.mp hreg)

theorem removeChannel_ok (h : s.removeChannel c = .ok s') :
    s.Registered c ∧ (s.channels c).events = kNoneEvent ∧ s' = { s with poller := { s.poller with
      epfd := s.poller.epfd.filter fun q => q.fd ≠ c.fd
      channels := Function.update s.poller.channels c.fd none } } := by
  obtain ⟨_, -, h⟩ := bind_eq_ok.mp h
  obtain ⟨_, hreg, h⟩ := bind_eq_ok.mp h
  obtain ⟨_, hnone, h⟩ := bind_eq_ok.mp h
  obtain ⟨epfd, hctl, rfl⟩ := update_ok h
  simp only [epoll_ctl, Option.ite_none_left_eq_some, Option.some.injEq] at hctl
  obtain ⟨-, rfl⟩ := hctl
  exact ⟨ensure_eq_ok.mp hreg, ensure_eq_ok.mp hnone, rfl⟩

/-! ## The registrations -/

/-- The registrations are those of the registered channels. -/
structure Table (s : EpollSystem) : Prop where
  named : ∀ n c, s.poller.channels n = some c → n = c.fd
  mem_epfd : ∀ r, r ∈ s.poller.epfd ↔ ∃ c, s.Registered c ∧ r = s.registration c
  distinct : (s.poller.epfd.map Registration.fd).Nodup
  size : 0 < s.poller.events

theorem table_init : Table init :=
  ⟨nofun, fun _ => iff_of_false nofun nofun, .nil, Nat.succ_pos _⟩

/-- Registered channels have different descriptors. -/
theorem Registered.eq (h : s.Registered c) (h' : s.Registered c') (hfd : c.fd = c'.fd) :
    c = c' := by
  rw [Registered, hfd] at h
  exact Option.some_inj.mp (h.symm.trans h')

theorem registration_congr (h : (s'.channels c).events = (s.channels c).events) :
    s'.registration c = s.registration c := by rw [registration, registration, h]

/-- What the calls so far say about a channel. -/
structure FollowsAt (as : List Action) (s : EpollSystem) (c : ChannelPtr) : Prop
    extends Tracked as c (s.Registered c) (s.channels c) where
  index_one : 0 ≤ (s.channels c).index → (s.channels c).index = 1

structure Follows (as : List Action) (s : EpollSystem) : Prop where
  table : Table s
  channel : ∀ c, FollowsAt as s c

theorem follows_init : Follows [] init where
  table := table_init
  channel _ := { tracked_new nofun with index_one := nofun }

/-- A step that leaves a channel alone. -/
theorem FollowsAt.frame (h : FollowsAt as s c) (hu : updates c (as ++ [a]) = updates c as)
    (hr : ¬ a.Removes c) (hreg : s'.Registered c ↔ s.Registered c)
    (hindex : (s'.channels c).index = (s.channels c).index)
    (hevents : (s'.channels c).events = (s.channels c).events) : FollowsAt (as ++ [a]) s' c where
  toTracked := h.toTracked.frame hu hr hreg (.inl hindex) hevents
  index_one := by
    rw [hindex]
    exact h.index_one

/-- The first update of a channel. -/
theorem Follows.added (h : Follows as s) {change : Change}
    (hindex : ((s.changed c change).channels c).index < 0)
    (hnone : s.poller.channels c.fd = none) (hfree : ∀ q ∈ s.poller.epfd, q.fd ≠ c.fd) :
    Follows (as ++ [.update c change]) {
      poller := { s.poller with
        epfd := s.poller.epfd ++ [(s.changed c change).registration c]
        channels := Function.update s.poller.channels c.fd (some c) }
      channels := (s.changed c change).channels.set_index c 1 } := by
  have hnew : updates c as = [] := by
    rcases (h.channel c).index with hi | hi
    · exact hi.1
    · have hsame : ((s.changed c change).channels c).index = (s.channels c).index :=
        Channels.change_index change
      omega
  have hother : ∀ x, x ≠ c → (s.changed c change).channels.set_index c 1 x = s.channels x :=
    fun x hx => (Channels.set_index_of_ne hx 1).trans (Channels.change_of_ne hx change)
  have hevents : ((s.changed c change).channels.set_index c 1 c).events =
      change.apply (s.channels c).events :=
    (Channels.set_index_events 1).trans (Channels.change_self change)
  refine ⟨⟨named_add h.table.named, fun r => ?_, ?_, h.table.size⟩, fun x => ?_⟩
  · rw [List.mem_append, List.mem_singleton, h.table.mem_epfd]
    constructor
    · intro hr
      rcases hr with ⟨x, hx, rfl⟩ | rfl
      · have hne : x ≠ c := fun he => by
          rw [he, Registered, hnone] at hx
          cases hx
        refine ⟨x, (lookup_add hnone hne _).mpr hx, registration_congr ?_⟩
        exact (congrArg Channel.events (hother x hne)).symm
      · refine ⟨c, Function.update_self .., registration_congr ?_⟩
        exact (Channels.set_index_events 1).symm
    · intro hr
      obtain ⟨x, hx, rfl⟩ := hr
      by_cases hne : x = c
      · subst hne
        exact .inr (registration_congr (Channels.set_index_events 1))
      · refine .inl ⟨x, (lookup_add hnone hne _).mp hx, registration_congr ?_⟩
        exact congrArg Channel.events (hother x hne)
  · rw [List.map_append, List.nodup_append]
    refine ⟨h.table.distinct, List.pairwise_singleton _ _, ?_⟩
    intro fd hfd fd' hfd' he
    obtain ⟨q, hq, rfl⟩ := List.mem_map.mp hfd
    rw [List.map_singleton, List.mem_singleton] at hfd'
    exact hfree q hq (he.trans hfd')
  · by_cases hx : x = c
    · subst hx
      refine ⟨(h.channel x).toTracked.updated ((h.channel x).fresh hnew) (Function.update_self ..)
        ?_ hevents, fun _ => Channels.set_index_self 1⟩
      exact (Channels.set_index_self 1).symm ▸ Int.one_nonneg
    · exact (h.channel x).frame (updates_update_of_ne hx change) id (lookup_add hnone hx _)
        (congrArg Channel.index (hother x hx)) (congrArg Channel.events (hother x hx))

/-- A later update of a channel. -/
theorem Follows.changed (h : Follows as s) {change : Change}
    (hindex : ((s.changed c change).channels c).index = 1)
    (hreg : (s.changed c change).Registered c) :
    Follows (as ++ [.update c change]) { s.changed c change with poller := { s.poller with
      epfd := s.poller.epfd.map fun q =>
        if q.fd = c.fd then (s.changed c change).registration c else q } } := by
  have hother : ∀ x, x ≠ c → (s.changed c change).channels x = s.channels x :=
    fun x hx => Channels.change_of_ne hx change
  refine ⟨⟨h.table.named, fun r => ?_, ?_, h.table.size⟩, fun x => ?_⟩
  · rw [List.mem_map]
    constructor
    · intro hr
      obtain ⟨q, hq, rfl⟩ := hr
      obtain ⟨x, hx, rfl⟩ := (h.table.mem_epfd q).mp hq
      split
      · exact ⟨c, hreg, rfl⟩
      · rename_i hfd
        refine ⟨x, hx, (registration_congr (congrArg Channel.events (hother x ?_))).symm⟩
        exact fun he => hfd (congrArg ChannelPtr.fd he)
    · intro hr
      obtain ⟨x, hx, rfl⟩ := hr
      refine ⟨s.registration x, (h.table.mem_epfd _).mpr ⟨x, hx, rfl⟩, ?_⟩
      split
      · rename_i hfd
        rw [Registered.eq hx hreg hfd]
        rfl
      · rename_i hfd
        refine (registration_congr (congrArg Channel.events (hother x ?_))).symm
        exact fun he => hfd (congrArg ChannelPtr.fd he)
  · have hfds : (s.poller.epfd.map fun q =>
        if q.fd = c.fd then (s.changed c change).registration c else q).map Registration.fd =
          s.poller.epfd.map Registration.fd := by
      rw [List.map_map]
      refine List.map_congr_left fun q _ => ?_
      rw [Function.comp_apply]
      split
      · exact (show c.fd = q.fd from ‹q.fd = c.fd›.symm)
      · rfl
    rw [hfds]
    exact h.table.distinct
  · by_cases hx : x = c
    · subst hx
      have hnonneg : 0 ≤ ((s.changed x change).channels x).index := hindex.symm ▸ Int.one_nonneg
      exact ⟨(h.channel x).toTracked.updated ((h.channel x).registered.mp hreg).2 hreg hnonneg
        (Channels.change_self change), fun _ => hindex⟩
    · exact (h.channel x).frame (updates_update_of_ne hx change) id Iff.rfl
        (congrArg Channel.index (hother x hx)) (congrArg Channel.events (hother x hx))

theorem Follows.removed (h : Follows as s) (hc : s.Registered c) :
    Follows (as ++ [.removeChannel c]) { s with poller := { s.poller with
      epfd := s.poller.epfd.filter fun q => q.fd ≠ c.fd
      channels := Function.update s.poller.channels c.fd none } } := by
  refine ⟨⟨named_erase h.table.named, fun r => ?_, ?_, h.table.size⟩, fun x => ?_⟩
  · rw [List.mem_filter, h.table.mem_epfd, decide_eq_true_eq]
    constructor
    · intro hr
      obtain ⟨⟨x, hx, rfl⟩, hfd⟩ := hr
      have hne : x ≠ c := fun he => hfd (congrArg ChannelPtr.fd he)
      exact ⟨x, (lookup_erase hc hne _).mpr hx, rfl⟩
    · intro hr
      obtain ⟨x, hx, rfl⟩ := hr
      have hne : x ≠ c := fun he => lookup_erased s.poller.channels c (he ▸ hx)
      have hx' : s.Registered x := (lookup_erase hc hne _).mp hx
      exact ⟨⟨x, hx', rfl⟩, fun hfd => hne (Registered.eq hx' hc hfd)⟩
  · exact h.table.distinct.sublist (List.filter_sublist.map _)
  · by_cases hx : x = c
    · subst hx
      exact ⟨(h.channel x).toTracked.removed hc (lookup_erased s.poller.channels x) rfl rfl,
        (h.channel x).index_one⟩
    · exact (h.channel x).frame updates_removeChannel (fun he => hx he.symm)
        (lookup_erase hc hx _) rfl rfl

/-! ## What a poll delivers -/

/-- One loop iteration for each element of the array, if each is a registered channel. -/
theorem fillActiveChannels_eq {map : Int → Option ChannelPtr}
    {answer : List (ChannelPtr × Events)} {channels : Channels}
    (h : ∀ p ∈ answer, map p.1.fd = some p.1 ∧ (channels p.1).index = 1)
    (active : List ChannelPtr) :
    fillActiveChannels map answer channels active =
      .ok (channels.setAll answer, active ++ answer.map Prod.fst) := by
  induction answer generalizing channels active with
  | nil => rw [fillActiveChannels, List.map_nil, List.append_nil, Channels.setAll_nil]
  | cons p answer ih =>
    obtain ⟨hmap, hindex⟩ := h p List.mem_cons_self
    have hrest : ∀ q ∈ answer, map q.1.fd = some q.1 ∧
        (channels.set_revents p.1 p.2 q.1).index = 1 := by
      intro q hq
      rw [Channels.set_revents_index]
      exact h q (List.mem_cons_of_mem _ hq)
    rw [fillActiveChannels, ensure_of (by rw [hmap]; nofun), ok_bind, ensure_of hmap, ok_bind,
      ensure_of hindex, ok_bind, ih hrest, List.append_assoc]
    rfl

theorem Table.mem_reports (h : Table s) (ready : Readiness) (p : ChannelPtr × Events) :
    p ∈ s.poller.reports ready ↔ ∃ c, s.Registered c ∧
      0 < report ready c.fd (s.channels c).events ∧
      p = (c, report ready c.fd (s.channels c).events) := by
  rw [EpollPoller.reports, List.mem_filterMap]
  constructor
  · intro hp
    obtain ⟨r, hr, hp⟩ := hp
    obtain ⟨c, hc, rfl⟩ := (h.mem_epfd r).mp hr
    split at hp
    · cases hp
      exact ⟨c, hc, ‹_›, rfl⟩
    · cases hp
  · intro hp
    obtain ⟨c, hc, hpos, rfl⟩ := hp
    exact ⟨s.registration c, (h.mem_epfd _).mpr ⟨c, hc, rfl⟩, if_pos hpos⟩

/-- A channel is reported once. -/
theorem Table.nodup_reports (h : Table s) (ready : Readiness) :
    ((s.poller.reports ready).map Prod.fst).Nodup := by
  have hdistinct : s.poller.epfd.Pairwise fun q r => q.data ≠ r.data := by
    have hfd := List.pairwise_map.mp h.distinct
    refine hfd.imp_of_mem fun hq hr hne hdata => hne ?_
    obtain ⟨x, -, rfl⟩ := (h.mem_epfd _).mp hq
    obtain ⟨y, -, rfl⟩ := (h.mem_epfd _).mp hr
    exact congrArg ChannelPtr.fd hdata
  rw [List.Nodup, List.pairwise_map]
  refine List.Pairwise.filterMap _ ?_ hdistinct
  intro q r hne p hp p' hp'
  simp only [Option.ite_none_right_eq_some, Option.some.injEq] at hp hp'
  rw [← hp.2, ← hp'.2]
  exact hne

theorem Follows.poll_eq (h : Follows as s) {ready : Readiness}
    {answer : List (ChannelPtr × Events)} (ha : s.poller.Answers ready answer) :
    ∃ events, 0 < events ∧ s.poll ready answer = .ok ({
      poller := { s.poller with events := events }
      channels := s.channels.setAll answer }, answer.map Prod.fst) := by
  have hknown : ∀ p ∈ answer, s.poller.channels p.1.fd = some p.1 ∧
      (s.channels p.1).index = 1 := by
    intro p hp
    obtain ⟨c, hc, -, rfl⟩ := (h.table.mem_reports ready p).mp (ha.1.subset hp)
    refine ⟨hc, (h.channel c).index_one ?_⟩
    rcases (h.channel c).index with hnew | hold
    · exact absurd hnew.1 ((h.channel c).registered.mp hc).1
    · exact hold.2
  have hsize : answer.length ≤ s.poller.events := ha.2 ▸ Nat.min_le_left ..
  rw [poll, ensure_of ha, ok_bind]
  split
  · rw [ensure_of hsize, ok_bind, fillActiveChannels_eq hknown, ok_bind]
    refine ⟨_, ?_, rfl⟩
    have hpos := h.table.size
    split <;> omega
  · rename_i hnone
    rw [List.eq_nil_of_length_eq_zero (Nat.eq_zero_of_not_pos hnone)]
    exact ⟨s.poller.events, h.table.size, rfl⟩

/-- A poll changes nothing but what it reports, and the size of the array. -/
theorem Follows.polled (h : Follows as s) (ready : Readiness)
    (answer : List (ChannelPtr × Events)) {events : Nat} (hsize : 0 < events) :
    Follows (as ++ [.poll ready answer]) {
      poller := { s.poller with events := events }
      channels := s.channels.setAll answer } := by
  refine ⟨⟨h.table.named, fun r => ?_, h.table.distinct, hsize⟩, fun x => ?_⟩
  · rw [h.table.mem_epfd]
    refine exists_congr fun x => and_congr_right fun _ => ?_
    exact iff_of_eq (congrArg (r = ·) (registration_congr Channels.setAll_events).symm)
  · exact (h.channel x).frame (updates_poll ready answer) id Iff.rfl Channels.setAll_index
      Channels.setAll_events

theorem follows_step (h : Follows as s) (hs : step s a = .ok s') : Follows (as ++ [a]) s' := by
  cases a with
  | update c change =>
    cases updates_of_updateChannel hs with
    | added hindex hnone hfree => exact h.added hindex hnone hfree
    | changed hindex hreg => exact h.changed hindex hreg
  | removeChannel c =>
    obtain ⟨hc, -, rfl⟩ := removeChannel_ok hs
    exact h.removed hc
  | poll ready answer =>
    obtain ⟨⟨t, active⟩, ht, hs⟩ := bind_eq_ok.mp hs
    cases hs
    have ha : s.poller.Answers ready answer := by
      obtain ⟨_, ha, -⟩ := bind_eq_ok.mp ht
      exact ensure_eq_ok.mp ha
    obtain ⟨events, hsize, heq⟩ := h.poll_eq ha
    cases heq.symm.trans ht
    exact h.polled ready answer hsize

theorem follows_run (hrun : run step init as = .ok s) : Follows as s :=
  run_history (J := Follows) follows_init (fun _ _ _ _ _ h hs => follows_step h hs) hrun

end EpollSystem

end Summer.Net.Pollers
