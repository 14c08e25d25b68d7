import Summer.Net.PollPoller

/-!
# What PollPoller watches

The calls of its channels determine the entries of `pollfds_`: which channels have one, and
whether it is ignored. An update that leaves a channel without events ignores its entry, but
not the update that registers it, and nothing takes that back.
-/
namespace Summer.Net.Pollers.PollSystem

open Summer.Lib

variable {as : List Action} {a : Action} {s s' : PollSystem} {c c' : ChannelPtr} {i : Nat}
  {pfd : PollFd}

/-! ## Registration and position -/

theorem slot_of_registered (h : s.Registered c) (hi : (s.channels c).index = i) :
    s.slot c = some i := by
  rw [slot, if_pos h, hi, Int.toNat_natCast]

theorem slot_of_not_registered (h : ¬ s.Registered c) : s.slot c = none := if_neg h

theorem registered_of_slot (h : s.slot c = some i) :
    s.Registered c ∧ (s.channels c).index.toNat = i := by
  rw [slot] at h
  split at h
  · cases h
    exact ⟨‹_›, rfl⟩
  · cases h

theorem registered_of_entry {pfd : PollFd} (h : s.entry c = some pfd) : s.Registered c := by
  obtain ⟨i, hi, -⟩ := slot_of_entryOf h
  exact (registered_of_slot hi).1

/-- The same objects under the same descriptors have the same positions. -/
theorem slot_congr (hreg : s'.Registered c ↔ s.Registered c)
    (hindex : s.Registered c → (s'.channels c).index = (s.channels c).index) :
    s'.slot c = s.slot c := by
  by_cases hc : s.Registered c
  · rw [slot, slot, if_pos hc, if_pos (hreg.mpr hc), hindex hc]
  · rw [slot_of_not_registered hc, slot_of_not_registered (mt hreg.mp hc)]

/-! ## The table -/

/-- The table is dense, and a channel is found under the descriptor of its entry. -/
structure Table (s : PollSystem) : Prop where
  dense : Dense s.slot s.poller.pollfds
  named : ∀ n c, s.poller.channels n = some c → n = c.fd
  encoded : ∀ c pfd, s.entry c = some pfd → pfd.fd = c.fd ∨ pfd.fd = -c.fd - 1

theorem table_init : Table init := ⟨dense_nil, nofun, nofun⟩

theorem Table.exists_entry (h : Table s) (hc : s.Registered c) : ∃ pfd, s.entry c = some pfd :=
  h.dense.entryOf_isSome (if_pos hc)

/-- One entry is set, and no other changes. -/
theorem encoded_update {e : ChannelPtr → Option PollFd} {o : Option PollFd}
    (h : e = Function.update s.entry c o)
    (hs : Table s) (ho : ∀ pfd, o = some pfd → pfd.fd = c.fd ∨ pfd.fd = -c.fd - 1) :
    ∀ c pfd, e c = some pfd → pfd.fd = c.fd ∨ pfd.fd = -c.fd - 1 := by
  intro x pfd hx
  rw [h, Function.update_apply] at hx
  split at hx
  · rename_i hc
    rw [hc]
    exact ho pfd hx
  · exact hs.encoded x pfd hx

theorem append_of_ne (h : c' ≠ c) : (s.append c pfd).channels c' = s.channels c' :=
  Channels.set_index_of_ne h _

theorem slot_append (hnone : s.poller.channels c.fd = none) :
    (s.append c pfd).slot = Function.update s.slot c (some s.poller.pollfds.length) := by
  funext x
  by_cases hx : x = c
  · subst hx
    rw [Function.update_self]
    exact slot_of_registered (Function.update_self ..) (Channels.set_index_self _)
  · rw [Function.update_of_ne hx]
    exact slot_congr (lookup_add hnone hx _) fun _ => by rw [append_of_ne hx]

theorem entry_append (h : Table s) (hnone : s.poller.channels c.fd = none) (pfd : PollFd) :
    (s.append c pfd).entry = Function.update s.entry c (some pfd) := by
  show entryOf (s.append c pfd).slot _ = _
  rw [slot_append hnone]
  exact h.dense.entryOf_push pfd

theorem Table.append (h : Table s) (hnone : s.poller.channels c.fd = none)
    (hpfd : pfd.fd = c.fd ∨ pfd.fd = -c.fd - 1) : Table (s.append c pfd) := by
  have hfree : s.slot c = none := by
    apply slot_of_not_registered
    rw [Registered, hnone]
    nofun
  refine ⟨?_, named_add h.named, encoded_update (entry_append h hnone pfd) h ?_⟩
  · rw [slot_append hnone]
    exact h.dense.push hfree pfd
  · intro pfd' ho
    cases ho
    exact hpfd

theorem entry_put (h : Table s) (hi : s.slot c = some i) (pfd : PollFd) :
    (s.put i pfd).entry = Function.update s.entry c (some pfd) := h.dense.entryOf_set hi pfd

theorem Table.put (h : Table s) (hi : s.slot c = some i)
    (hpfd : pfd.fd = c.fd ∨ pfd.fd = -c.fd - 1) : Table (s.put i pfd) := by
  refine ⟨h.dense.set i pfd, h.named, encoded_update (entry_put h hi pfd) h ?_⟩
  intro pfd' ho
  cases ho
  exact hpfd

theorem not_registered_dropBack : ¬ (s.dropBack c).Registered c :=
  lookup_erased s.poller.channels c

theorem not_registered_moveBack {atEnd : ChannelPtr} : ¬ (s.moveBack c i atEnd).Registered c :=
  lookup_erased s.poller.channels c

theorem slot_dropBack (hc : s.Registered c) :
    (s.dropBack c).slot = Function.update s.slot c none := by
  funext x
  by_cases hx : x = c
  · subst hx
    rw [Function.update_self]
    exact slot_of_not_registered not_registered_dropBack
  · rw [Function.update_of_ne hx]
    exact slot_congr (lookup_erase hc hx _) fun _ => rfl

theorem entry_dropBack (h : Table s) (hc : s.Registered c)
    (hi : s.slot c = some (s.poller.pollfds.length - 1)) :
    (s.dropBack c).entry = Function.update s.entry c none := by
  show entryOf (s.dropBack c).slot _ = _
  rw [slot_dropBack hc]
  exact h.dense.entryOf_pop hi

theorem Table.dropBack (h : Table s) (hc : s.Registered c)
    (hi : s.slot c = some (s.poller.pollfds.length - 1)) : Table (s.dropBack c) := by
  refine ⟨?_, named_erase h.named, encoded_update (entry_dropBack h hc hi) h nofun⟩
  rw [slot_dropBack hc]
  exact h.dense.pop hi

/-- The channel that is found under the descriptor of the last entry has that entry. -/
theorem Table.atEnd (h : Table s) (hc : s.Registered c)
    (hi : s.slot c ≠ some (s.poller.pollfds.length - 1)) {back : PollFd} {atEnd : ChannelPtr}
    (hback : s.poller.pollfds[s.poller.pollfds.length - 1]? = some back)
    (hend : Function.update s.poller.channels c.fd none
      (if back.fd < 0 then -back.fd - 1 else back.fd) = some atEnd) :
    atEnd ≠ c ∧ s.Registered atEnd ∧ s.slot atEnd = some (s.poller.pollfds.length - 1) := by
  obtain ⟨k, hk⟩ := h.dense.owner (List.getElem?_eq_some_iff.mp hback).1
  have hkc : k ≠ c := fun he => hi (he ▸ hk)
  have hkreg := (registered_of_slot hk).1
  have hentry : s.entry k = some back := (entryOf_of_slot hk).trans hback
  have hfd : (if back.fd < 0 then -back.fd - 1 else back.fd) = (k.fd : Int) := by
    rcases h.encoded k back hentry with hfd | hfd
    · rw [if_neg (by omega), hfd]
    · rw [if_pos (by omega)]
      omega
  rw [hfd, (lookup_erase hc hkc _).mpr hkreg] at hend
  cases hend
  exact ⟨hkc, hkreg, hk⟩

theorem slot_moveBack {atEnd : ChannelPtr} (hc : s.Registered c) (hne : atEnd ≠ c)
    (hend : s.Registered atEnd) : (s.moveBack c i atEnd).slot =
      Function.update (Function.update s.slot atEnd (some i)) c none := by
  funext x
  by_cases hx : x = c
  · subst hx
    rw [Function.update_self]
    exact slot_of_not_registered not_registered_moveBack
  · rw [Function.update_of_ne hx]
    by_cases hxe : x = atEnd
    · subst hxe
      rw [Function.update_self]
      exact slot_of_registered ((lookup_erase hc hx _).mpr hend) (Channels.set_index_self _)
    · rw [Function.update_of_ne hxe]
      refine slot_congr (lookup_erase hc hx _) fun _ => ?_
      exact congrArg Channel.index (Channels.set_index_of_ne hxe _)

theorem entry_moveBack {atEnd : ChannelPtr} (h : Table s) (hc : s.Registered c)
    (hi : s.slot c = some i) (hne : atEnd ≠ c) (hend : s.Registered atEnd)
    (hlast : s.slot atEnd = some (s.poller.pollfds.length - 1)) :
    (s.moveBack c i atEnd).entry = Function.update s.entry c none := by
  show entryOf (s.moveBack c i atEnd).slot _ = _
  rw [slot_moveBack hc hne hend]
  exact h.dense.entryOf_swapRemove hi hlast hne.symm

theorem Table.moveBack {atEnd : ChannelPtr} (h : Table s) (hc : s.Registered c)
    (hi : s.slot c = some i) (hne : atEnd ≠ c) (hend : s.Registered atEnd)
    (hlast : s.slot atEnd = some (s.poller.pollfds.length - 1)) :
    Table (s.moveBack c i atEnd) := by
  refine ⟨?_, named_erase h.named, encoded_update (entry_moveBack h hc hi hne hend hlast) h nofun⟩
  rw [slot_moveBack hc hne hend]
  exact h.dense.swapRemove hi hlast

/-! ## What the calls say -/

/-- What the calls so far say about a channel and its entry. -/
structure FollowsAt (as : List Action) (s : PollSystem) (c : ChannelPtr) : Prop
    extends Tracked as c (s.Registered c) (s.channels c) where
  entry : ∀ pfd, s.entry c = some pfd →
    pfd.fd = (if Disabled as c then -c.fd - 1 else c.fd : Int) ∧
      pfd.events = (s.channels c).events

structure Follows (as : List Action) (s : PollSystem) : Prop where
  table : Table s
  channel : ∀ c, FollowsAt as s c

theorem follows_init : Follows [] init where
  table := table_init
  channel _ := { tracked_new nofun with entry := nofun }

/-- A step that leaves a channel alone. -/
theorem FollowsAt.frame (h : FollowsAt as s c) (hu : updates c (as ++ [a]) = updates c as)
    (hr : ¬ a.Removes c) (hreg : s'.Registered c ↔ s.Registered c)
    (hindex : (s'.channels c).index = (s.channels c).index ∨
      s.Registered c ∧ 0 ≤ (s'.channels c).index)
    (hevents : (s'.channels c).events = (s.channels c).events)
    (hentry : ∀ pfd', s'.entry c = some pfd' →
      ∃ pfd, s.entry c = some pfd ∧ pfd'.fd = pfd.fd ∧ pfd'.events = pfd.events) :
    FollowsAt (as ++ [a]) s' c where
  toTracked := h.toTracked.frame hu hr hreg hindex hevents
  entry pfd' hpfd' := by
    obtain ⟨pfd, hpfd, hfd, hev⟩ := hentry pfd' hpfd'
    obtain ⟨hfd', hev'⟩ := h.entry pfd hpfd
    simp only [disabled_concat hu, hfd, hev, hevents]
    exact ⟨hfd', hev'⟩

/-- A step that sets the entry of another channel. -/
theorem FollowsAt.other (h : FollowsAt as s c') (hne : c' ≠ c) {o : Option PollFd}
    (hu : updates c' (as ++ [a]) = updates c' as) (hr : ¬ a.Removes c')
    (hreg : s'.Registered c' ↔ s.Registered c')
    (hindex : (s'.channels c').index = (s.channels c').index ∨
      s.Registered c' ∧ 0 ≤ (s'.channels c').index)
    (hevents : (s'.channels c').events = (s.channels c').events)
    (hentry : s'.entry = Function.update s.entry c o) : FollowsAt (as ++ [a]) s' c' := by
  refine h.frame hu hr hreg hindex hevents fun pfd hpfd => ⟨pfd, ?_, rfl, rfl⟩
  rwa [hentry, Function.update_of_ne hne] at hpfd

theorem slot_changed (change : Change) : (s.changed c change).slot = s.slot := by
  funext x
  exact slot_congr Iff.rfl fun _ => Channels.change_index change

theorem entry_changed (change : Change) : (s.changed c change).entry = s.entry := by
  funext x
  rw [entry, slot_changed]
  rfl

theorem Table.changed (h : Table s) (c : ChannelPtr) (change : Change) :
    Table (s.changed c change) := by
  refine ⟨?_, h.named, ?_⟩
  · rw [slot_changed]
    exact h.dense
  · rw [entry_changed]
    exact h.encoded

/-- The first update of a channel. -/
theorem Follows.added (h : Follows as s) {change : Change} {e : Events}
    (he : ((s.changed c change).channels c).events = e)
    (hindex : ((s.changed c change).channels c).index = -1)
    (hnone : (s.changed c change).poller.channels c.fd = none) :
    Follows (as ++ [.update c change]) ((s.changed c change).append c ⟨c.fd, e, 0⟩) := by
  have htable := h.table.changed c change
  have hentry := entry_append htable hnone ⟨c.fd, e, 0⟩
  rw [entry_changed] at hentry
  refine ⟨htable.append hnone (.inl rfl), fun x => ?_⟩
  by_cases hx : x = c
  · subst hx
    have hnew : updates x as = [] := by
      rcases (h.channel x).index with hi | hi
      · exact hi.1
      · have hindex' := (Channels.change_index change).symm.trans hindex
        omega
    have hevents : (((s.changed x change).append x ⟨x.fd, e, 0⟩).channels x).events = e :=
      (Channels.set_index_events _).trans he
    refine ⟨(h.channel x).toTracked.updated ((h.channel x).fresh hnew) (Function.update_self ..)
      ?_ ?_, ?_⟩
    · exact (Channels.set_index_self _).symm ▸ Int.natCast_nonneg _
    · rw [hevents, ← he]
      exact Channels.change_self change
    · intro pfd hpfd
      rw [hentry, Function.update_self] at hpfd
      cases hpfd
      refine ⟨(if_neg ?_).symm, hevents.symm⟩
      rw [Disabled, updates_update]
      exact not_disabled_first hnew
  · have hsame : ((s.changed c change).append c ⟨c.fd, e, 0⟩).channels x = s.channels x :=
      (append_of_ne hx).trans (Channels.change_of_ne hx change)
    exact (h.channel x).other hx (updates_update_of_ne hx change) id (lookup_add hnone hx _)
      (.inl (congrArg Channel.index hsame)) (congrArg Channel.events hsame) hentry

/-- A later update of a channel. -/
theorem Follows.changed (h : Follows as s) {change : Change} {e : Events}
    (he : ((s.changed c change).channels c).events = e)
    (hindex : ((s.changed c change).channels c).index = i)
    (hreg : (s.changed c change).Registered c)
    (hpfd : (s.changed c change).poller.pollfds[i]? = some pfd) :
    Follows (as ++ [.update c change]) ((s.changed c change).put i
      ⟨if e = kNoneEvent then -c.fd - 1 else pfd.fd, e, 0⟩) := by
  have htable := h.table.changed c change
  have hslot := slot_of_registered hreg hindex
  have hold : s.entry c = some pfd := by
    rw [← entry_changed]
    exact (entryOf_of_slot hslot).trans hpfd
  have hfd := ((h.channel c).entry pfd hold).1
  have hentry := entry_put htable hslot
    ⟨if e = kNoneEvent then -c.fd - 1 else pfd.fd, e, 0⟩
  rw [entry_changed] at hentry
  refine ⟨htable.put hslot ?_, fun x => ?_⟩
  · dsimp only
    split
    · exact .inr rfl
    · exact h.table.encoded c pfd hold
  by_cases hx : x = c
  · subst hx
    obtain ⟨hne, hkept⟩ := (h.channel x).registered.mp hreg
    have hcurrent : change.apply (current (updates x as)) = e := by
      rw [← he, ← (h.channel x).events]
      exact (Channels.change_self change).symm
    refine ⟨(h.channel x).toTracked.updated hkept hreg ?_ (Channels.change_self change), ?_⟩
    · exact hindex.symm ▸ Int.natCast_nonneg _
    · intro pfd' hpfd'
      rw [hentry, Function.update_self] at hpfd'
      cases hpfd'
      refine ⟨?_, he.symm⟩
      simp only [disabled_update hne, hcurrent, hfd]
      split <;> simp_all
  · have hsame : (s.changed c change).channels x = s.channels x := Channels.change_of_ne hx change
    exact (h.channel x).other hx (updates_update_of_ne hx change) id Iff.rfl
      (.inl (congrArg Channel.index hsame)) (congrArg Channel.events hsame) hentry

/-- The channel is not registered any more. -/
theorem FollowsAt.removed (h : FollowsAt as s c) (hc : s.Registered c)
    (hchannel : s'.channels c = s.channels c) (hreg : ¬ s'.Registered c) :
    FollowsAt (as ++ [.removeChannel c]) s' c where
  toTracked := h.toTracked.removed hc hreg (congrArg Channel.index hchannel)
    (congrArg Channel.events hchannel)
  entry _ hpfd := absurd (registered_of_entry hpfd) hreg

/-- What a removal does to the table, the channels and the entries. -/
structure Removed (s : PollSystem) (c : ChannelPtr) (s' : PollSystem) : Prop where
  table : Table s'
  removed : ¬ s'.Registered c
  registered : ∀ x, x ≠ c → (s'.Registered x ↔ s.Registered x)
  entry : s'.entry = Function.update s.entry c none
  channel : s'.channels c = s.channels c
  events : ∀ x, (s'.channels x).events = (s.channels x).events
  index : ∀ x, (s'.channels x).index = (s.channels x).index ∨
    s.Registered x ∧ 0 ≤ (s'.channels x).index

theorem Removes.spec (hr : Removes s c s') (h : Table s) (hc : s.Registered c) :
    Removed s c s' := by
  cases hr with
  | last hindex hlast =>
    have hslot : s.slot c = some (s.poller.pollfds.length - 1) :=
      hlast ▸ slot_of_registered hc hindex
    exact ⟨h.dropBack hc hslot, not_registered_dropBack, fun x hx => lookup_erase hc hx _,
      entry_dropBack h hc hslot, rfl, fun _ => rfl, fun _ => .inl rfl⟩
  | @inner i back atEnd hindex hne hback hend =>
    have hslot := slot_of_registered hc hindex
    have hinner : s.slot c ≠ some (s.poller.pollfds.length - 1) := by
      rw [hslot]
      exact fun he => hne (Option.some_inj.mp he)
    obtain ⟨hec, hereg, helast⟩ := h.atEnd hc hinner hback hend
    refine ⟨h.moveBack hc hslot hec hereg helast, not_registered_moveBack,
      fun x hx => lookup_erase hc hx _, entry_moveBack h hc hslot hec hereg helast,
      Channels.set_index_of_ne hec.symm _, fun _ => Channels.set_index_events _, fun x => ?_⟩
    by_cases hxe : x = atEnd
    · subst hxe
      exact .inr ⟨hereg, (Channels.set_index_self _).symm ▸ Int.natCast_nonneg _⟩
    · exact .inl (congrArg Channel.index (Channels.set_index_of_ne hxe _))

theorem Follows.removed (h : Follows as s) (hc : s.Registered c) (hr : Removes s c s') :
    Follows (as ++ [.removeChannel c]) s' := by
  have hspec := hr.spec h.table hc
  refine ⟨hspec.table, fun x => ?_⟩
  by_cases hx : x = c
  · subst hx
    exact (h.channel x).removed hc hspec.channel hspec.removed
  · have hother : ¬ (Action.removeChannel c).Removes x := fun he => hx he.symm
    exact (h.channel x).other hx updates_removeChannel hother (hspec.registered x hx)
      (hspec.index x) (hspec.events x) hspec.entry

/-! ## What a poll delivers -/

/-- The channel of an entry with events. -/
def activePair (map : Int → Option ChannelPtr) (pfd : PollFd) : Option (ChannelPtr × Events) :=
  if 0 < pfd.revents.toInt then (map pfd.fd).map fun c => (c, pfd.revents) else none

def activePairs (map : Int → Option ChannelPtr) (pollfds : List PollFd) :
    List (ChannelPtr × Events) := pollfds.filterMap (activePair map)

theorem activePair_eq_some {map : Int → Option ChannelPtr} {p : ChannelPtr × Events} :
    activePair map pfd = some p ↔
      0 < pfd.revents.toInt ∧ map pfd.fd = some p.1 ∧ p.2 = pfd.revents := by
  rw [activePair]
  split
  · rename_i hready
    rw [Option.map_eq_some_iff]
    constructor
    · intro h
      obtain ⟨c, hc, rfl⟩ := h
      exact ⟨hready, hc, rfl⟩
    · intro h
      exact ⟨p.1, h.2.1, Prod.ext rfl h.2.2.symm⟩
  · rename_i hready
    exact iff_of_false nofun fun h => hready h.1

theorem activePairs_cons_of_pos {map : Int → Option ChannelPtr} (pollfds : List PollFd)
    (hready : 0 < pfd.revents.toInt) (hmap : map pfd.fd = some c) :
    activePairs map (pfd :: pollfds) = (c, pfd.revents) :: activePairs map pollfds :=
  List.filterMap_cons_some (activePair_eq_some.mpr ⟨hready, hmap, rfl⟩)

theorem activePairs_cons_of_not {map : Int → Option ChannelPtr} (pollfds : List PollFd)
    (hready : ¬ 0 < pfd.revents.toInt) :
    activePairs map (pfd :: pollfds) = activePairs map pollfds :=
  List.filterMap_cons_none (if_neg hready)

theorem fillActiveChannels_zero (map : Int → Option ChannelPtr) (pollfds : List PollFd)
    (channels : Channels) (active : List ChannelPtr) :
    fillActiveChannels map 0 pollfds channels active = .ok (channels, active) := by
  cases pollfds with
  | nil => rfl
  | cons pfd pollfds => rw [fillActiveChannels, if_neg (Nat.lt_irrefl 0)]

/-- A count that covers the entries with events stops the loop behind the last of them. -/
theorem fillActiveChannels_eq {map : Int → Option ChannelPtr} {pollfds : List PollFd}
    (h : ∀ pfd ∈ pollfds, 0 < pfd.revents.toInt → ∃ c, map pfd.fd = some c ∧ (c.fd : Int) = pfd.fd)
    {numEvents : Nat} (hn : (pollfds.countP fun pfd => 0 < pfd.revents.toInt) ≤ numEvents)
    (channels : Channels) (active : List ChannelPtr) :
    fillActiveChannels map numEvents pollfds channels active =
      .ok (channels.setAll (activePairs map pollfds),
        active ++ (activePairs map pollfds).map Prod.fst) := by
  induction pollfds generalizing numEvents channels active with
  | nil => simp [fillActiveChannels, activePairs]
  | cons pfd pollfds ih =>
    have hrest := fun pfd' hmem => h pfd' (List.mem_cons_of_mem pfd hmem)
    by_cases hready : 0 < pfd.revents.toInt
    · obtain ⟨c, hmap, hfd⟩ := h pfd List.mem_cons_self hready
      have hcount : (pfd :: pollfds).countP (fun pfd => 0 < pfd.revents.toInt) =
          pollfds.countP (fun pfd => 0 < pfd.revents.toInt) + 1 :=
        List.countP_cons_of_pos (decide_eq_true hready)
      rw [fillActiveChannels, if_pos (by omega), if_pos hready, hmap,
        activePairs_cons_of_pos pollfds hready hmap]
      dsimp only
      rw [ensure_of hfd, ok_bind, ih hrest (by omega), List.append_assoc]
      rfl
    · have hcount : (pfd :: pollfds).countP (fun pfd => 0 < pfd.revents.toInt) =
          pollfds.countP (fun pfd => 0 < pfd.revents.toInt) :=
        List.countP_cons_of_neg (by simpa using hready)
      rw [activePairs_cons_of_not pollfds hready, ← ih hrest (hcount ▸ hn) channels active,
        fillActiveChannels, if_neg hready]
      split
      · rfl
      · rename_i hnone
        rw [Nat.eq_zero_of_not_pos hnone, fillActiveChannels_zero]

/-- The loop is told of every entry that it looks for. -/
theorem countP_pos_le (pollfds : List PollFd) :
    (pollfds.countP fun pfd => 0 < pfd.revents.toInt) ≤
      pollfds.countP fun pfd => pfd.revents ≠ 0 := by
  refine List.countP_mono_left fun pfd _ hpos => ?_
  rw [decide_eq_true_eq] at hpos ⊢
  intro hzero
  rw [hzero] at hpos
  exact absurd hpos (by decide)

/-- An entry that the kernel does not ignore has the descriptor of its channel. -/
theorem Table.owner_of_nonneg (h : Table s) (hpfd : pfd ∈ s.poller.pollfds) (h0 : 0 ≤ pfd.fd) :
    ∃ c, s.entry c = some pfd ∧ s.Registered c ∧ pfd.fd = c.fd := by
  obtain ⟨c, hentry⟩ := h.dense.mem_iff.mp hpfd
  refine ⟨c, hentry, registered_of_entry hentry, ?_⟩
  rcases h.encoded c pfd hentry with hfd | hfd
  · exact hfd
  · omega

theorem Table.polled (h : Table s) (ready : Readiness) (hpfd : pfd ∈ s.poller.pollfds)
    (hready : 0 < (pfd.polled ready).revents.toInt) :
    ∃ c, s.entry c = some pfd ∧ s.Registered c ∧ pfd.fd = c.fd := by
  apply h.owner_of_nonneg hpfd
  by_contra hneg
  rw [PollFd.polled, if_pos (by omega)] at hready
  simp at hready

/-- The pairs that a poll in this state delivers. -/
def ready (s : PollSystem) (ready : Readiness) : List (ChannelPtr × Events) :=
  activePairs s.poller.channels (s.poller.pollfds.map (PollFd.polled ready))

theorem poll_eq (h : Table s) (ready : Readiness) :
    s.poll ready = .ok ({
      poller := { s.poller with pollfds := s.poller.pollfds.map (PollFd.polled ready) }
      channels := s.channels.setAll (s.ready ready) }, (s.ready ready).map Prod.fst) := by
  have hfill : fillActiveChannels s.poller.channels _ _ s.channels [] =
      .ok (s.channels.setAll (s.ready ready), _) :=
    fillActiveChannels_eq ?_ (countP_pos_le _) s.channels []
  · rw [poll]
    dsimp only
    rw [List.nil_append] at hfill
    split
    · rw [hfill, ok_bind]
      rfl
    · rename_i hnone
      rw [Nat.eq_zero_of_not_pos hnone, fillActiveChannels_zero] at hfill
      obtain ⟨-, hactive⟩ := Prod.mk.inj (Except.ok.inj hfill)
      have hnil : s.ready ready = [] := List.map_eq_nil_iff.mp hactive.symm
      rw [ok_bind, hnil]
      rfl
  · intro pfd' hpfd' hready
    obtain ⟨pfd, hpfd, rfl⟩ := List.mem_map.mp hpfd'
    obtain ⟨c, -, hc, hfd⟩ := h.polled ready hpfd hready
    exact ⟨c, (congrArg s.poller.channels hfd).trans hc, hfd.symm⟩

/-- The state after a poll. -/
def polled (s : PollSystem) (ready : Readiness) : PollSystem where
  poller := { s.poller with pollfds := s.poller.pollfds.map (PollFd.polled ready) }
  channels := s.channels.setAll (s.ready ready)

theorem slot_polled (ready : Readiness) : (s.polled ready).slot = s.slot := by
  funext x
  exact slot_congr Iff.rfl fun _ => Channels.setAll_index

theorem entry_polled (ready : Readiness) (c : ChannelPtr) :
    (s.polled ready).entry c = (s.entry c).map (PollFd.polled ready) := by
  rw [entry, slot_polled, entry, entryOf, entryOf, Option.map_bind]
  congr
  funext i
  exact List.getElem?_map

/-- A poll changes nothing but what it reports. -/
theorem Follows.polled (h : Follows as s) (ready : Readiness)
    (answer : List (ChannelPtr × Events)) :
    Follows (as ++ [.poll ready answer]) (s.polled ready) := by
  have hlen : (s.polled ready).poller.pollfds.length = s.poller.pollfds.length :=
    List.length_map _
  have hentry : ∀ c pfd', (s.polled ready).entry c = some pfd' →
      ∃ pfd, s.entry c = some pfd ∧ pfd'.fd = pfd.fd ∧ pfd'.events = pfd.events := by
    intro c pfd' hpfd'
    rw [entry_polled] at hpfd'
    obtain ⟨pfd, hpfd, rfl⟩ := Option.map_eq_some_iff.mp hpfd'
    exact ⟨pfd, hpfd, rfl, rfl⟩
  refine ⟨⟨?_, h.table.named, ?_⟩, fun x => ?_⟩
  · rw [slot_polled]
    exact h.table.dense.of_length hlen
  · intro c pfd' hpfd'
    obtain ⟨pfd, hpfd, hfd, -⟩ := hentry c pfd' hpfd'
    rw [hfd]
    exact h.table.encoded c pfd hpfd
  · exact (h.channel x).frame (updates_poll ready answer) id Iff.rfl (.inl Channels.setAll_index)
      Channels.setAll_events (hentry x)

theorem follows_step (h : Follows as s) (hs : step s a = .ok s') : Follows (as ++ [a]) s' := by
  cases a with
  | update c change =>
    cases updates_of_updateChannel hs with
    | added hindex hnone => exact h.added rfl hindex hnone
    | changed hindex hreg hpfd => exact h.changed rfl hindex hreg hpfd
  | removeChannel c =>
    obtain ⟨hc, hr⟩ := removes_of_removeChannel hs
    exact h.removed hc hr
  | poll ready answer =>
    rw [step, poll_eq h.table ready, ok_bind] at hs
    cases hs
    exact h.polled ready answer

theorem follows_run (hrun : run step init as = .ok s) : Follows as s :=
  run_history (J := Follows) follows_init (fun _ _ _ _ _ h hs => follows_step h hs) hrun

/-- The entries of two channels have different descriptors. -/
theorem Table.pairwise_fd (h : Table s) : s.poller.pollfds.Pairwise fun p q => p.fd ≠ q.fd := by
  rw [List.pairwise_iff_getElem]
  intro i j hi hj hij hfd
  obtain ⟨x, hx⟩ := h.dense.owner hi
  obtain ⟨y, hy⟩ := h.dense.owner hj
  have hx' := h.encoded x _ ((entryOf_of_slot hx).trans (List.getElem?_eq_getElem hi))
  have hy' := h.encoded y _ ((entryOf_of_slot hy).trans (List.getElem?_eq_getElem hj))
  have hsame : x.fd = y.fd := by omega
  have hxreg := (registered_of_slot hx).1
  rw [Registered, hsame, (registered_of_slot hy).1] at hxreg
  cases hxreg
  cases hx.symm.trans hy
  omega

/-- A channel is delivered once. -/
theorem Table.nodup_ready (h : Table s) (ready : Readiness) :
    ((s.ready ready).map Prod.fst).Nodup := by
  have hfd : (s.poller.pollfds.map (PollFd.polled ready)).Pairwise fun p q => p.fd ≠ q.fd :=
    List.pairwise_map.mpr h.pairwise_fd
  rw [List.Nodup, List.pairwise_map]
  refine List.Pairwise.filterMap _ ?_ hfd
  intro p q hne a ha b hb hab
  have hp := h.named p.fd a.1 (activePair_eq_some.mp ha).2.1
  have hq := h.named q.fd b.1 (activePair_eq_some.mp hb).2.1
  exact hne (by rw [hp, hq, hab])

/-- A registered channel that is not ignored is reported with what it asks for. -/
theorem Follows.mem_ready (h : Follows as s) (ready : Readiness) (p : ChannelPtr × Events) :
    p ∈ s.ready ready ↔ ∃ c, Pollers.Registered as c ∧ ¬ Disabled as c ∧
      0 < report ready c.fd (current (updates c as)) ∧
      p = (c, report ready c.fd (current (updates c as))) := by
  have hreport : ∀ c pfd, s.entry c = some pfd → pfd.fd = c.fd →
      (pfd.polled ready).revents = report ready c.fd (current (updates c as)) := by
    intro c pfd hpfd hfd
    have hnonneg : ¬ pfd.fd < 0 := by omega
    rw [PollFd.polled, if_neg hnonneg, ((h.channel c).entry pfd hpfd).2, (h.channel c).events,
      hfd, Int.toNat_natCast]
  rw [PollSystem.ready, activePairs, List.mem_filterMap]
  constructor
  · intro hp
    obtain ⟨q, hq, hp⟩ := hp
    obtain ⟨pfd, hpfd, rfl⟩ := List.mem_map.mp hq
    obtain ⟨hready, hmap, hp2⟩ := activePair_eq_some.mp hp
    obtain ⟨c, hentry, hc, hfd⟩ := h.table.polled ready hpfd hready
    have hpc : some c = some p.1 := hc.symm.trans ((congrArg s.poller.channels hfd).symm.trans hmap)
    have hrevents := hreport c pfd hentry hfd
    rw [hrevents, report_pos_iff] at hready
    refine ⟨c, (h.channel c).registered.mp hc, fun hdisabled => ?_, hready,
      Prod.ext (Option.some_inj.mp hpc).symm (hp2.trans hrevents)⟩
    have hfd' := ((h.channel c).entry pfd hentry).1
    rw [if_pos hdisabled, hfd] at hfd'
    omega
  · intro hp
    obtain ⟨c, hc, henabled, hpos, rfl⟩ := hp
    have hreg := (h.channel c).registered.mpr hc
    obtain ⟨pfd, hentry⟩ := h.table.exists_entry hreg
    have hfd := ((h.channel c).entry pfd hentry).1
    rw [if_neg henabled] at hfd
    have hrevents := hreport c pfd hentry hfd
    refine ⟨pfd.polled ready, List.mem_map_of_mem (h.table.dense.mem_iff.mpr ⟨c, hentry⟩), ?_⟩
    refine activePair_eq_some.mpr ⟨?_, ?_, hrevents.symm⟩
    · rwa [hrevents, report_pos_iff]
    · exact (congrArg s.poller.channels hfd).trans hreg

/-! ## What it watches -/

theorem Follows.watches_iff_disabled (h : Follows as s) : s.Watches ↔ ∀ c, Pollers.Registered as c →
    (Disabled as c ↔ current (updates c as) = kNoneEvent) := by
  constructor
  · intro hw c hc
    have hreg := (h.channel c).registered.mpr hc
    obtain ⟨pfd, hpfd⟩ := h.table.exists_entry hreg
    have hfd := ((h.channel c).entry pfd hpfd).1
    rw [← (h.channel c).events]
    constructor
    · intro hdisabled
      by_contra hevents
      obtain ⟨pfd', hpfd', hfd', -⟩ := hw.enabled c hreg hevents
      cases hpfd.symm.trans hpfd'
      rw [if_pos hdisabled, hfd'] at hfd
      omega
    · intro hnone
      by_contra henabled
      have hneg := hw.disabled c hreg hnone pfd hpfd
      rw [if_neg henabled] at hfd
      omega
  · intro hall
    constructor
    · intro c hreg hevents
      obtain ⟨pfd, hpfd⟩ := h.table.exists_entry hreg
      obtain ⟨hfd, hmask⟩ := (h.channel c).entry pfd hpfd
      refine ⟨pfd, hpfd, hfd.trans (if_neg fun hdisabled => hevents ?_), hmask⟩
      rw [(h.channel c).events]
      exact (hall c ((h.channel c).registered.mp hreg)).mp hdisabled
    · intro c hreg hnone pfd hpfd
      rw [(h.channel c).events] at hnone
      have hdisabled := (hall c ((h.channel c).registered.mp hreg)).mpr hnone
      rw [((h.channel c).entry pfd hpfd).1, if_pos hdisabled]
      omega

/-- Every entry shows what its channel asks for exactly when the channels without events are
those that some update after the first has left without. -/
theorem watches_iff (hrun : run step init as = .ok s) :
    s.Watches ↔ ∀ c, Pollers.Registered as c →
      (Disabled as c ↔ current (updates c as) = kNoneEvent) :=
  (follows_run hrun).watches_iff_disabled

/-- One channel stays enabled, and the entry of the other is taken by the last one. -/
theorem watches_iff_sample :
    ∃ s, run step init [.update ⟨5, 0⟩ .enableReading, .update ⟨6, 0⟩ .enableReading,
        .update ⟨6, 0⟩ .enableWriting, .update ⟨5, 0⟩ .disableAll,
        .removeChannel ⟨5, 0⟩, .update ⟨6, 0⟩ .disableWriting] = .ok s ∧
      s.Watches := by
  have hend : endsIn step (fun _ => true) init [.update ⟨5, 0⟩ .enableReading,
        .update ⟨6, 0⟩ .enableReading, .update ⟨6, 0⟩ .enableWriting, .update ⟨5, 0⟩ .disableAll,
        .removeChannel ⟨5, 0⟩, .update ⟨6, 0⟩ .disableWriting] = true := by
    decide +kernel
  obtain ⟨s, hrun, -⟩ := endsIn_iff.mp hend
  refine ⟨s, hrun, (watches_iff hrun).mpr fun c hc => ?_⟩
  obtain ⟨hne, hkept⟩ := hc
  by_cases h5 : c = ⟨5, 0⟩
  · subst h5
    exact absurd rfl (hkept (.removeChannel ⟨5, 0⟩) (by simp))
  · by_cases h6 : c = ⟨6, 0⟩
    · subst h6
      decide
    · refine absurd ?_ hne
      simp [updates, Action.updates, Ne.symm h5, Ne.symm h6]

/-- A channel that is enabled again after it had no events is not watched. -/
theorem enabled_again_not_watched :
    ∃ s, run step init [.update ⟨5, 0⟩ .enableReading, .update ⟨5, 0⟩ .disableAll,
        .update ⟨5, 0⟩ .enableReading] = .ok s ∧ ¬ s.Watches := by
  have hend : endsIn step (fun s => decide (s.Registered ⟨5, 0⟩) &&
        decide ((s.channels ⟨5, 0⟩).events = kReadEvent) &&
        decide (s.entry ⟨5, 0⟩ = some ⟨-6, kReadEvent, 0⟩))
      init [.update ⟨5, 0⟩ .enableReading, .update ⟨5, 0⟩ .disableAll,
        .update ⟨5, 0⟩ .enableReading] = true := by
    decide +kernel
  obtain ⟨s, hrun, hs⟩ := endsIn_iff.mp hend
  rw [Bool.and_eq_true, Bool.and_eq_true, decide_eq_true_eq, decide_eq_true_eq,
    decide_eq_true_eq] at hs
  refine ⟨s, hrun, fun hw => ?_⟩
  obtain ⟨pfd, hpfd, hfd, -⟩ := hw.enabled ⟨5, 0⟩ hs.1.1 (by rw [hs.1.2]; decide)
  cases hs.2.symm.trans hpfd
  cases hfd

end Summer.Net.Pollers.PollSystem
