import Summer.Net.PollInterest
import Summer.Net.EpollMirror

/-!
# Removing a channel and using it again

`EpollPoller` removes any registered channel without events. `PollPoller` asserts that the entry
is one the kernel ignores, and the update that registers a channel does not make it so. Neither
of them sets the index back, so a removed channel is taken for a registered one.
-/
namespace Summer.Net.Pollers

open Summer.Lib

variable {as : List Action} {c : ChannelPtr}

/-- `removeChannel` passes its assertions. -/
def Removable {S : Type} (step : S → Action → Except Fault S) (s : S) (c : ChannelPtr) : Prop :=
  ∃ s', step s (.removeChannel c) = .ok s'

/-- Once the channel is removed, every update of it fails an assertion, whatever comes between. -/
def Unusable {S : Type} (step : S → Action → Except Fault S) (s : S) (c : ChannelPtr) : Prop :=
  ∀ bs t change, run step s (.removeChannel c :: bs) = .ok t →
    step t (.update c change) = .error (.assertion .updateChannel)

/-- A channel without events was left so by its first update, or by a later one. -/
theorem disabled_iff (hc : Registered as c) (hnone : current (updates c as) = kNoneEvent) :
    Disabled as c ↔ 2 ≤ (updates c as).length := by
  obtain ⟨us, e, hus⟩ := (List.eq_nil_or_concat _).resolve_left hc.1
  rw [List.concat_eq_append] at hus
  rw [hus, current_concat] at hnone
  rw [Disabled, hus, List.length_append, List.length_singleton, hnone]
  cases us with
  | nil => exact iff_of_false (by simp) (by decide)
  | cons u us => exact iff_of_true (List.mem_append_right us (List.mem_singleton_self _)) (by simp)

namespace PollSystem

variable {s s' : PollSystem}

/-- The channel of the last entry is found under its descriptor. -/
theorem Table.exists_atEnd (h : Table s) (hc : s.Registered c) {i : Nat} (hi : s.slot c = some i)
    (hne : i ≠ s.poller.pollfds.length - 1) : ∃ back atEnd,
      s.poller.pollfds[s.poller.pollfds.length - 1]? = some back ∧
      Function.update s.poller.channels c.fd none
        (if back.fd < 0 then -back.fd - 1 else back.fd) = some atEnd := by
  have hbound := h.dense.bound hi
  have hlast : s.poller.pollfds.length - 1 < s.poller.pollfds.length := by omega
  obtain ⟨k, hk⟩ := h.dense.owner hlast
  have hkc : k ≠ c := by
    intro he
    rw [he, hi] at hk
    exact hne (Option.some_inj.mp hk)
  have hback := List.getElem?_eq_getElem hlast
  have hentry := (entryOf_of_slot hk).trans hback
  refine ⟨_, k, hback, ?_⟩
  have hkreg := (lookup_erase hc hkc _).mpr (registered_of_slot hk).1
  rcases h.encoded k _ hentry with hfd | hfd
  · rw [hfd, if_neg (by omega)]
    exact hkreg
  · rw [hfd, if_pos (by omega)]
    have hdecoded : -(-(k.fd : Int) - 1) - 1 = k.fd := by omega
    rw [hdecoded]
    exact hkreg

theorem pollfdAt_eq {p : PollPoller} {i : Nat} {pfd : PollFd} (h : p.pollfds[i]? = some pfd)
    (site : Site) : p.pollfdAt site i = .ok pfd := by
  show p.pollfdAt site (Int.ofNat i) = _
  simp only [PollPoller.pollfdAt, h]

/-- The assertion about the entry decides whether a channel without events is removed. -/
theorem Follows.removable_iff (h : Follows as s) (hc : s.Registered c)
    (hnone : (s.channels c).events = kNoneEvent) : Removable step s c ↔ Disabled as c := by
  obtain ⟨pfd, hpfd⟩ := h.table.exists_entry hc
  obtain ⟨i, hi, hentry⟩ := slot_of_entryOf hpfd
  obtain ⟨hfd, hevents⟩ := (h.channel c).entry pfd hpfd
  have hat := pollfdAt_eq hentry .removeChannel
  have hindex : (s.channels c).index = i := by
    rcases (h.channel c).index with hnew | hold
    · exact absurd hnew.1 ((h.channel c).registered.mp hc).1
    · rw [← (registered_of_slot hi).2, Int.toNat_of_nonneg hold.2]
  constructor
  · intro hr
    obtain ⟨s', hs⟩ := hr
    obtain ⟨_, -, hs⟩ := bind_eq_ok.mp hs
    obtain ⟨_, -, hs⟩ := bind_eq_ok.mp hs
    obtain ⟨_, -, hs⟩ := bind_eq_ok.mp hs
    obtain ⟨pfd', hpfd', hs⟩ := bind_eq_ok.mp hs
    obtain ⟨_, hen, -⟩ := bind_eq_ok.mp hs
    obtain ⟨hneg, -⟩ := ensure_eq_ok.mp hen
    rw [hindex, hat] at hpfd'
    cases hpfd'
    by_contra hdisabled
    rw [if_neg hdisabled] at hfd
    omega
  · intro hdisabled
    rw [if_pos hdisabled] at hfd
    have hmap : s.poller.channels c.fd = some c := hc
    have hsome : s.poller.channels c.fd ≠ none := Option.ne_none_iff_exists'.mpr ⟨c, hc⟩
    rw [Removable, step, removeChannel, ensure_of hsome, ok_bind, ensure_of hmap, ok_bind,
      ensure_of hnone, ok_bind, hindex]
    dsimp only
    rw [hat, ok_bind, ensure_of ⟨hfd, hevents⟩, ok_bind]
    by_cases hlast : i = s.poller.pollfds.length - 1
    · rw [Int.toNat_natCast, if_pos hlast]
      exact ⟨_, rfl⟩
    · obtain ⟨back, atEnd, hback, hend⟩ := h.table.exists_atEnd hc hi hlast
      rw [Int.toNat_natCast, if_neg hlast, pollfdAt_eq hback, ok_bind]
      simp only [hend]
      exact ⟨_, rfl⟩

theorem unusable (hrun : run step init as = .ok s) : Unusable step s c := by
  intro bs t change hbs
  have h := follows_run (run_append_ok.mpr ⟨s, hrun, hbs⟩)
  obtain ⟨hgone, hindex⟩ := (h.channel c).toTracked.spent (by simp)
  have hnot : ¬ ((t.changed c change).channels c).index = -1 := by
    have hsame : ((t.changed c change).channels c).index = (t.channels c).index :=
      Channels.change_index change
    omega
  have hother : ¬ (t.changed c change).poller.channels c.fd = some c := hgone
  rw [step, updateChannel, if_neg hnot]
  exact ensure_lookup_error hother _ _

end PollSystem

namespace EpollSystem

variable {s s' : EpollSystem}

theorem Follows.removable (h : Follows as s) (hc : s.Registered c)
    (hnone : (s.channels c).events = kNoneEvent) : Removable step s c := by
  have hmap : s.poller.channels c.fd = some c := hc
  have hsome : s.poller.channels c.fd ≠ none := Option.ne_none_iff_exists'.mpr ⟨c, hc⟩
  obtain ⟨r, hr, hfd⟩ := (h.mirrors.sameDescriptors c.fd).mpr hsome
  rw [Removable, step, removeChannel, ensure_of hsome, ok_bind, ensure_of hmap, ok_bind,
    ensure_of hnone, ok_bind, update, epoll_ctl, if_neg fun hfree => hfree r hr hfd]
  exact ⟨_, rfl⟩

theorem unusable (hrun : run step init as = .ok s) : Unusable step s c := by
  intro bs t change hbs
  have h := follows_run (run_append_ok.mpr ⟨s, hrun, hbs⟩)
  obtain ⟨hgone, hindex⟩ := (h.channel c).toTracked.spent (by simp)
  have hnot : ¬ ((t.changed c change).channels c).index < 0 := by
    have hsame : ((t.changed c change).channels c).index = (t.channels c).index :=
      Channels.change_index change
    omega
  have hother : ¬ (t.changed c change).poller.channels c.fd = some c := hgone
  rw [step, updateChannel, if_neg hnot]
  exact ensure_lookup_error hother _ _

end EpollSystem

/-- `PollPoller` removes a channel without events only if some update came after the one that
registered it, `EpollPoller` always, and neither lets a removed channel come back. -/
theorem removal_and_reuse (hc : Registered as c) (hnone : current (updates c as) = kNoneEvent) :
    (∀ s, run PollSystem.step .init as = .ok s →
      (Removable PollSystem.step s c ↔ 2 ≤ (updates c as).length) ∧
        Unusable PollSystem.step s c) ∧
    ∀ s, run EpollSystem.step .init as = .ok s →
      Removable EpollSystem.step s c ∧ Unusable EpollSystem.step s c := by
  constructor
  · intro s hrun
    have h := PollSystem.follows_run hrun
    have hreg := (h.channel c).registered.mpr hc
    have hevents := (h.channel c).events.trans hnone
    exact ⟨(h.removable_iff hreg hevents).trans (disabled_iff hc hnone), PollSystem.unusable hrun⟩
  · intro s hrun
    have h := EpollSystem.follows_run hrun
    have hreg := (h.channel c).registered.mpr hc
    have hevents := (h.channel c).events.trans hnone
    exact ⟨h.removable hreg hevents, EpollSystem.unusable hrun⟩

theorem removal_and_reuse_sample :
    ∃ s, run PollSystem.step .init
        [.update ⟨5, 0⟩ .enableReading, .update ⟨5, 0⟩ .disableAll] = .ok s ∧
      Removable PollSystem.step s ⟨5, 0⟩ ∧ Unusable PollSystem.step s ⟨5, 0⟩ := by
  have hend : endsIn PollSystem.step (fun _ => true) .init
      [.update ⟨5, 0⟩ .enableReading, .update ⟨5, 0⟩ .disableAll] = true := by decide +kernel
  obtain ⟨s, hrun, -⟩ := endsIn_iff.mp hend
  have hc : Registered [.update ⟨5, 0⟩ .enableReading, .update ⟨5, 0⟩ .disableAll] ⟨5, 0⟩ := by
    refine ⟨by decide, fun a ha => ?_⟩
    simp only [List.mem_cons, List.not_mem_nil, or_false] at ha
    rcases ha with rfl | rfl <;> exact id
  have hboth := (removal_and_reuse hc (by decide)).1 s hrun
  exact ⟨s, hrun, hboth.1.mpr (by decide), hboth.2⟩

/-- A channel whose first update asks for nothing is not removed by `PollPoller`, and one that
was removed cannot be enabled again by either. -/
theorem removed_channel_not_reused :
    run PollSystem.step .init [.update ⟨5, 0⟩ .disableAll, .removeChannel ⟨5, 0⟩] =
      .error (.assertion .removeChannel) ∧
    run PollSystem.step .init [.update ⟨5, 0⟩ .enableReading, .update ⟨5, 0⟩ .disableAll,
      .removeChannel ⟨5, 0⟩, .update ⟨5, 0⟩ .enableReading] =
      .error (.assertion .updateChannel) ∧
    run EpollSystem.step .init [.update ⟨5, 0⟩ .enableReading, .update ⟨5, 0⟩ .disableAll,
      .removeChannel ⟨5, 0⟩, .update ⟨5, 0⟩ .enableReading] =
      .error (.assertion .updateChannel) := ⟨rfl, rfl, rfl⟩

end Summer.Net.Pollers
