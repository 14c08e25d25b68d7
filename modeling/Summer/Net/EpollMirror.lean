import Summer.Net.EpollInterest

/-!
# What the kernel knows of the channels

`channels_`, the index of each channel and the list of the kernel are changed one after the
other, and agree after every operation. So `epoll_ctl` is never called for a descriptor that is
there already, or for one that is not, and every channel that `epoll_wait` gives back is known.
-/
namespace Summer.Net.Pollers.EpollSystem

open Summer.Lib

variable {as : List Action} {a : Action} {s s' : EpollSystem} {c : ChannelPtr}

/-- The kernel has one registration for each channel in `channels_`, with its current mask. -/
structure Mirrors (s : EpollSystem) : Prop where
  named : ∀ n c, s.poller.channels n = some c → n = c.fd
  interest : ∀ r, r ∈ s.poller.epfd ↔
    ∃ c, s.Registered c ∧ r = ⟨c.fd, (s.channels c).events, c⟩
  distinct : (s.poller.epfd.map Registration.fd).Nodup
  index : ∀ c, s.Registered c → (s.channels c).index = 1

/-- The assertions in the loop of `fillActiveChannels` hold for any list of registered channels, and
the one in front of it for whatever the kernel answers. -/
structure FillsActive (s : EpollSystem) : Prop where
  known : ∀ answer : List (ChannelPtr × Events), (∀ p ∈ answer, ∃ r ∈ s.poller.epfd, r.data = p.1) →
    fillActiveChannels s.poller.channels answer s.channels [] =
      .ok (s.channels.setAll answer, answer.map Prod.fst)
  answered : ∀ ready answer, s.poller.Answers ready answer →
    answer.length ≤ s.poller.events ∧ ∃ events, s.poll ready answer = .ok ({
      poller := { s.poller with events := events }
      channels := s.channels.setAll answer }, answer.map Prod.fst)

theorem Follows.index_eq (h : Follows as s) (hc : s.Registered c) : (s.channels c).index = 1 := by
  rcases (h.channel c).index with hnew | hold
  · exact absurd hnew.1 ((h.channel c).registered.mp hc).1
  · exact (h.channel c).index_one hold.2

theorem Follows.mirrors (h : Follows as s) : s.Mirrors where
  named := h.table.named
  interest := h.table.mem_epfd
  distinct := h.table.distinct
  index _ hc := h.index_eq hc

theorem Follows.fillsActive (h : Follows as s) : s.FillsActive := by
  refine ⟨fun answer hknown => fillActiveChannels_eq ?_ [], fun ready answer ha => ⟨?_, ?_⟩⟩
  · intro p hp
    obtain ⟨r, hr, hdata⟩ := hknown p hp
    obtain ⟨c, hc, rfl⟩ := (h.table.mem_epfd r).mp hr
    obtain rfl : c = p.1 := hdata
    exact ⟨hc, h.index_eq hc⟩
  · exact ha.2 ▸ Nat.min_le_left ..
  · obtain ⟨events, -, hpoll⟩ := h.poll_eq ha
    exact ⟨events, hpoll⟩

/-! ## No `epoll_ctl` fails -/

/-- The kernel has the descriptors of `channels_`. -/
def SameDescriptors (s : EpollSystem) : Prop :=
  ∀ fd : Nat, (∃ r ∈ s.poller.epfd, r.fd = fd) ↔ s.poller.channels fd ≠ none

theorem Mirrors.sameDescriptors (h : s.Mirrors) : s.SameDescriptors := by
  intro fd
  constructor
  · intro hr
    obtain ⟨r, hr, rfl⟩ := hr
    obtain ⟨c, hc, rfl⟩ := (h.interest r).mp hr
    exact Option.ne_none_iff_exists'.mpr ⟨c, hc⟩
  · intro hn
    obtain ⟨c, hc⟩ := Option.ne_none_iff_exists'.mp hn
    have hfd : fd = c.fd := Int.ofNat_inj.mp (h.named fd c hc)
    subst hfd
    exact ⟨_, (h.interest _).mpr ⟨c, hc, rfl⟩, rfl⟩

theorem update_sysFatal {operation : EpollCtl} (h : s.update operation c = .error .sysFatal) :
    epoll_ctl s.poller.epfd operation (s.registration c) = none := by
  rw [update] at h
  split at h
  · cases h
  · rename_i hnone
    exact hnone

theorem update_add_ne_sysFatal (h : ∀ r ∈ s.poller.epfd, r.fd ≠ c.fd) :
    s.update .add c ≠ .error .sysFatal := by
  intro hs
  have hctl : epoll_ctl s.poller.epfd .add (s.registration c) = some _ := if_pos h
  cases hctl.symm.trans (update_sysFatal hs)

theorem update_known_ne_sysFatal {operation : EpollCtl} (hop : operation ≠ .add)
    (h : ∃ r ∈ s.poller.epfd, r.fd = c.fd) : s.update operation c ≠ .error .sysFatal := by
  intro hs
  obtain ⟨r, hr, hfd⟩ := h
  have hknown : ¬ ∀ q ∈ s.poller.epfd, q.fd ≠ (s.registration c).fd := fun hfree => hfree r hr hfd
  have hctl := update_sysFatal hs
  cases operation with
  | add => exact hop rfl
  | mod =>
    rw [epoll_ctl, if_neg hknown] at hctl
    cases hctl
  | del =>
    rw [epoll_ctl, if_neg hknown] at hctl
    cases hctl

theorem updateChannel_ne_sysFatal (h : s.SameDescriptors) :
    s.updateChannel c ≠ .error .sysFatal := by
  rw [updateChannel]
  split
  · intro hs
    obtain ⟨hnone, hs⟩ := ensure_bind_error_of_ne hs (by simp)
    refine update_add_ne_sysFatal (fun r hr hfd => ?_) hs
    exact (h c.fd).mp ⟨r, hr, hfd⟩ hnone
  · intro hs
    obtain ⟨hsome, hs⟩ := ensure_bind_error_of_ne hs (by simp)
    obtain ⟨-, hs⟩ := ensure_bind_error_of_ne hs (by simp)
    obtain ⟨-, hs⟩ := ensure_bind_error_of_ne hs (by simp)
    exact update_known_ne_sysFatal (by simp) ((h c.fd).mpr hsome) hs

theorem removeChannel_ne_sysFatal (h : s.SameDescriptors) :
    s.removeChannel c ≠ .error .sysFatal := by
  intro hs
  obtain ⟨hsome, hs⟩ := ensure_bind_error_of_ne hs nofun
  obtain ⟨-, hs⟩ := ensure_bind_error_of_ne hs nofun
  obtain ⟨-, hs⟩ := ensure_bind_error_of_ne hs nofun
  refine update_known_ne_sysFatal (by nofun) ?_ hs
  exact (h c.fd).mpr hsome

theorem Follows.poll_ne_sysFatal (h : Follows as s) (ready : Readiness)
    (answer : List (ChannelPtr × Events)) : s.poll ready answer ≠ .error .sysFatal := by
  intro hs
  by_cases ha : s.poller.Answers ready answer
  · obtain ⟨events, -, hok⟩ := h.poll_eq ha
    cases hok.symm.trans hs
  · rw [poll, ensure_of_not ha] at hs
    cases hs

theorem Follows.step_ne_sysFatal (h : Follows as s) : step s a ≠ .error .sysFatal := by
  have hdescriptors := h.mirrors.sameDescriptors
  cases a with
  | update c change => exact updateChannel_ne_sysFatal (s := s.changed c change) hdescriptors
  | removeChannel c => exact removeChannel_ne_sysFatal hdescriptors
  | poll ready answer =>
    intro hs
    rcases bind_eq_error.mp hs with hs | ⟨_, -, hs⟩
    · exact h.poll_ne_sysFatal ready answer hs
    · cases hs

/-- After any calls the kernel has the channels of `channels_` with their masks, and no call of
`epoll_ctl` was for a descriptor it could not be made for. -/
theorem epoll_mirrors (as : List Action) : run step init as ≠ .error .sysFatal ∧
    ∀ s, run step init as = .ok s → s.Mirrors ∧ s.FillsActive := by
  constructor
  · intro hrun
    have hstep : ∀ s a t, (∃ as, Follows as s) → True → step s a = .ok t → ∃ as, Follows as t := by
      rintro s a t ⟨as, h⟩ - hs
      exact ⟨_, follows_step h hs⟩
    have herr : ∀ s a f, (∃ as, Follows as s) → True → step s a = .error f → ¬ f = .sysFatal := by
      rintro s a f ⟨as, h⟩ - hs rfl
      exact h.step_ne_sysFatal hs
    exact run_ne_error hstep herr ⟨[], follows_init⟩ along_true hrun rfl
  · intro s hrun
    have h := follows_run hrun
    exact ⟨h.mirrors, h.fillsActive⟩

/-- A descriptor is given to a second channel after the first one was removed. -/
theorem epoll_mirrors_sample :
    ∃ s, run step init [.update ⟨5, 0⟩ .enableReading, .update ⟨5, 0⟩ .disableAll,
        .removeChannel ⟨5, 0⟩, .update ⟨5, 1⟩ .enableWriting,
        .update ⟨6, 0⟩ .disableAll] = .ok s ∧ s.Registered ⟨5, 1⟩ ∧ s.Mirrors := by
  have hend : endsIn step (fun s => decide (s.Registered ⟨5, 1⟩)) init
      [.update ⟨5, 0⟩ .enableReading, .update ⟨5, 0⟩ .disableAll,
        .removeChannel ⟨5, 0⟩, .update ⟨5, 1⟩ .enableWriting,
        .update ⟨6, 0⟩ .disableAll] = true := by decide +kernel
  obtain ⟨s, hrun, hs⟩ := endsIn_iff.mp hend
  exact ⟨s, hrun, of_decide_eq_true hs, ((epoll_mirrors _).2 s hrun).1⟩

end Summer.Net.Pollers.EpollSystem
