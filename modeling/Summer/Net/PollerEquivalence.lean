import Summer.Net.PollInterest
import Summer.Net.EpollInterest

/-!
# The two back ends

After the same calls PollPoller and EpollPoller deliver the same channels, except those that an
update after the first has left without events. The kernel reports errors and hang-ups of these
to epoll, whatever they asked for since, and nothing to poll.
-/
namespace Summer.Net.Pollers

open Summer.Lib

variable {as : List Action} {s : PollSystem} {t : EpollSystem} {c : ChannelPtr}

/-- Both polls end, and the same pairs are delivered. -/
def SameDelivery (s : PollSystem) (t : EpollSystem) (ready : Readiness)
    (answer : List (ChannelPtr × Events)) : Prop :=
  ∃ s' active t' active', s.poll ready = .ok (s', active) ∧
    t.poll ready answer = .ok (t', active') ∧
    ∀ p, p ∈ delivered s'.channels active ↔ p ∈ delivered t'.channels active'

/-- Whatever the descriptors are ready for, as long as the array holds it. -/
def Interchangeable (s : PollSystem) (t : EpollSystem) : Prop :=
  ∀ ready answer, (t.poller.reports ready).length ≤ t.poller.events →
    t.poller.Answers ready answer → SameDelivery s t ready answer

/-- What epoll reports of the channels that the calls so far have registered. -/
theorem EpollSystem.Follows.mem_reports (h : EpollSystem.Follows as t) (ready : Readiness)
    (p : ChannelPtr × Events) :
    p ∈ t.poller.reports ready ↔ ∃ c, Pollers.Registered as c ∧
      0 < report ready c.fd (current (updates c as)) ∧
      p = (c, report ready c.fd (current (updates c as))) := by
  rw [h.table.mem_reports ready p]
  refine exists_congr fun c => and_congr (h.channel c).registered ?_
  rw [(h.channel c).events]

theorem EpollPoller.Answers.perm {p : EpollPoller} {ready : Readiness}
    {answer : List (ChannelPtr × Events)} (h : p.Answers ready answer)
    (hsize : (p.reports ready).length ≤ p.events) : answer.Perm (p.reports ready) := by
  have hlen : answer.length = (p.reports ready).length := h.2.trans (Nat.min_eq_right hsize)
  exact h.1.perm_of_length_le (Nat.le_of_eq hlen.symm)

/-- The same pairs are delivered exactly if both kernels report the same. -/
theorem sameDelivery_iff (hs : PollSystem.Follows as s) (ht : EpollSystem.Follows as t)
    {ready : Readiness} {answer : List (ChannelPtr × Events)}
    (hsize : (t.poller.reports ready).length ≤ t.poller.events)
    (ha : t.poller.Answers ready answer) :
    SameDelivery s t ready answer ↔ ∀ p, p ∈ s.ready ready ↔ p ∈ t.poller.reports ready := by
  have hperm := ha.perm hsize
  have hpoll := PollSystem.poll_eq hs.table ready
  have hdelivered := Channels.delivered_setAll s.channels (hs.table.nodup_ready ready)
  obtain ⟨events, -, hepoll⟩ := ht.poll_eq ha
  have hdelivered' := Channels.delivered_setAll t.channels
    ((hperm.map Prod.fst).nodup_iff.mpr (ht.table.nodup_reports ready))
  constructor
  · intro h p
    obtain ⟨s', active, t', active', hs', ht', hsame⟩ := h
    cases hpoll.symm.trans hs'
    cases hepoll.symm.trans ht'
    have hp := hsame p
    rw [hdelivered, hdelivered'] at hp
    exact hp.trans hperm.mem_iff
  · intro h
    refine ⟨_, _, _, _, hpoll, hepoll, fun p => ?_⟩
    rw [hdelivered, hdelivered']
    exact (h p).trans hperm.mem_iff.symm

/-- Only this descriptor is ready, for a hang-up. -/
def hangUp (c : ChannelPtr) : Readiness := fun fd => if fd = c.fd then POLLHUP else 0

theorem report_hangUp (c : ChannelPtr) (events : Events) :
    report (hangUp c) c.fd events = POLLHUP := by
  rw [report, hangUp, if_pos rfl]
  ext i
  simp only [BitVec.getElem_and, BitVec.getElem_or]
  cases POLLHUP[i] <;> simp

theorem report_hangUp_of_ne {fd : Nat} (h : fd ≠ c.fd) (events : Events) :
    report (hangUp c) fd events = 0 := by
  rw [report, hangUp, if_neg h]
  exact BitVec.zero_and

/-- A hang-up of one descriptor is one report at most. -/
theorem reports_hangUp (h : EpollSystem.Follows as t) (hc : Registered as c) :
    (t.poller.reports (hangUp c)).length ≤ 1 := by
  have hkeys : (t.poller.reports (hangUp c)).map Prod.fst ⊆ [c] := by
    intro x hx
    obtain ⟨p, hp, rfl⟩ := List.mem_map.mp hx
    obtain ⟨y, hy, hpos, rfl⟩ := (h.table.mem_reports (hangUp c) p).mp hp
    refine List.mem_singleton.mpr (hy.eq ((h.channel c).registered.mpr hc) ?_)
    by_contra hne
    rw [report_hangUp_of_ne hne] at hpos
    exact BitVec.lt_irrefl _ hpos
  have hlen := ((h.table.nodup_reports (hangUp c)).subperm hkeys).length_le
  rwa [List.length_map] at hlen

/-- The back ends are interchangeable exactly while no registered channel was left without
events by an update after its first. -/
theorem interchangeable_iff (hs : run PollSystem.step .init as = .ok s)
    (ht : run EpollSystem.step .init as = .ok t) :
    Interchangeable s t ↔ ∀ c, Registered as c → ¬ Disabled as c := by
  have hs := PollSystem.follows_run hs
  have ht := EpollSystem.follows_run ht
  constructor
  · intro h c hc hdisabled
    have hsize := Nat.le_trans (reports_hangUp ht hc) ht.table.size
    have ha : t.poller.Answers (hangUp c) (t.poller.reports (hangUp c)) :=
      ⟨.refl _, (Nat.min_eq_right hsize).symm⟩
    have hsame := (sameDelivery_iff hs ht hsize ha).mp (h (hangUp c) _ hsize ha)
    have hreported : (c, POLLHUP) ∈ t.poller.reports (hangUp c) := by
      refine (ht.mem_reports (hangUp c) _).mpr ⟨c, hc, ?_, ?_⟩
      · rw [report_hangUp]
        decide
      · rw [report_hangUp]
    obtain ⟨x, -, hx, -, hpair⟩ := (hs.mem_ready (hangUp c) _).mp ((hsame _).mpr hreported)
    cases (Prod.mk.inj hpair).1
    exact hx hdisabled
  · intro h ready answer hsize ha
    refine (sameDelivery_iff hs ht hsize ha).mpr fun p => ?_
    rw [hs.mem_ready, ht.mem_reports]
    refine exists_congr fun c => and_congr_right fun hc => ?_
    exact and_iff_right (h c hc)

/-- Two channels that always ask for something, and a poll that finds one of them. -/
theorem interchangeable_iff_sample :
    ∃ s t, run PollSystem.step .init [.update ⟨5, 0⟩ .enableReading, .update ⟨6, 0⟩ .enableReading,
          .poll (fun _ => POLLOUT) [], .update ⟨6, 0⟩ .enableWriting,
          .poll (fun _ => POLLOUT) [(⟨6, 0⟩, POLLOUT)], .update ⟨6, 0⟩ .disableWriting] = .ok s ∧
      run EpollSystem.step .init [.update ⟨5, 0⟩ .enableReading, .update ⟨6, 0⟩ .enableReading,
          .poll (fun _ => POLLOUT) [], .update ⟨6, 0⟩ .enableWriting,
          .poll (fun _ => POLLOUT) [(⟨6, 0⟩, POLLOUT)], .update ⟨6, 0⟩ .disableWriting] = .ok t ∧
      Interchangeable s t := by
  have hpoll : endsIn PollSystem.step (fun _ => true) .init [.update ⟨5, 0⟩ .enableReading,
        .update ⟨6, 0⟩ .enableReading, .poll (fun _ => POLLOUT) [], .update ⟨6, 0⟩ .enableWriting,
        .poll (fun _ => POLLOUT) [(⟨6, 0⟩, POLLOUT)], .update ⟨6, 0⟩ .disableWriting] = true := by
    decide +kernel
  have hepoll : endsIn EpollSystem.step (fun _ => true) .init [.update ⟨5, 0⟩ .enableReading,
        .update ⟨6, 0⟩ .enableReading, .poll (fun _ => POLLOUT) [], .update ⟨6, 0⟩ .enableWriting,
        .poll (fun _ => POLLOUT) [(⟨6, 0⟩, POLLOUT)], .update ⟨6, 0⟩ .disableWriting] = true := by
    decide +kernel
  obtain ⟨s, hs, -⟩ := endsIn_iff.mp hpoll
  obtain ⟨t, ht, -⟩ := endsIn_iff.mp hepoll
  refine ⟨s, t, hs, ht, (interchangeable_iff hs ht).mpr fun c hc => ?_⟩
  by_cases h5 : c = ⟨5, 0⟩
  · subst h5
    decide
  · by_cases h6 : c = ⟨6, 0⟩
    · subst h6
      decide
    · refine absurd ?_ hc.1
      simp [updates, Action.updates, Ne.symm h5, Ne.symm h6]

/-- A channel is disabled and enabled again: its input is delivered by epoll alone. -/
theorem enabled_again_differs :
    ∃ s t, run PollSystem.step .init [.update ⟨5, 0⟩ .enableReading, .update ⟨5, 0⟩ .disableAll,
          .update ⟨5, 0⟩ .enableReading] = .ok s ∧
      run EpollSystem.step .init [.update ⟨5, 0⟩ .enableReading, .update ⟨5, 0⟩ .disableAll,
          .update ⟨5, 0⟩ .enableReading] = .ok t ∧
      ¬ Interchangeable s t := by
  have hpoll : endsIn PollSystem.step (fun s => decide (s.ready (fun _ => POLLIN) = []))
        .init [.update ⟨5, 0⟩ .enableReading, .update ⟨5, 0⟩ .disableAll,
          .update ⟨5, 0⟩ .enableReading] = true := by
    decide +kernel
  have hepoll : endsIn EpollSystem.step
        (fun t => decide (t.poller.reports (fun _ => POLLIN) = [(⟨5, 0⟩, POLLIN)]) &&
          decide (t.poller.events = 20))
        .init [.update ⟨5, 0⟩ .enableReading, .update ⟨5, 0⟩ .disableAll,
          .update ⟨5, 0⟩ .enableReading] = true := by
    decide +kernel
  obtain ⟨s, hs, hnone⟩ := endsIn_iff.mp hpoll
  obtain ⟨t, ht, hone⟩ := endsIn_iff.mp hepoll
  rw [decide_eq_true_eq] at hnone
  rw [Bool.and_eq_true, decide_eq_true_eq, decide_eq_true_eq] at hone
  refine ⟨s, t, hs, ht, fun h => ?_⟩
  have hsize : (t.poller.reports fun _ => POLLIN).length ≤ t.poller.events := by
    rw [hone.1, hone.2]
    decide
  have ha : t.poller.Answers (fun _ => POLLIN) (t.poller.reports fun _ => POLLIN) :=
    ⟨.refl _, (Nat.min_eq_right hsize).symm⟩
  have hsame := (sameDelivery_iff (PollSystem.follows_run hs) (EpollSystem.follows_run ht)
    hsize ha).mp (h _ _ hsize ha) (⟨5, 0⟩, POLLIN)
  rw [hnone, hone.1] at hsame
  cases hsame.mpr List.mem_cons_self

end Summer.Net.Pollers
