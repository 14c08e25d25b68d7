import Summer.Net.PollInterest

/-!
# The positions of `pollfds_`

`index()` of a registered channel is the position of its entry. The removal of a channel puts
the last entry in its place and corrects the index of the channel it belongs to, which is found
under the descriptor of that entry whether the kernel ignores it or not.
-/
namespace Summer.Net.Pollers.PollSystem

open Summer.Lib

variable {as : List Action} {s s' : PollSystem} {c : ChannelPtr}

structure Indexed (s : PollSystem) : Prop where
  size : {n | s.poller.channels n ≠ none}.encard = s.poller.pollfds.length
  index : Set.BijOn (fun c => (s.channels c).index) {c | s.Registered c}
    (Set.Ico 0 (s.poller.pollfds.length : Int))
  encoded : ∀ c, s.Registered c → ∀ i : Nat, (s.channels c).index = i →
    ∃ pfd, s.poller.pollfds[i]? = some pfd ∧ (pfd.fd = c.fd ∨ pfd.fd = -c.fd - 1)

/-- The removal of `c` leaves every other channel its registration and its entry. -/
structure RemovesOnly (s : PollSystem) (c : ChannelPtr) (s' : PollSystem) : Prop where
  removed : ¬ s'.Registered c
  registered : ∀ x, x ≠ c → (s'.Registered x ↔ s.Registered x)
  entry : ∀ x, x ≠ c → s'.entry x = s.entry x

theorem slot_ne_none : s.slot c ≠ none ↔ s.Registered c := by
  rw [slot, ne_eq, ite_eq_right_iff, Classical.not_imp]
  exact and_iff_left (by simp)

theorem registered_keys (s : PollSystem) : {c | s.slot c ≠ none} = {c | s.Registered c} := by
  ext c
  exact slot_ne_none

/-- A descriptor is that of one registered channel. -/
theorem injOn_fd (s : PollSystem) :
    Set.InjOn (fun c : ChannelPtr => (c.fd : Int)) {c | s.Registered c} := by
  intro c hc c' hc' he
  have hfd : s.poller.channels c.fd = s.poller.channels c'.fd := congrArg _ he
  exact Option.some_inj.mp (hc.symm.trans (hfd.trans hc'))

/-- `channels_` has one element for each registered channel. -/
theorem Table.descriptors (h : Table s) :
    Set.BijOn (fun c : ChannelPtr => (c.fd : Int)) {c | s.Registered c}
      {n | s.poller.channels n ≠ none} := by
  refine ⟨fun c hc => ?_, injOn_fd s, fun n hn => ?_⟩
  · exact Option.ne_none_iff_exists'.mpr ⟨c, hc⟩
  · obtain ⟨c, hc⟩ := Option.ne_none_iff_exists'.mp hn
    obtain rfl := h.named n c hc
    exact ⟨c, hc, rfl⟩

theorem Follows.index_eq (h : Follows as s) {i : Nat} (hi : s.slot c = some i) :
    (s.channels c).index = i := by
  obtain ⟨hc, hnat⟩ := registered_of_slot hi
  rcases (h.channel c).index with hnew | hold
  · exact absurd hnew.1 ((h.channel c).registered.mp hc).1
  · rw [← hnat, Int.toNat_of_nonneg hold.2]

theorem Follows.indexed (h : Follows as s) : s.Indexed := by
  have hbij := h.table.dense.bijOn fun c i hi => h.index_eq hi
  rw [registered_keys] at hbij
  refine ⟨?_, hbij, fun c hc i hi => ?_⟩
  · rw [← Set.encard_congr h.table.descriptors.equiv, ← registered_keys]
    exact h.table.dense.encard
  · obtain ⟨pfd, hpfd⟩ := h.table.exists_entry hc
    have hentry : s.poller.pollfds[i]? = some pfd := by
      rw [← entryOf_of_slot (slot_of_registered hc hi)]
      exact hpfd
    exact ⟨pfd, hentry, h.table.encoded c pfd hpfd⟩

theorem Follows.removesOnly (h : Follows as s) (hs : step s (.removeChannel c) = .ok s') :
    RemovesOnly s c s' := by
  obtain ⟨hc, hr⟩ := removes_of_removeChannel hs
  have hspec := hr.spec h.table hc
  refine ⟨hspec.removed, hspec.registered, fun x hx => ?_⟩
  rw [hspec.entry, Function.update_of_ne hx]

/-- After any calls the positions are those of the registered channels, and a removal loses no
other channel. -/
theorem pollfds_indexed (hrun : run step init as = .ok s) :
    s.Indexed ∧ ∀ c s', step s (.removeChannel c) = .ok s' → RemovesOnly s c s' := by
  have h := follows_run hrun
  exact ⟨h.indexed, fun c s' hs => h.removesOnly hs⟩

/-- The first of three channels is removed while the last one is ignored by the kernel. -/
theorem pollfds_indexed_sample :
    ∃ s, run step init [.update ⟨5, 0⟩ .enableReading, .update ⟨6, 0⟩ .enableReading,
        .update ⟨7, 0⟩ .enableWriting, .update ⟨5, 0⟩ .disableAll,
        .update ⟨7, 0⟩ .disableWriting, .removeChannel ⟨5, 0⟩] = .ok s ∧
      (s.channels ⟨7, 0⟩).index = 0 ∧ s.Indexed := by
  have hend : endsIn step (fun s => decide ((s.channels ⟨7, 0⟩).index = 0)) init
      [.update ⟨5, 0⟩ .enableReading, .update ⟨6, 0⟩ .enableReading,
        .update ⟨7, 0⟩ .enableWriting, .update ⟨5, 0⟩ .disableAll,
        .update ⟨7, 0⟩ .disableWriting, .removeChannel ⟨5, 0⟩] = true := by decide +kernel
  obtain ⟨s, hrun, hs⟩ := endsIn_iff.mp hend
  exact ⟨s, hrun, of_decide_eq_true hs, (pollfds_indexed hrun).1⟩

end Summer.Net.Pollers.PollSystem
