import Summer.Net.PollIndex

/-!
# The scan for active channels

`fillActiveChannels` goes over the entries until it has found as many with events as `::poll` has
counted, and looks up the channel of each under its descriptor. Whatever `::poll` has written into
the entries of a consistent table, the scan finds the channels of all that have events. The source
takes an entry to have events if its `revents` is positive as a `short`; no flag of `::poll` is the
sign bit.
-/
namespace Summer.Net.Pollers.PollSystem

open Summer.Lib

variable {s : PollSystem} {c : ChannelPtr} {i : Nat} {pfd : PollFd}

/-! ## Consistent tables -/

theorem Indexed.slot_eq (h : s.Indexed) (hi : s.slot c = some i) :
    s.Registered c ∧ (s.channels c).index = i := by
  obtain ⟨hc, hnat⟩ := registered_of_slot hi
  have hbound := h.index.mapsTo hc
  refine ⟨hc, ?_⟩
  rw [← hnat, Int.toNat_of_nonneg hbound.1]

theorem Indexed.dense (h : s.Indexed) : Dense s.slot s.poller.pollfds := by
  constructor
  · intro c i hi
    obtain ⟨hc, hindex⟩ := h.slot_eq hi
    have hbound := h.index.mapsTo hc
    simp only [Set.mem_Ico, hindex] at hbound
    omega
  · intro c c' i hi hi'
    obtain ⟨hc, hindex⟩ := h.slot_eq hi
    obtain ⟨hc', hindex'⟩ := h.slot_eq hi'
    exact h.index.injOn hc hc' (hindex.trans hindex'.symm)
  · intro i hi
    obtain ⟨c, hc, hindex⟩ := h.index.surjOn ⟨Int.natCast_nonneg i, Int.ofNat_lt.mpr hi⟩
    exact ⟨c, slot_of_registered hc hindex⟩

/-- There are as many descriptors in `channels_` as registered channels, so each is that of one. -/
theorem Indexed.descriptors (h : s.Indexed) :
    (fun c : ChannelPtr => (c.fd : Int)) '' {c | s.Registered c} =
      {n | s.poller.channels n ≠ none} := by
  have hcount : ((fun c : ChannelPtr => (c.fd : Int)) '' {c | s.Registered c}).encard =
      s.poller.pollfds.length := by
    rw [(injOn_fd s).encard_image, ← registered_keys]
    exact h.dense.encard
  apply (Set.finite_of_encard_eq_coe hcount).eq_of_subset_of_encard_le
  · rintro n ⟨c, hc, rfl⟩
    exact Option.ne_none_iff_exists'.mpr ⟨c, hc⟩
  · rw [hcount, h.size]

theorem Indexed.named (h : s.Indexed) {n : Int} (hn : s.poller.channels n = some c) :
    n = c.fd := by
  have hmem : n ∈ {n | s.poller.channels n ≠ none} := Option.ne_none_iff_exists'.mpr ⟨c, hn⟩
  rw [← h.descriptors] at hmem
  obtain ⟨c', hc', rfl⟩ := hmem
  rw [Option.some_inj.mp (hn.symm.trans hc')]

theorem Indexed.table (h : s.Indexed) : Table s := by
  refine ⟨h.dense, fun n c hn => h.named hn, fun c pfd hpfd => ?_⟩
  obtain ⟨i, hi, hentry⟩ := slot_of_entryOf hpfd
  obtain ⟨hc, hindex⟩ := h.slot_eq hi
  obtain ⟨pfd', hpfd', hfd⟩ := h.encoded c hc i hindex
  cases hentry.symm.trans hpfd'
  exact hfd

/-! ## What the scan reports -/

/-- The channels `reported` are those of the entries `ready` in their order, each with the events
of its entry, and the other channels are as they were. -/
structure Reports (s : PollSystem) (ready : List PollFd) (channels : Channels)
    (reported : List ChannelPtr) : Prop where
  entries : reported.map s.entry = ready.map some
  once : reported.Nodup
  revents : reported.map (fun c => (channels c).revents) = ready.map PollFd.revents
  events : ∀ c, (channels c).events = (s.channels c).events
  index : ∀ c, (channels c).index = (s.channels c).index
  others : ∀ c, c ∉ reported → channels c = s.channels c

/-- What is known of the pair of each entry with events. -/
theorem activePairs_map {β : Type} {map : Int → Option ChannelPtr} {f : ChannelPtr × Events → β}
    {g : PollFd → β} {pollfds : List PollFd}
    (h : ∀ pfd ∈ pollfds, 0 < pfd.revents.toInt →
      ∃ c, map pfd.fd = some c ∧ f (c, pfd.revents) = g pfd) :
    (activePairs map pollfds).map f =
      (pollfds.filter fun pfd => 0 < pfd.revents.toInt).map g := by
  induction pollfds with
  | nil => rfl
  | cons pfd pollfds ih =>
    have ih := ih fun pfd' hmem => h pfd' (List.mem_cons_of_mem _ hmem)
    by_cases hready : 0 < pfd.revents.toInt
    · obtain ⟨c, hmap, hfg⟩ := h pfd List.mem_cons_self hready
      rw [activePairs_cons_of_pos pollfds hready hmap,
        List.filter_cons_of_pos (by simpa using hready), List.map_cons, List.map_cons, hfg, ih]
    · rw [activePairs_cons_of_not pollfds hready,
        List.filter_cons_of_neg (by simpa using hready), ih]

/-- The channel of an entry with events is found under the descriptor of the entry. -/
theorem Table.lookup (h : Table s)
    (hignored : ∀ pfd ∈ s.poller.pollfds, pfd.fd < 0 → pfd.revents = 0)
    (hpfd : pfd ∈ s.poller.pollfds) (hready : 0 < pfd.revents.toInt) :
    ∃ c, s.poller.channels pfd.fd = some c ∧ s.entry c = some pfd ∧ (c.fd : Int) = pfd.fd := by
  have hnonneg : 0 ≤ pfd.fd := by
    by_contra hneg
    rw [hignored pfd hpfd (by omega)] at hready
    simp at hready
  obtain ⟨c, hentry, hc, hfd⟩ := h.owner_of_nonneg hpfd hnonneg
  exact ⟨c, (congrArg s.poller.channels hfd).trans hc, hentry, hfd.symm⟩

theorem Table.reports (h : Table s)
    (hignored : ∀ pfd ∈ s.poller.pollfds, pfd.fd < 0 → pfd.revents = 0) :
    s.Reports (s.poller.pollfds.filter fun pfd => 0 < pfd.revents.toInt)
      (s.channels.setAll (activePairs s.poller.channels s.poller.pollfds))
      ((activePairs s.poller.channels s.poller.pollfds).map Prod.fst) := by
  have hentries : ((activePairs s.poller.channels s.poller.pollfds).map Prod.fst).map s.entry =
      (s.poller.pollfds.filter fun pfd => 0 < pfd.revents.toInt).map some := by
    rw [List.map_map]
    refine activePairs_map fun pfd hpfd hready => ?_
    obtain ⟨c, hmap, hentry, -⟩ := h.lookup hignored hpfd hready
    exact ⟨c, hmap, hentry⟩
  have hnodup : ((activePairs s.poller.channels s.poller.pollfds).map Prod.fst).Nodup := by
    apply List.Nodup.of_map s.entry
    rw [hentries]
    apply List.Nodup.map (Option.some_injective _)
    apply List.Nodup.filter
    exact h.pairwise_fd.imp fun hne he => hne (congrArg PollFd.fd he)
  refine ⟨hentries, hnodup, ?_, fun _ => Channels.setAll_events, fun _ => Channels.setAll_index,
    fun c hc => Channels.setAll_of_notMem hc⟩
  have hrevents := congrArg (List.map Prod.snd) (Channels.delivered_setAll s.channels hnodup)
  rw [delivered, List.map_map] at hrevents
  refine hrevents.trans (activePairs_map fun pfd hpfd hready => ?_)
  obtain ⟨c, hmap, -⟩ := h.lookup hignored hpfd hready
  exact ⟨c, hmap, rfl⟩

/-- Whatever `::poll` has written into the entries of a consistent table, as long as nothing
happens to an entry that it ignores, and whatever channels were active before: the assertions hold
and the scan misses no entry with events. As no flag of `::poll` is the sign bit of a `short`,
these are the entries whose `revents` is not zero. -/
theorem ready_channels_reported (h : s.Indexed)
    (hignored : ∀ pfd ∈ s.poller.pollfds, pfd.fd < 0 → pfd.revents = 0)
    (activeChannels : List ChannelPtr) :
    ∃ channels reported,
      fillActiveChannels s.poller.channels (s.poller.pollfds.countP fun pfd => pfd.revents ≠ 0)
        s.poller.pollfds s.channels activeChannels = .ok (channels, activeChannels ++ reported) ∧
      s.Reports (s.poller.pollfds.filter fun pfd => 0 < pfd.revents.toInt) channels reported ∧
      ((∀ pfd ∈ s.poller.pollfds, 0 ≤ pfd.revents.toInt) →
        s.Reports (s.poller.pollfds.filter fun pfd => pfd.revents ≠ 0) channels reported) := by
  have hreports := h.table.reports hignored
  refine ⟨_, _, fillActiveChannels_eq ?_ (countP_pos_le _) s.channels activeChannels, hreports, ?_⟩
  · intro pfd hpfd hready
    obtain ⟨c, hmap, -, hfd⟩ := h.table.lookup hignored hpfd hready
    exact ⟨c, hmap, hfd⟩
  · intro hflags
    have hfilter : (s.poller.pollfds.filter fun pfd => 0 < pfd.revents.toInt) =
        s.poller.pollfds.filter fun pfd => pfd.revents ≠ 0 := by
      apply List.filter_congr
      intro pfd hpfd
      have hnonneg := hflags pfd hpfd
      have hzero : pfd.revents.toInt = 0 ↔ pfd.revents = 0 := BitVec.toInt_inj (y := 0)
      rw [decide_eq_decide, ne_eq, ← hzero]
      omega
    rwa [hfilter] at hreports

/-- Input at the first of three entries and output at the last, behind one that is ignored. -/
theorem ready_channels_reported_sample :
    ∃ s channels reported, run step init [.update ⟨5, 0⟩ .enableReading,
        .update ⟨6, 0⟩ .enableReading, .update ⟨7, 0⟩ .enableWriting, .update ⟨6, 0⟩ .disableAll,
        .poll (fun _ => POLLIN ||| POLLOUT) []] = .ok s ∧
      fillActiveChannels s.poller.channels 2 s.poller.pollfds s.channels [] =
        .ok (channels, reported) ∧
      s.Reports [⟨5, kReadEvent, POLLIN⟩, ⟨7, kWriteEvent, POLLOUT⟩] channels reported := by
  have hend : endsIn step (fun s => decide (s.poller.pollfds =
      [⟨5, kReadEvent, POLLIN⟩, ⟨-7, kNoneEvent, 0⟩, ⟨7, kWriteEvent, POLLOUT⟩])) init
      [.update ⟨5, 0⟩ .enableReading, .update ⟨6, 0⟩ .enableReading,
        .update ⟨7, 0⟩ .enableWriting, .update ⟨6, 0⟩ .disableAll,
        .poll (fun _ => POLLIN ||| POLLOUT) []] = true := by decide +kernel
  obtain ⟨s, hrun, hs⟩ := endsIn_iff.mp hend
  have hpollfds := of_decide_eq_true hs
  obtain ⟨channels, reported, hfill, -, hreports⟩ := ready_channels_reported
    (follows_run hrun).indexed (by rw [hpollfds]; decide) []
  have hreports := hreports (by rw [hpollfds]; decide)
  rw [hpollfds] at hfill hreports
  refine ⟨s, channels, reported, hrun, ?_, hreports⟩
  rw [hpollfds]
  exact hfill

end Summer.Net.Pollers.PollSystem
