import Summer.Net.ChannelReuse

/-!
# One channel among the others

Connections and connectors are modelled with a poller that knows one channel. What the poller with
all its channels does is, at each of them, what the poller with that channel alone does. It goes on
exactly as long as every one of those does, and no channel is updated while another one has its
descriptor.
-/
namespace Summer.Net.Pollers.EpollSystem

open Summer.Lib

variable {as : List Action} {a : Action} {s s' : EpollSystem} {c x : ChannelPtr}

/-- The entry of one channel, as the model of a single channel has it. -/
def view (s : EpollSystem) (c : ChannelPtr) : Net.EpollPoller where
  registered := (s.poller.epfd.find? fun r => r.data = c).map Registration.events

/-- A channel and its entry. -/
def seen (s : EpollSystem) (c : ChannelPtr) : Net.EpollPoller × Channel := (s.view c, s.channels c)

/-- The step of a poller with one channel. Of an answer it sees what is reported of that channel. -/
def alone (c : ChannelPtr) (p : Net.EpollPoller × Channel) :
    Action → Except Fault (Net.EpollPoller × Channel)
  | .update x change =>
    if x = c then p.1.updateChannel { p.2 with events := change.apply p.2.events } else .ok p
  | .removeChannel x =>
    if x = c then do
      let poller ← p.1.removeChannel p.2
      .ok (poller, p.2)
    else .ok p
  | .poll _ answer => .ok (p.1, Channels.setAll (fun _ => p.2) answer c)

/-- No other registered channel has the descriptor, and the kernel answers as it does. -/
def Apart (s : EpollSystem) : Action → Prop
  | .update c _ => ∀ x, s.Registered x → x.fd = c.fd → x = c
  | .removeChannel _ => True
  | .poll ready answer => s.poller.Answers ready answer

/-! ## The entry of a channel -/

theorem Table.view_registered (h : Table s) (hc : s.Registered c) :
    s.view c = ⟨some (s.channels c).events⟩ := by
  have hmem : s.registration c ∈ s.poller.epfd := (h.mem_epfd _).mpr ⟨c, hc, rfl⟩
  rw [view]
  cases hfind : s.poller.epfd.find? fun r => r.data = c with
  | none => exact absurd (decide_eq_true rfl) (List.find?_eq_none.mp hfind _ hmem)
  | some r =>
    obtain ⟨x, -, rfl⟩ := (h.mem_epfd r).mp (List.mem_of_find?_eq_some hfind)
    have hfound := List.find?_some hfind
    rw [decide_eq_true_eq] at hfound
    have hx : x = c := hfound
    rw [hx]
    rfl

theorem Table.view_not_registered (h : Table s) (hc : ¬ s.Registered c) : s.view c = ⟨none⟩ := by
  rw [view, List.find?_eq_none.mpr]
  · rfl
  · intro r hr
    obtain ⟨x, hx, rfl⟩ := (h.mem_epfd r).mp hr
    rw [decide_eq_true_eq]
    exact fun he => hc (he ▸ hx)

theorem Table.registered_iff (h : Table s) : s.Registered c ↔ (s.view c).registered ≠ none := by
  by_cases hc : s.Registered c
  · rw [h.view_registered hc]
    exact iff_of_true hc nofun
  · rw [h.view_not_registered hc]
    exact iff_of_false hc fun hn => hn rfl

/-- No step but its own calls changes the entry of a channel. -/
theorem view_of_ne (h : Follows as s) (hs : step s a = .ok s')
    (hu : updates c (as ++ [a]) = updates c as) (hr : ¬ a.Removes c) : s'.view c = s.view c := by
  have h' := follows_step h hs
  have hreg : s'.Registered c ↔ s.Registered c :=
    (h'.channel c).registered.trans
      ((registered_concat hu hr).trans (h.channel c).registered.symm)
  have hevents : (s'.channels c).events = (s.channels c).events := by
    rw [(h'.channel c).events, (h.channel c).events, hu]
  by_cases hc : s.Registered c
  · rw [h.table.view_registered hc, h'.table.view_registered (hreg.mpr hc), hevents]
  · rw [h.table.view_not_registered hc, h'.table.view_not_registered (mt hreg.mp hc)]

/-- An update of a channel is that of its entry alone. -/
theorem view_update (h : Follows as s) {change : Change}
    (hs : step s (.update c change) = .ok s') :
    Net.EpollPoller.updateChannel (s.view c) ((s.changed c change).channels c) =
      .ok (s'.view c, s'.channels c) := by
  have htable := (follows_step h hs).table
  cases updates_of_updateChannel hs with
  | added hindex hnone =>
    have hnot : ¬ s.Registered c := fun hc => by
      rw [Registered, show s.poller.channels c.fd = none from hnone] at hc
      cases hc
    rw [Net.EpollPoller.updateChannel, if_pos hindex, h.table.view_not_registered hnot,
      ensure_of rfl, ok_bind, htable.view_registered (Function.update_self ..)]
    simp [Channels.set_index]
  | changed hindex hreg =>
    have hneg : ¬ ((s.changed c change).channels c).index < 0 := by omega
    rw [Net.EpollPoller.updateChannel, if_neg hneg, h.table.view_registered hreg,
      ensure_of (by simp), ok_bind, ensure_of hindex, ok_bind, htable.view_registered hreg]

theorem view_removeChannel (h : Follows as s) (hs : step s (.removeChannel c) = .ok s') :
    Net.EpollPoller.removeChannel (s.view c) (s.channels c) = .ok (s'.view c) := by
  have htable := (follows_step h hs).table
  obtain ⟨hc, hnone, rfl⟩ := removeChannel_ok hs
  rw [htable.view_not_registered (lookup_erased s.poller.channels c),
    Net.EpollPoller.removeChannel, h.table.view_registered hc, ensure_of nofun, ok_bind,
    ensure_of hnone, ok_bind]

/-! ## Every channel as if it were alone -/

/-- A step is seen at a channel as the step of a poller with that channel alone. -/
theorem seen_step (h : Follows as s) (hs : step s a = .ok s') (c : ChannelPtr) :
    alone c (s.seen c) a = .ok (s'.seen c) := by
  cases a with
  | update x change =>
    by_cases hx : x = c
    · subst hx
      have hchanged : (s.changed x change).channels x =
          { s.channels x with events := change.apply (s.channels x).events } :=
        Function.update_self ..
      have hupdate := view_update h hs
      rw [hchanged] at hupdate
      rw [alone, if_pos rfl]
      exact hupdate
    · have hne : c ≠ x := fun he => hx he.symm
      have hchannel : s'.channels c = s.channels c := by
        cases updates_of_updateChannel hs with
        | added => exact (Channels.set_index_of_ne hne 1).trans (Channels.change_of_ne hne change)
        | changed => exact Channels.change_of_ne hne change
      rw [alone, if_neg hx, seen, seen, hchannel, view_of_ne h hs (updates_update_of_ne hne _) id]
  | removeChannel x =>
    have hchannel : s'.channels = s.channels := by
      obtain ⟨-, -, rfl⟩ := removeChannel_ok hs
      rfl
    by_cases hx : x = c
    · subst hx
      rw [alone, if_pos rfl, seen, seen, hchannel]
      dsimp only
      rw [view_removeChannel h hs]
      rfl
    · rw [alone, if_neg hx, seen, seen, hchannel, view_of_ne h hs updates_removeChannel hx]
  | poll ready answer =>
    have hview := view_of_ne (c := c) h hs (updates_poll ready answer) id
    obtain ⟨⟨t, active⟩, ht, hs⟩ := bind_eq_ok.mp hs
    cases hs
    obtain ⟨_, ha, -⟩ := bind_eq_ok.mp ht
    obtain ⟨events, -, hpoll⟩ := h.poll_eq (ensure_eq_ok.mp ha)
    cases hpoll.symm.trans ht
    rw [alone, seen, seen, hview]
    have hchannel : Channels.setAll (fun _ => s.channels c) answer c =
        s.channels.setAll answer c := Channels.setAll_congr rfl
    rw [hchannel]

/-- A step that is carried out has the descriptor to itself. -/
theorem apart_of_step (hs : step s a = .ok s') : s.Apart a := by
  cases a with
  | update c change =>
    intro x hx hfd
    cases updates_of_updateChannel hs with
    | added _ hnone =>
      have hfree : s.poller.channels x.fd = none := hfd ▸ hnone
      cases hfree.symm.trans hx
    | changed _ hreg => exact Registered.eq hx hreg hfd
  | removeChannel c => trivial
  | poll ready answer =>
    obtain ⟨_, ht, -⟩ := bind_eq_ok.mp hs
    obtain ⟨_, ha, -⟩ := bind_eq_ok.mp ht
    exact (ensure_eq_ok.mp ha : s.poller.Answers ready answer)

/-- A channel that is not registered finds its descriptor free, unless another one has it. -/
theorem Table.free (h : Table s) {change : Change} (hapart : s.Apart (.update c change))
    (hc : ¬ s.Registered c) : s.poller.channels c.fd = none := by
  by_contra hsome
  obtain ⟨x, hx⟩ := Option.ne_none_iff_exists'.mp hsome
  have hfd : c.fd = x.fd := Int.ofNat_inj.mp (h.named _ _ hx)
  have hreg : s.Registered x := by
    rw [Registered, ← hfd]
    exact hx
  exact hc (hapart x hreg hfd.symm ▸ hreg)

/-- A poller with one channel adds it, or has it already. -/
theorem alone_update {p : Net.EpollPoller × Channel} {change : Change}
    (h : alone c (s.seen c) (.update c change) = .ok p) :
    ((s.channels c).index < 0 ∧ (s.view c).registered = none) ∨
      ((s.channels c).index = 1 ∧ (s.view c).registered ≠ none) := by
  rw [alone, if_pos rfl, Net.EpollPoller.updateChannel] at h
  split at h
  · rename_i hnew
    obtain ⟨_, hnone, -⟩ := bind_eq_ok.mp h
    exact .inl ⟨hnew, ensure_eq_ok.mp hnone⟩
  · obtain ⟨_, hsome, h⟩ := bind_eq_ok.mp h
    obtain ⟨_, hone, -⟩ := bind_eq_ok.mp h
    exact .inr ⟨ensure_eq_ok.mp hone, ensure_eq_ok.mp hsome⟩

/-- What each channel could do alone, all of them can do. -/
theorem step_of_alone (h : Follows as s) (hapart : s.Apart a)
    (halone : ∀ c, ∃ p, alone c (s.seen c) a = .ok p) : ∃ s', step s a = .ok s' := by
  cases a with
  | update c change =>
    obtain ⟨p, hp⟩ := halone c
    have hindex : ((s.changed c change).channels c).index = (s.channels c).index :=
      Channels.change_index change
    have hdescriptors := h.mirrors.sameDescriptors c.fd
    have hpoller : (s.changed c change).poller = s.poller := rfl
    rw [step, updateChannel, hindex, hpoller]
    rcases alone_update hp with ⟨hnew, hnone⟩ | ⟨hone, hsome⟩
    · have hnot : ¬ s.Registered c := fun hc => h.table.registered_iff.mp hc hnone
      have hfree := h.table.free hapart hnot
      rw [if_pos hnew, ensure_of hfree, ok_bind, update, epoll_ctl,
        if_pos fun r hr hfd => hdescriptors.mp ⟨r, hr, hfd⟩ hfree]
      exact ⟨_, rfl⟩
    · have hmap : s.poller.channels c.fd = some c := h.table.registered_iff.mpr hsome
      have hne : s.poller.channels c.fd ≠ none := Option.ne_none_iff_exists'.mpr ⟨c, hmap⟩
      have hold : ¬ (s.channels c).index < 0 := by omega
      obtain ⟨r, hr, hfd⟩ := hdescriptors.mpr hne
      rw [if_neg hold, ensure_of hne, ok_bind, ensure_of hmap, ok_bind, ensure_of hone, ok_bind,
        update, epoll_ctl, if_neg fun hfree => hfree r hr hfd]
      exact ⟨_, rfl⟩
  | removeChannel c =>
    obtain ⟨p, hp⟩ := halone c
    rw [alone, if_pos rfl] at hp
    obtain ⟨poller, hp, -⟩ := bind_eq_ok.mp hp
    obtain ⟨_, hsome, hp⟩ := bind_eq_ok.mp hp
    obtain ⟨_, hnone, -⟩ := bind_eq_ok.mp hp
    exact h.removable (h.table.registered_iff.mpr (ensure_eq_ok.mp hsome)) (ensure_eq_ok.mp hnone)
  | poll ready answer =>
    obtain ⟨events, -, hpoll⟩ := h.poll_eq hapart
    rw [step, hpoll]
    exact ⟨_, rfl⟩

/-! ## Runs -/

theorem seen_run (hrun : run step init as = .ok s) (c : ChannelPtr) :
    run (alone c) ({}, {}) as = .ok (s.seen c) := by
  refine run_history (J := fun as s => run (alone c) ({}, {}) as = .ok (s.seen c)) rfl ?_ hrun
  intro as s a s' hrun ih hs
  have hstep := seen_step (follows_run hrun) hs c
  exact run_append_ok.mpr ⟨_, ih, run_singleton.trans hstep⟩

theorem apart_run (hrun : run step init as = .ok s) : Along step Apart init as := by
  refine run_history (J := fun as _ => Along step Apart init as) trivial ?_ hrun
  intro as s a s' hrun ih hs
  exact (along_concat hrun).mpr ⟨ih, apart_of_step hs⟩

theorem run_of_alone (hapart : Along step Apart init as)
    (halone : ∀ c, ∃ p, run (alone c) ({}, {}) as = .ok p) : ∃ s, run step init as = .ok s := by
  induction as using List.reverseRecOn with
  | nil => exact ⟨_, rfl⟩
  | append_singleton as a ih =>
    have hfirst : ∀ c, ∃ p, run (alone c) ({}, {}) as = .ok p := by
      intro c
      obtain ⟨p, hp⟩ := halone c
      obtain ⟨q, hq, -⟩ := run_append_ok.mp hp
      exact ⟨q, hq⟩
    obtain ⟨s, hrun⟩ := ih (along_append.mp hapart).1 hfirst
    -- each channel alone has come to what is seen of it here
    have hlast : ∀ c, ∃ p, alone c (s.seen c) a = .ok p := by
      intro c
      obtain ⟨p, hp⟩ := halone c
      obtain ⟨q, hq, hp⟩ := run_append_ok.mp hp
      cases (seen_run hrun c).symm.trans hq
      exact ⟨p, run_singleton.symm.trans hp⟩
    obtain ⟨s', hs⟩ := step_of_alone (follows_run hrun) ((along_concat hrun).mp hapart).2 hlast
    exact ⟨s', run_append_ok.mpr ⟨s, hrun, run_singleton.trans hs⟩⟩

/-- Any calls are carried out exactly when each channel alone could carry out its own, no channel is
updated while another one has its descriptor, and the kernel answers as it does. Then every channel
and its entry are what they would be alone. -/
theorem channels_alone (as : List Action) :
    ((∃ s, run step init as = .ok s) ↔
      Along step Apart init as ∧ ∀ c, ∃ p, run (alone c) ({}, {}) as = .ok p) ∧
    ∀ s, run step init as = .ok s → ∀ c, run (alone c) ({}, {}) as = .ok (s.seen c) := by
  refine ⟨⟨?_, fun h => run_of_alone h.1 h.2⟩, fun s hrun c => seen_run hrun c⟩
  rintro ⟨s, hrun⟩
  exact ⟨apart_run hrun, fun c => ⟨_, seen_run hrun c⟩⟩

end Summer.Net.Pollers.EpollSystem
