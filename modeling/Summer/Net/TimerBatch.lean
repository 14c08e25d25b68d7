import Summer.Net.TimerQueue

/-!
# The batch of expired timers

`getExpired` moves the timers that are due out of both sets, and `reset` moves the
repeating ones back under a new expiration and deletes the rest.
-/
namespace Summer.Net

open Summer.Lib

namespace TimerQueue

variable {q : TimerQueue} {now : Timestamp} {es : List Entry} {g : Timestamp}

/-! ## Taking the batch out -/

/-- With an address below the sentinel, the lower bound separates by expiration alone. -/
theorem lt_sentinel {e : Entry} (h : e.timer < UINTPTR_MAX) :
    e < entry now UINTPTR_MAX ↔ e.when ≤ now := by
  constructor
  · intro hlt
    exact le_when_of_le hlt.le
  · intro hle
    rcases lt_or_eq_of_le hle with hlt | heq
    · exact Prod.Lex.lt_iff.mpr (.inl hlt)
    · exact Prod.Lex.lt_iff.mpr (.inr ⟨heq, h⟩)

theorem eraseActive_spec (hnd : (es.map Entry.timer).Nodup)
    (hlive : ∀ e ∈ es, ∃ t, q.heap e.timer = some t ∧ active e.timer t.sequence ∈ q.activeTimers)
    (hact : ∀ x ∈ q.activeTimers, ∃ t, q.heap x.timer = some t ∧ t.sequence = x.sequence) :
    ∃ A, eraseActive q es = .ok { q with activeTimers := A } ∧
      A.size + es.length = q.activeTimers.size ∧
      ∀ x, x ∈ A ↔ x ∈ q.activeTimers ∧ x.timer ∉ es.map Entry.timer := by
  induction es generalizing q with
  | nil => exact ⟨q.activeTimers, rfl, rfl, by simp⟩
  | cons e es ih =>
    obtain ⟨t, ht, hx⟩ := hlive e List.mem_cons_self
    obtain ⟨hnot, hnd⟩ := List.nodup_cons.mp hnd
    -- An element with this address has this sequence number, so it is the one erased.
    have hmem : ∀ x, x ∈ (q.activeTimers.erase (active e.timer t.sequence)).1 ↔
        x ∈ q.activeTimers ∧ x.timer ≠ e.timer := by
      intro x
      rw [OrderedSet.mem_erase]
      constructor
      · intro h
        obtain ⟨hne, hxq⟩ := h
        refine ⟨hxq, fun heq => hne ?_⟩
        obtain ⟨u, hu, hseq⟩ := hact x hxq
        rw [heq, ht, Option.some_inj] at hu
        rw [← active_eta x, heq, ← hseq, hu]
      · intro h
        obtain ⟨hxq, hne⟩ := h
        exact ⟨fun heq => hne (by rw [heq, active_timer]), hxq⟩
    obtain ⟨A, hok, hsize, hA⟩ := ih (q := { q with
        activeTimers := (q.activeTimers.erase (active e.timer t.sequence)).1 }) hnd
      (by
        intro f hf
        obtain ⟨u, hu, hfx⟩ := hlive f (List.mem_cons_of_mem _ hf)
        have hne : f.timer ≠ e.timer := fun heq => hnot (heq ▸ List.mem_map_of_mem hf)
        exact ⟨u, hu, (hmem _).mpr ⟨hfx, hne⟩⟩)
      (fun x hxe => hact x ((hmem x).mp hxe).1)
    refine ⟨A, ?_, ?_, ?_⟩
    · rw [eraseActive, deref_of ht, ok_bind]
      dsimp only
      rw [ensure_of (OrderedSet.erase_count hx), ok_bind, hok]
    · have := OrderedSet.size_erase hx
      dsimp only at hsize
      rw [List.length_cons]
      omega
    · intro x
      rw [hA, hmem, List.map_cons, List.mem_cons, not_or, and_assoc]

/-- What `getExpired` returns and leaves behind. -/
structure Extracted (q : TimerQueue) (now : Timestamp) (es : List Entry) (q' : TimerQueue) :
    Prop where
  expired : ∀ e, e ∈ es ↔ e ∈ q.timers ∧ e.when ≤ now
  ordered : es.Pairwise (· < ·)
  kept : ∀ e, e ∈ q'.timers ↔ e ∈ q.timers ∧ now < e.when
  activated : ∀ x, x ∈ q'.activeTimers ↔ x ∈ q.activeTimers ∧ x.timer ∉ es.map Entry.timer
  frame : q' = { q with timers := q'.timers, activeTimers := q'.activeTimers }
  consistent : q'.Consistent

theorem Consistent.nodup_timers (h : q.Consistent) (hes : es.Nodup)
    (hsub : ∀ e ∈ es, e ∈ q.timers) : (es.map Entry.timer).Nodup := by
  apply hes.map_on
  intro e he f hf heq
  obtain ⟨t, ht, -, -⟩ := h.listed e (hsub e he)
  rw [h.eq_of_mem (hsub e he) ht, h.eq_of_mem (hsub f hf) (heq ▸ ht), heq]

/-- Whatever is read through the end iterator. -/
theorem getExpired_spec (now : Timestamp) (h : q.Consistent) :
    ∃ es q', (∀ g, getExpired (.ok g) q now = .ok (es, q')) ∧ Extracted q now es q' := by
  set k := entry now UINTPTR_MAX with hk
  have hlt : ∀ e ∈ q.timers, (e < k ↔ e.when ≤ now) := by
    intro e he
    obtain ⟨t, ht, -, -⟩ := h.listed e he
    exact lt_sentinel (h.address _ t ht)
  have hexp : ∀ e, e ∈ q.timers.below k ↔ e ∈ q.timers ∧ e.when ≤ now := by
    intro e
    rw [OrderedSet.mem_below]
    exact and_congr_right (hlt e)
  have hkept : ∀ e, e ∈ q.timers.fromLowerBound k ↔ e ∈ q.timers ∧ now < e.when := by
    intro e
    rw [OrderedSet.mem_fromLowerBound]
    refine and_congr_right fun he => ?_
    rw [← not_lt, hlt e he, not_le]
  have hnd := h.nodup_timers ((OrderedSet.sorted_below k q.timers).imp ne_of_lt)
    (fun e he => ((hexp e).mp he).1)
  obtain ⟨A, hok, hsize, hA⟩ := eraseActive_spec
    (q := { q with timers := q.timers.fromLowerBound k }) hnd
    (by
      intro e he
      obtain ⟨t, ht, -, hx⟩ := h.listed e ((hexp e).mp he).1
      exact ⟨t, ht, hx⟩)
    (by
      intro x hx
      obtain ⟨t, ht, hseq, -⟩ := h.activated x hx
      exact ⟨t, ht, hseq⟩)
  have hsizes : (q.timers.fromLowerBound k).size = A.size := by
    have h1 := OrderedSet.size_fromLowerBound k q.timers
    have h2 := h.sizes
    dsimp only at hsize
    omega
  have hfirst : ∀ g, ∃ first, firstOf (.ok g) (q.timers.fromLowerBound k).first? = .ok first ∧
      ((q.timers.fromLowerBound k).first? = none ∨ now < first) := by
    intro g
    cases hf : (q.timers.fromLowerBound k).first? with
    | none => exact ⟨g, rfl, .inl rfl⟩
    | some e => exact ⟨e.when, rfl, .inr ((hkept e).mp (OrderedSet.first?_mem hf)).2⟩
  refine ⟨q.timers.below k, { q with timers := q.timers.fromLowerBound k, activeTimers := A },
    ?_, hexp, OrderedSet.sorted_below k q.timers, hkept, hA, rfl, ?_⟩
  · intro g
    obtain ⟨first, hfirst, hassert⟩ := hfirst g
    rw [getExpired, ensure_of h.sizes, ok_bind]
    dsimp only
    rw [hfirst, ok_bind, ensure_of hassert, ok_bind, hok, ok_bind]
    dsimp only
    rw [ensure_of hsizes, ok_bind]
  · have hnot : ∀ e, e ∈ q.timers.fromLowerBound k →
        e.timer ∉ (q.timers.below k).map Entry.timer := by
      intro e he hmem
      obtain ⟨f, hf, heq⟩ := List.mem_map.mp hmem
      obtain ⟨heq', hgt⟩ := (hkept e).mp he
      obtain ⟨hfq, hle⟩ := (hexp f).mp hf
      obtain ⟨t, ht, -, -⟩ := h.listed e heq'
      have h1 := h.eq_of_mem heq' ht
      have h2 := h.eq_of_mem hfq (heq ▸ ht)
      rw [h1, entry_when] at hgt
      rw [h2, entry_when] at hle
      exact absurd hgt (not_lt.mpr hle)
    refine ⟨hsizes, ?_, ?_, h.address⟩
    · intro e he
      obtain ⟨t, ht, hexp', hx⟩ := h.listed e ((hkept e).mp he).1
      exact ⟨t, ht, hexp', (hA _).mpr ⟨hx, hnot e he⟩⟩
    · intro x hx
      obtain ⟨hxq, hxn⟩ := (hA x).mp hx
      obtain ⟨t, ht, hseq, he⟩ := h.activated x hxq
      refine ⟨t, ht, hseq, (hkept _).mpr ⟨he, not_le.mp fun hle => hxn ?_⟩⟩
      exact List.mem_map.mpr ⟨_, (hexp _).mpr ⟨he, hle⟩, rfl⟩

theorem Extracted.nodup {q' : TimerQueue} (h : Extracted q now es q') (hq : q.Consistent) :
    (es.map Entry.timer).Nodup :=
  hq.nodup_timers (h.ordered.imp ne_of_lt) fun e he => ((h.expired e).mp he).1

/-- `getExpired` on two sets that hold the same timers: in order exactly the entries that are due
come out, exactly the others stay, exactly their timers leave `activeTimers`, and no assertion
fails, whatever is read through the end iterator. -/
theorem getExpired_partitions (h : q.Consistent) (now : Timestamp) :
    ∃ es q', (∀ g, getExpired (.ok g) q now = .ok (es, q')) ∧ es.Pairwise (· < ·) ∧
      (∀ e, e ∈ es ↔ e ∈ q.timers ∧ e.when ≤ now) ∧
      (∀ e, e ∈ q'.timers ↔ e ∈ q.timers ∧ now < e.when) ∧
      (∀ x, x ∈ q'.activeTimers ↔ x ∈ q.activeTimers ∧ x.timer ∉ es.map Entry.timer) ∧
      q' = { q with timers := q'.timers, activeTimers := q'.activeTimers } := by
  obtain ⟨es, q', hok, hex⟩ := getExpired_spec now h
  exact ⟨es, q', hok, hex.ordered, hex.expired, hex.kept, hex.activated, hex.frame⟩

/-- Two timers due at the same time and a later one. -/
def tiedTimers : TimerQueue :=
  let timerAt (when : Timestamp) (sequence : Nat) : Timer := ⟨when, false, 0, sequence⟩
  let heap (a : Addr) : Option Timer :=
    if a = 16 then some (timerAt ⟨5, by decide⟩ 1)
    else if a = 32 then some (timerAt ⟨5, by decide⟩ 2)
    else if a = 48 then some (timerAt ⟨9, by decide⟩ 3) else none
  let empty : TimerQueue := ⟨∅, ∅, false, ∅, none, heap, ⟨5, by decide⟩⟩
  ((empty.put 32 (timerAt ⟨5, by decide⟩ 2)).put 48 (timerAt ⟨9, by decide⟩ 3)).put 16
    (timerAt ⟨5, by decide⟩ 1)

theorem tiedTimers_consistent : tiedTimers.Consistent := by
  have hempty : ∀ a, ¬ Holds ⟨∅, ∅, false, ∅, none, tiedTimers.heap, ⟨5, by decide⟩⟩ a := by
    rintro a ⟨e, he, -⟩
    exact absurd he (OrderedSet.notMem_empty e)
  refine Consistent.put (Consistent.put (Consistent.put ?_ rfl (hempty 32)) rfl ?_) rfl ?_
  · refine ⟨rfl, fun _ he => absurd he (OrderedSet.notMem_empty _),
      fun _ hx => absurd hx (OrderedSet.notMem_empty _), ?_⟩
    intro a t ha
    by_contra hge
    have hne : ∀ b < UINTPTR_MAX, a ≠ b := fun b hb heq => hge (heq ▸ hb)
    dsimp only at ha
    rw [if_neg (hne 16 (by decide)), if_neg (hne 32 (by decide)), if_neg (hne 48 (by decide))] at ha
    cases ha
  · intro h
    rcases holds_put.mp h with h | h
    · cases h
    · exact hempty 48 h
  · intro h
    rcases holds_put.mp h with h | h
    · cases h
    · rcases holds_put.mp h with h | h
      · cases h
      · exact hempty 16 h

theorem getExpired_partitions_sample : ∃ es q',
    (∀ g, getExpired (.ok g) tiedTimers ⟨5, by decide⟩ = .ok (es, q')) ∧
      entry ⟨5, by decide⟩ 16 ∈ es ∧ entry ⟨5, by decide⟩ 32 ∈ es ∧
      entry ⟨9, by decide⟩ 48 ∈ q'.timers := by
  obtain ⟨es, q', hok, -, hexp, hkept, -, -⟩ :=
    getExpired_partitions tiedTimers_consistent ⟨5, by decide⟩
  exact ⟨es, q', hok, (hexp _).mpr (by decide), (hexp _).mpr (by decide),
    (hkept _).mpr (by decide)⟩

/-! ## Putting the batch back -/

/-- The timers of the batch are live, distinct and not in the queue. -/
structure Batch (q : TimerQueue) (es : List Entry) : Prop where
  nodup : (es.map Entry.timer).Nodup
  live : ∀ e ∈ es, ∃ t, q.heap e.timer = some t
  loose : ∀ e ∈ es, ¬ q.Holds e.timer

/-- What the loop of `reset` leaves behind. -/
structure Restarted (q : TimerQueue) (now : Timestamp) (es : List Entry) (q' : TimerQueue) :
    Prop where
  consistent : q'.Consistent
  timers : ∀ x, x ∈ q'.timers ↔ x ∈ q.timers ∨ ∃ e ∈ es, ∃ t, q.heap e.timer = some t ∧
    q.Rearmed e.timer t ∧ x = entry (now.addTime t.interval) e.timer
  heap_out : ∀ a, a ∉ es.map Entry.timer → q'.heap a = q.heap a
  heap_in : ∀ e ∈ es, ∀ t, q.heap e.timer = some t →
    q'.heap e.timer = if q.Rearmed e.timer t then some (t.restart now) else none
  frame : q' = { q with timers := q'.timers, activeTimers := q'.activeTimers, heap := q'.heap }

/-- One timer of the batch, and what remains of the batch after it. -/
theorem restartOrDelete_step (now : Timestamp) (h : q.Consistent) {e : Entry}
    (hb : q.Batch (e :: es)) :
    ∃ q₁, q₁.Consistent ∧ q₁.Batch es ∧ Restarted q now [e] q₁ ∧
      ∀ l, restartOrDelete (.ok g) q now (e :: l) = restartOrDelete (.ok g) q₁ now l := by
  obtain ⟨t, ht⟩ := hb.live e List.mem_cons_self
  have hl := hb.loose e List.mem_cons_self
  obtain ⟨hnot, hnd⟩ := List.nodup_cons.mp hb.nodup
  have hne : ∀ f ∈ es, f.timer ≠ e.timer := fun f hf heq => hnot (heq ▸ List.mem_map_of_mem hf)
  have hout : ∀ a, a ∉ [e].map Entry.timer → a ≠ e.timer := fun a ha heq => ha (by simp [heq])
  by_cases hr : q.Rearmed e.timer t
  · have hc₀ : (q.store e.timer (some (t.restart now))).Consistent :=
      h.store_loose hl fun _ => h.address _ t ht
    have hself := store_heap_self q e.timer (some (t.restart now))
    obtain ⟨changed, hins, -⟩ := insert_spec (g := g) hc₀ hself hl
    have hc₁ := hc₀.put hself hl
    refine ⟨_, hc₁, ⟨hnd, ?_, ?_⟩, ⟨hc₁, ?_, ?_, ?_, rfl⟩, ?_⟩
    · intro f hf
      rw [put_heap, store_heap_ne (hne f hf)]
      exact hb.live f (List.mem_cons_of_mem _ hf)
    · intro f hf hholds
      rcases holds_put.mp hholds with heq | hh
      · exact hne f hf heq
      · exact hb.loose f (List.mem_cons_of_mem _ hf) hh
    · intro x
      rw [mem_put_timers, Timer.restart_expiration hr.1, or_comm]
      refine or_congr Iff.rfl ⟨fun hx => ⟨e, List.mem_singleton_self e, t, ht, hr, hx⟩, ?_⟩
      intro h
      obtain ⟨f, hf, u, hu, -, rfl⟩ := h
      obtain rfl := List.mem_singleton.mp hf
      rw [ht, Option.some_inj] at hu
      rw [hu]
    · intro a ha
      rw [put_heap, store_heap_ne (hout a ha)]
    · intro f hf u hu
      obtain rfl := List.mem_singleton.mp hf
      rw [ht, Option.some_inj] at hu
      subst hu
      rw [put_heap, hself, if_pos hr]
    · intro l
      rw [restartOrDelete, deref_of ht, ok_bind, if_pos hr, hins, ok_bind]
  · have hc₁ : (q.store e.timer none).Consistent := h.store_loose hl fun hn => absurd rfl hn
    refine ⟨_, hc₁, ⟨hnd, ?_, ?_⟩, ⟨hc₁, ?_, ?_, ?_, rfl⟩, ?_⟩
    · intro f hf
      rw [store_heap_ne (hne f hf)]
      exact hb.live f (List.mem_cons_of_mem _ hf)
    · exact fun f hf => hb.loose f (List.mem_cons_of_mem _ hf)
    · intro x
      refine ⟨Or.inl, fun hx => hx.elim id ?_⟩
      intro h
      obtain ⟨f, hf, u, hu, hru, -⟩ := h
      obtain rfl := List.mem_singleton.mp hf
      rw [ht, Option.some_inj] at hu
      exact absurd (hu ▸ hru) hr
    · intro a ha
      exact store_heap_ne (hout a ha) none
    · intro f hf u hu
      obtain rfl := List.mem_singleton.mp hf
      rw [ht, Option.some_inj] at hu
      subst hu
      rw [store_heap_self, if_neg hr]
    · intro l
      rw [restartOrDelete, deref_of ht, ok_bind, if_neg hr]

theorem Restarted.cons {q₁ q' : TimerQueue} {e : Entry} (h₁ : Restarted q now [e] q₁)
    (h₂ : Restarted q₁ now es q') (hnot : e.timer ∉ es.map Entry.timer) :
    Restarted q now (e :: es) q' := by
  have hcancel : q₁.cancelTimers = q.cancelTimers := by rw [h₁.frame]
  have hrearm : ∀ a t, q₁.Rearmed a t ↔ q.Rearmed a t := by
    intro a t
    rw [Rearmed, Rearmed, hcancel]
  have hheap : ∀ f ∈ es, q₁.heap f.timer = q.heap f.timer := by
    intro f hf
    refine h₁.heap_out _ fun hmem => hnot ?_
    rw [List.map_singleton, List.mem_singleton] at hmem
    exact hmem ▸ List.mem_map_of_mem hf
  refine ⟨h₂.consistent, ?_, ?_, ?_, ?_⟩
  · intro x
    rw [h₂.timers, h₁.timers, or_assoc]
    apply or_congr Iff.rfl
    simp only [List.mem_cons, List.not_mem_nil, or_false, exists_eq_or_imp, exists_eq_left]
    refine or_congr Iff.rfl (exists_congr fun f => and_congr_right fun hf => ?_)
    rw [hheap f hf]
    simp only [hrearm]
  · intro a ha
    rw [List.map_cons, List.mem_cons, not_or] at ha
    rw [h₂.heap_out a ha.2, h₁.heap_out a (by simpa using ha.1)]
  · intro f hf t ht
    rcases List.mem_cons.mp hf with rfl | hf
    · rw [h₂.heap_out _ hnot, h₁.heap_in f (List.mem_singleton_self f) t ht]
    · rw [h₂.heap_in f hf t (by rw [hheap f hf, ht])]
      simp only [hrearm]
  · rw [h₂.frame, h₁.frame]

theorem restartOrDelete_spec (now : Timestamp) (h : q.Consistent) (hb : q.Batch es) :
    ∃ q', restartOrDelete (.ok g) q now es = .ok q' ∧ Restarted q now es q' := by
  induction es generalizing q with
  | nil => exact ⟨q, rfl, h, by simp, fun a _ => rfl, by simp, rfl⟩
  | cons e es ih =>
    obtain ⟨q₁, hc₁, hb₁, hr₁, heq⟩ := restartOrDelete_step (g := g) now h hb
    obtain ⟨q', hok, hr'⟩ := ih hc₁ hb₁
    exact ⟨q', (heq es).trans hok, hr₁.cons hr' (List.nodup_cons.mp hb.nodup).1⟩

/-- `rearm` touches the descriptor alone. -/
theorem rearm_frame (q : TimerQueue) : q.rearm = { q with timerfd := q.rearm.timerfd } := by
  rw [rearm]
  split <;> rfl

/-- The descriptor is armed for the earliest timer, if that is still to come. -/
theorem rearm_future (hc : 0 ≤ q.clock.1) (hne : q.timers ≠ ∅)
    (hfuture : ∀ e ∈ q.timers, q.clock < e.when) :
    ∃ v : Setting, q.rearm.timerfd = some v ∧ v.it_value.InRange ∧ ¬ v.it_value.IsZero ∧
      ∀ e ∈ q.timers, v.due ≤ e.when.1 * 1000 := by
  cases hf : q.timers.first? with
  | none => exact absurd (OrderedSet.first?_eq_none.mp hf) hne
  | some d =>
    have hlt : q.clock < d.when := hfuture d (OrderedSet.first?_mem hf)
    have hlt' : q.clock.1 < d.when.1 := hlt
    obtain ⟨v, hv, hrange, hzero, hdue⟩ := resetTimerfd_future hc hlt q.timerfd
    have hnext : q.nextExpired = d.when := by rw [nextExpired, hf]
    have hvalid : d.when.valid = true := by
      rw [Timestamp.valid, decide_eq_true_eq]
      omega
    refine ⟨v, ?_, hrange, hzero, ?_⟩
    · rw [rearm, hnext, if_pos hvalid, hv]
    · intro e he
      have hle : d.when.1 ≤ e.when.1 := le_when_of_le (OrderedSet.first?_le hf he)
      rw [hdue]
      omega

end TimerQueue

end Summer.Net
