import Summer.Net.Channel
import Mathlib.Logic.Function.Basic
import Mathlib.Algebra.Group.Nat.Defs

/-!
# The channels of a loop

A loop has any number of channels, and each poller follows the same calls of them. What a
channel asked for since it was created is known from these calls alone. Its descriptor stays
open as long as it is registered.
-/
namespace Summer.Net.Pollers

open Summer.Lib

/-- A `Channel*`. The descriptor of a channel never changes, and after its channel is gone it
can be that of another. -/
structure ChannelPtr where
  fd : Nat
  serial : Nat := 0
  deriving DecidableEq, Repr

/-- The members of `Channel` that end in `update()`. -/
inductive Change where
  | enableReading
  | enableWriting
  | disableWriting
  | disableAll
  deriving DecidableEq, Repr

def Change.apply (change : Change) (events : Events) : Events :=
  match change with
  | .enableReading => events ||| kReadEvent
  | .enableWriting => events ||| kWriteEvent
  | .disableWriting => events &&& ~~~kWriteEvent
  | .disableAll => kNoneEvent

/-- What each descriptor is ready for. -/
abbrev Readiness := Nat → Events

/-- What the kernel reports of a descriptor that is watched for `events`. -/
def report (ready : Readiness) (fd : Nat) (events : Events) : Events :=
  ready fd &&& (events ||| POLLERR ||| POLLHUP)

inductive Action where
  | update (channel : ChannelPtr) (change : Change)
  | removeChannel (channel : ChannelPtr)
  /-- A `poll`, and what `epoll_wait` puts into the array when it is called for it. -/
  | poll (ready : Readiness) (answer : List (ChannelPtr × Events))

/-! ## The objects -/

abbrev Channels := ChannelPtr → Channel

def Channels.set_index (channels : Channels) (c : ChannelPtr) (index : Int) : Channels :=
  Function.update channels c { channels c with index := index }

def Channels.set_revents (channels : Channels) (c : ChannelPtr) (revents : Events) : Channels :=
  Function.update channels c { channels c with revents := revents }

def Channels.change (channels : Channels) (c : ChannelPtr) (change : Change) : Channels :=
  Function.update channels c { channels c with events := change.apply (channels c).events }

/-- The pairs of an active channel and its `revents` that the loop finds. -/
def delivered (channels : Channels) (activeChannels : List ChannelPtr) :
    List (ChannelPtr × Events) :=
  activeChannels.map fun c => (c, (channels c).revents)

/-- `set_revents` for each of the pairs. -/
def Channels.setAll (channels : Channels) (pairs : List (ChannelPtr × Events)) : Channels :=
  pairs.foldl (fun channels p => channels.set_revents p.1 p.2) channels

namespace Channels

variable {channels : Channels} {c c' : ChannelPtr}

/-- A field that the update of a channel leaves alone. -/
theorem field_update {β : Type} (field : Channel → β) {channel : Channel}
    (h : field channel = field (channels c)) :
    field (Function.update channels c channel c') = field (channels c') := by
  by_cases hc : c' = c
  · rw [hc, Function.update_self, h]
  · rw [Function.update_of_ne hc]

@[simp] theorem set_index_events (i : Int) :
    (channels.set_index c i c').events = (channels c').events :=
  field_update Channel.events rfl

@[simp] theorem set_index_self (i : Int) : (channels.set_index c i c).index = i := by
  rw [set_index, Function.update_self]

theorem set_index_of_ne (h : c' ≠ c) (i : Int) : channels.set_index c i c' = channels c' :=
  Function.update_of_ne h ..

@[simp] theorem set_revents_self (e : Events) : (channels.set_revents c e c).revents = e := by
  rw [set_revents, Function.update_self]

theorem set_revents_of_ne (h : c' ≠ c) (e : Events) :
    channels.set_revents c e c' = channels c' := Function.update_of_ne h ..

@[simp] theorem set_revents_index (e : Events) :
    (channels.set_revents c e c').index = (channels c').index :=
  field_update Channel.index rfl

@[simp] theorem set_revents_events (e : Events) :
    (channels.set_revents c e c').events = (channels c').events :=
  field_update Channel.events rfl

@[simp] theorem change_self (change : Change) :
    (channels.change c change c).events = change.apply (channels c).events := by
  rw [Channels.change, Function.update_self]

@[simp] theorem change_index (change : Change) :
    (channels.change c change c').index = (channels c').index :=
  field_update Channel.index rfl

theorem change_of_ne (h : c' ≠ c) (change : Change) :
    channels.change c change c' = channels c' := Function.update_of_ne h ..

/-! ### What is delivered -/

variable {pairs : List (ChannelPtr × Events)}

@[simp] theorem setAll_nil : channels.setAll [] = channels := rfl

@[simp] theorem setAll_cons (p : ChannelPtr × Events) :
    channels.setAll (p :: pairs) = (channels.set_revents p.1 p.2).setAll pairs := rfl

@[simp] theorem setAll_events : (channels.setAll pairs c).events = (channels c).events := by
  induction pairs generalizing channels with
  | nil => rfl
  | cons p pairs ih => rw [setAll_cons, ih, set_revents_events]

@[simp] theorem setAll_index : (channels.setAll pairs c).index = (channels c).index := by
  induction pairs generalizing channels with
  | nil => rfl
  | cons p pairs ih => rw [setAll_cons, ih, set_revents_index]

theorem setAll_of_notMem (h : c ∉ pairs.map Prod.fst) : channels.setAll pairs c = channels c := by
  induction pairs generalizing channels with
  | nil => rfl
  | cons p pairs ih =>
    rw [List.map_cons, List.mem_cons, not_or] at h
    rw [setAll_cons, ih h.2, set_revents_of_ne h.1]

/-- What becomes of a channel depends on that channel alone. -/
theorem setAll_congr {channels' : Channels} (h : channels c = channels' c) :
    channels.setAll pairs c = channels'.setAll pairs c := by
  induction pairs generalizing channels channels' with
  | nil => exact h
  | cons p pairs ih =>
    rw [setAll_cons, setAll_cons]
    refine ih ?_
    by_cases hc : c = p.1
    · subst hc
      rw [set_revents, set_revents, Function.update_self, Function.update_self, h]
    · rw [set_revents_of_ne hc, set_revents_of_ne hc, h]

/-- Channels that were set once each are delivered with what they were set to. -/
theorem delivered_setAll (channels : Channels) (h : (pairs.map Prod.fst).Nodup) :
    delivered (channels.setAll pairs) (pairs.map Prod.fst) = pairs := by
  induction pairs generalizing channels with
  | nil => rfl
  | cons p pairs ih =>
    rw [List.map_cons, List.nodup_cons] at h
    have hfirst : (channels.setAll (p :: pairs) p.1).revents = p.2 := by
      rw [setAll_cons, setAll_of_notMem h.1, set_revents_self]
    have hrest := ih (channels.set_revents p.1 p.2) h.2
    rw [← setAll_cons] at hrest
    rw [List.map_cons, delivered, List.map_cons, hfirst]
    exact congrArg _ hrest

end Channels

/-! ## What a channel asked for -/

/-- The events after one more update. -/
def current (updates : List Events) : Events := updates.getLast?.getD kNoneEvent

/-- The updates of the channel with one more action. -/
def Action.updates (c : ChannelPtr) (us : List Events) : Action → List Events
  | .update c' change => if c' = c then us ++ [change.apply (current us)] else us
  | .removeChannel _ => us
  | .poll _ _ => us

/-- The events of the channel at each of its updates, the first of which registers it. -/
def updates (c : ChannelPtr) (as : List Action) : List Events :=
  as.foldl (Action.updates c) []

def Action.Removes (c : ChannelPtr) : Action → Prop
  | .removeChannel c' => c' = c
  | _ => False

/-- The channel was registered and not removed; a channel is not registered twice. -/
def Registered (as : List Action) (c : ChannelPtr) : Prop :=
  updates c as ≠ [] ∧ ∀ a ∈ as, ¬ a.Removes c

/-- An update after the first left the channel without events. -/
def Disabled (as : List Action) (c : ChannelPtr) : Prop := kNoneEvent ∈ (updates c as).tail

instance (as : List Action) (c : ChannelPtr) : Decidable (Disabled as c) :=
  inferInstanceAs (Decidable (_ ∈ _))

section History

variable {as : List Action} {c c' : ChannelPtr}

@[simp] theorem updates_nil : updates c [] = [] := rfl

theorem updates_concat (a : Action) : updates c (as ++ [a]) = a.updates c (updates c as) := by
  rw [updates, List.foldl_append]
  rfl

theorem current_concat (us : List Events) (e : Events) : current (us ++ [e]) = e := by
  rw [current, List.getLast?_concat]
  rfl

theorem updates_update (change : Change) : updates c (as ++ [.update c change]) =
    updates c as ++ [change.apply (current (updates c as))] := by
  rw [updates_concat, Action.updates, if_pos rfl]

theorem updates_update_of_ne (h : c' ≠ c) (change : Change) :
    updates c' (as ++ [.update c change]) = updates c' as := by
  rw [updates_concat, Action.updates, if_neg h.symm]

theorem updates_removeChannel : updates c' (as ++ [.removeChannel c]) = updates c' as :=
  updates_concat _

theorem updates_poll (ready : Readiness) (answer : List (ChannelPtr × Events)) :
    updates c (as ++ [.poll ready answer]) = updates c as := updates_concat _

/-- Unless it updates or removes the channel, an action does not change its registration. -/
theorem registered_concat {a : Action} (hu : updates c (as ++ [a]) = updates c as)
    (hr : ¬ a.Removes c) : Registered (as ++ [a]) c ↔ Registered as c := by
  rw [Registered, Registered, hu]
  refine and_congr_right fun _ => ?_
  simp only [List.mem_append, List.mem_singleton, or_imp, forall_and, forall_eq]
  exact and_iff_left hr

theorem not_registered_removed : ¬ Registered (as ++ [.removeChannel c]) c := by
  intro h
  exact h.2 (.removeChannel c) (List.mem_append_right _ (List.mem_singleton_self _)) rfl

theorem disabled_concat {a : Action} (hu : updates c (as ++ [a]) = updates c as) :
    Disabled (as ++ [a]) c ↔ Disabled as c := by rw [Disabled, Disabled, hu]

/-- The first update registers the channel, whatever it asks for. -/
theorem not_disabled_first {us : List Events} {e : Events} (h : us = []) :
    kNoneEvent ∉ (us ++ [e]).tail := by
  rw [h]
  nofun

theorem disabled_update (h : updates c as ≠ []) (change : Change) :
    Disabled (as ++ [.update c change]) c ↔
      Disabled as c ∨ change.apply (current (updates c as)) = kNoneEvent := by
  rw [Disabled, updates_update, List.tail_append_of_ne_nil h, List.mem_append,
    List.mem_singleton, eq_comm (a := kNoneEvent)]
  rfl

/-- No flag that a channel asks for is the sign bit of a `short`. -/
theorem current_lt (c : ChannelPtr) (as : List Action) :
    (current (updates c as)).toNat < 2 ^ 15 := by
  have hnone : kNoneEvent.toNat < 2 ^ 15 := by decide
  induction as using List.reverseRecOn with
  | nil => exact hnone
  | append_singleton as a ih =>
    cases a with
    | update c' change =>
      by_cases hc : c = c'
      · subst hc
        rw [updates_update, current_concat]
        cases change with
        | enableReading | enableWriting =>
          rw [Change.apply, BitVec.toNat_or]
          exact Nat.or_lt_two_pow ih (by decide)
        | disableWriting =>
          rw [Change.apply, BitVec.toNat_and]
          exact Nat.lt_of_le_of_lt Nat.and_le_left ih
        | disableAll => exact hnone
      · rwa [updates_update_of_ne hc]
    | removeChannel c' => rwa [updates_removeChannel]
    | poll ready answer => rwa [updates_poll]

/-- What the kernel reports has the same sign as an unsigned mask and as a `short`. -/
theorem report_pos_iff (ready : Readiness) (fd : Nat) : 0 < (report ready fd
    (current (updates c as))).toInt ↔ 0 < report ready fd (current (updates c as)) := by
  have hlt : (report ready fd (current (updates c as))).toNat < 2 ^ 15 := by
    rw [report, BitVec.toNat_and, BitVec.toNat_or, BitVec.toNat_or]
    refine Nat.lt_of_le_of_lt Nat.and_le_right ?_
    exact Nat.or_lt_two_pow (Nat.or_lt_two_pow (current_lt c as) (by decide)) (by decide)
  rw [BitVec.toInt_eq_toNat_of_lt (by omega), BitVec.lt_def]
  simp

end History

/-! ## The channels under their descriptors -/

section Descriptors

variable {map : Int → Option ChannelPtr} {n : Int} {c c' : ChannelPtr}

/-- A descriptor that belongs to no channel is given to one. -/
theorem lookup_add (h : map n = none) (hne : c' ≠ c) (m : Int) :
    Function.update map n (some c) m = some c' ↔ map m = some c' := by
  rw [Function.update_apply]
  split
  · rename_i hm
    rw [hm, h]
    exact iff_of_false (fun he => hne (Option.some_inj.mp he).symm) nofun
  · exact Iff.rfl

/-- A descriptor is taken away from the channel it belongs to. -/
theorem lookup_erase (h : map n = some c) (hne : c' ≠ c) (m : Int) :
    Function.update map n none m = some c' ↔ map m = some c' := by
  rw [Function.update_apply]
  split
  · rename_i hm
    rw [hm, h]
    exact iff_of_false nofun fun he => hne (Option.some_inj.mp he).symm
  · exact Iff.rfl

theorem lookup_erased (map : Int → Option ChannelPtr) (c : ChannelPtr) :
    Function.update map c.fd none c.fd ≠ some c := by
  rw [Function.update_self]
  nofun

theorem named_add (h : ∀ n c, map n = some c → n = c.fd) (n : Int) (x : ChannelPtr)
    (hx : Function.update map c.fd (some c) n = some x) : n = x.fd := by
  rw [Function.update_apply] at hx
  split at hx
  · cases hx
    assumption
  · exact h n x hx

theorem named_erase (h : ∀ n c, map n = some c → n = c.fd) (n : Int) (x : ChannelPtr)
    (hx : Function.update map c.fd none n = some x) : n = x.fd := by
  rw [Function.update_apply] at hx
  split at hx
  · cases hx
  · exact h n x hx

/-- The two lookups in front of a change of a registered channel. -/
theorem ensure_lookup_error {β : Type} {found : Option ChannelPtr} (h : found ≠ some c)
    (f : Fault) (k : Except Fault β) :
    (ensure (found ≠ none) f >>= fun _ => ensure (found = some c) f >>= fun _ => k) =
      .error f := by
  by_cases hnone : found = none
  · rw [ensure_of_not (fun hn => hn hnone)]
    rfl
  · rw [ensure_of hnone, ok_bind, ensure_of_not h]
    rfl

end Descriptors

/-! ## What the calls say about a channel -/

/-- Whether the channel is registered, and its object, after these calls. -/
structure Tracked (as : List Action) (c : ChannelPtr) (registered : Prop) (channel : Channel) :
    Prop where
  registered : registered ↔ Registered as c
  fresh : updates c as = [] → ∀ a ∈ as, ¬ a.Removes c
  index : updates c as = [] ∧ channel.index = -1 ∨ updates c as ≠ [] ∧ 0 ≤ channel.index
  events : channel.events = current (updates c as)

section Tracked

variable {as : List Action} {a : Action} {c : ChannelPtr} {r r' : Prop} {channel channel' : Channel}

theorem tracked_new (h : ¬ r) : Tracked [] c r {} where
  registered := iff_of_false h fun h => h.1 rfl
  fresh := nofun
  index := .inl ⟨rfl, rfl⟩
  events := rfl

/-- A step that leaves the channel alone. -/
theorem Tracked.frame (h : Tracked as c r channel)
    (hu : updates c (as ++ [a]) = updates c as) (hr : ¬ a.Removes c) (hreg : r' ↔ r)
    (hindex : channel'.index = channel.index ∨ r ∧ 0 ≤ channel'.index)
    (hevents : channel'.events = channel.events) : Tracked (as ++ [a]) c r' channel' where
  registered := hreg.trans (h.registered.trans (registered_concat hu hr).symm)
  fresh hnone b hb := by
    rcases List.mem_append.mp hb with hb | hb
    · exact h.fresh (hu ▸ hnone) b hb
    · rw [List.mem_singleton.mp hb]
      exact hr
  index := by
    rw [hu]
    rcases hindex with hindex | ⟨hc, hindex⟩
    · rw [hindex]
      exact h.index
    · exact .inr ⟨(h.registered.mp hc).1, hindex⟩
  events := by rw [hevents, hu, h.events]

/-- A step that updates the channel, which is registered then. -/
theorem Tracked.updated (h : Tracked as c r channel) {change : Change}
    (hkept : ∀ b ∈ as, ¬ b.Removes c) (hreg : r') (hindex : 0 ≤ channel'.index)
    (hevents : channel'.events = change.apply channel.events) :
    Tracked (as ++ [.update c change]) c r' channel' := by
  have hne : updates c (as ++ [.update c change]) ≠ [] := by
    rw [updates_update]
    exact List.append_ne_nil_of_right_ne_nil _ nofun
  refine ⟨iff_of_true hreg ⟨hne, ?_⟩, fun hnil => absurd hnil hne, .inr ⟨hne, hindex⟩, ?_⟩
  · intro b hb
    rcases List.mem_append.mp hb with hb | hb
    · exact hkept b hb
    · rw [List.mem_singleton.mp hb]
      exact id
  · rw [hevents, updates_update, current_concat, h.events]

/-- A step that removes the channel. -/
theorem Tracked.removed (h : Tracked as c r channel) (hr : r) (hreg : ¬ r')
    (hindex : channel'.index = channel.index) (hevents : channel'.events = channel.events) :
    Tracked (as ++ [.removeChannel c]) c r' channel' where
  registered := iff_of_false hreg not_registered_removed
  fresh hnil := absurd (updates_removeChannel.symm.trans hnil) (h.registered.mp hr).1
  index := by
    rw [updates_removeChannel, hindex]
    exact h.index
  events := by rw [updates_removeChannel, hevents, h.events]

/-- A channel that was removed is not registered, and keeps the index of a registered one. -/
theorem Tracked.spent (h : Tracked as c r channel) (hr : .removeChannel c ∈ as) :
    ¬ r ∧ 0 ≤ channel.index := by
  refine ⟨fun hreg => (h.registered.mp hreg).2 _ hr rfl, ?_⟩
  rcases h.index with ⟨hnone, -⟩ | ⟨-, hindex⟩
  · exact absurd rfl (h.fresh hnone _ hr)
  · exact hindex

end Tracked

end Summer.Net.Pollers
