import Summer.Hub.HubRuns
import Summer.Hub.Fragmentation
import Mathlib.Data.Finset.Sort

/-!
# Publish/subscribe semantics

The reference says what a command sends from the history of events alone. The hub keeps an
audience, a content and a time for each topic instead, and sends the same.
-/
namespace Summer.Hub

open Summer.Lib
open Summer.Net (Timestamp)

variable {C : Type} [LinearOrder C]

/-! ## The reference -/

/-- The connections whose most recent `sub` or `unsub` on the topic is a `sub`. -/
def audience (history : List (Event C)) (topic : Bytes) : Finset C :=
  (history.map Event.conn).toFinset.filter (Subscribed history · topic)

/-- What processing the event sends. -/
def expected (history : List (Event C)) : Event C → List (C × Bytes)
  | .established _ => []
  | .command conn s _ =>
    if s.cmd = pub then
      (audience history s.topic).sort.map fun c => (c, Frame.encode (.pub s.topic s.content))
    else if s.cmd = sub then
      match lastContent history s.topic with
      | none => []
      | some content => [(conn, Frame.encode (.pub s.topic content))]
    else []

/-- What the events send, after a history. -/
def referenceFrom (history : List (Event C)) : List (Event C) → List (C × Bytes)
  | [] => []
  | e :: es => expected history e ++ referenceFrom (history ++ [e]) es

def reference (events : List (Event C)) : List (C × Bytes) := referenceFrom [] events

/-- The event is a command on the topic. -/
def Event.concerns (topic : Bytes) : Event C → Bool
  | .established _ => false
  | .command _ s _ => decide (s.topic = topic)

/-- The clock that dates a `pub` command reads a time after the epoch. -/
def Event.AfterEpoch : Event C → Prop
  | .established _ => True
  | .command _ s now => s.cmd = pub → now.valid = true

instance : DecidablePred (Event.AfterEpoch (C := C)) := fun e => by
  cases e <;> unfold Event.AfterEpoch <;> infer_instance

theorem mem_audience {history : List (Event C)} {topic : Bytes} {c : C} :
    c ∈ audience history topic ↔ Subscribed history c topic := by
  rw [audience, Finset.mem_filter, List.mem_toFinset]
  refine and_iff_right_of_imp fun h => ?_
  obtain ⟨e, he, hi⟩ := latest_mem h
  refine List.mem_map.mpr ⟨e, he, ?_⟩
  cases e with
  | established conn => cases hi
  | command conn s now =>
    by_contra hne
    have hne' : conn ≠ c := hne
    simp [Event.interest, hne'] at hi

theorem referenceFrom_concat (history events : List (Event C)) (e : Event C) :
    referenceFrom history (events ++ [e]) =
      referenceFrom history events ++ expected (history ++ events) e := by
  induction events generalizing history with
  | nil => simp [referenceFrom]
  | cons d events ih => simp [referenceFrom, ih]

theorem reference_concat (events : List (Event C)) (e : Event C) :
    reference (events ++ [e]) = reference events ++ expected events e :=
  referenceFrom_concat [] events e

/-- A command depends on the commands on its own topic alone. -/
theorem expected_concerns (history : List (Event C)) (conn : C) (s : Strings) (now : Timestamp) :
    expected (history.filter (Event.concerns s.topic)) (.command conn s now) =
      expected history (.command conn s now) := by
  have hinterest : ∀ c, latest (Event.interest c s.topic)
      (history.filter (Event.concerns s.topic)) = latest (Event.interest c s.topic) history := by
    intro c
    apply latest_filter
    intro e he
    cases e with
    | established _ => rfl
    | command c' s' now' =>
      have hne : s'.topic ≠ s.topic := of_decide_eq_false he
      simp [Event.interest, hne]
  have hpublished : lastContent (history.filter (Event.concerns s.topic)) s.topic =
      lastContent history s.topic := by
    apply latest_filter
    intro e he
    cases e with
    | established _ => rfl
    | command c' s' now' =>
      have hne : s'.topic ≠ s.topic := of_decide_eq_false he
      simp [Event.published, hne]
  have haudience : audience (history.filter (Event.concerns s.topic)) s.topic =
      audience history s.topic := by
    ext c
    rw [mem_audience, mem_audience, Subscribed, Subscribed, hinterest]
  rw [expected, expected, haudience, hpublished]

/-! ## The contents follow the history -/

namespace HubServer

variable {h h' : HubServer C} {conn : C} {s : Strings} {now : Timestamp}
  {sent : List (C × Bytes)} {history : List (Event C)}

/-- A topic has its name, and its content and a valid time once something was published. -/
structure Contents (history : List (Event C)) (h : HubServer C) : Prop where
  name : ∀ topic, (h.getTopic topic).topic = topic
  never : ∀ topic, lastContent history topic = none →
    (h.getTopic topic).lastPubTime.valid = false
  last : ∀ topic content, lastContent history topic = some content →
    (h.getTopic topic).lastPubTime.valid = true ∧ (h.getTopic topic).content = content

theorem contents_init : Contents ([] : List (Event C)) {} := by
  have hinvalid : Timestamp.invalid.valid = false := by decide
  exact ⟨fun _ => rfl, fun _ _ => hinvalid, fun _ _ h => nomatch h⟩

/-- An event that publishes nothing, and keeps names, times and contents. -/
theorem Contents.keep (hc : Contents history h) {e : Event C}
    (he : ∀ topic, e.published topic = none)
    (htopic : ∀ topic, (h'.getTopic topic).topic = (h.getTopic topic).topic ∧
      (h'.getTopic topic).lastPubTime = (h.getTopic topic).lastPubTime ∧
      (h'.getTopic topic).content = (h.getTopic topic).content) :
    Contents (history ++ [e]) h' := by
  have hlast : ∀ topic, lastContent (history ++ [e]) topic = lastContent history topic :=
    fun topic => latest_concat_none (he topic)
  refine ⟨?_, ?_, ?_⟩
  · intro topic
    rw [(htopic topic).1, hc.name]
  · intro topic hnone
    rw [(htopic topic).2.1]
    exact hc.never topic ((hlast topic).symm.trans hnone)
  · intro topic content hsome
    rw [(htopic topic).2.1, (htopic topic).2.2]
    exact hc.last topic content ((hlast topic).symm.trans hsome)

theorem Contents.command (hc : Contents history h) (hd : Does h conn s now h' sent)
    (hnow : s.cmd = pub → now.valid = true) : Contents (history ++ [.command conn s now]) h' := by
  have hkeep : ∀ {t : Topic C}, (h.getTopic s.topic).topic = t.topic →
      (h.getTopic s.topic).lastPubTime = t.lastPubTime →
      (h.getTopic s.topic).content = t.content → ∀ topic,
      ((h.setTopic s.topic t).getTopic topic).topic = (h.getTopic topic).topic ∧
      ((h.setTopic s.topic t).getTopic topic).lastPubTime = (h.getTopic topic).lastPubTime ∧
      ((h.setTopic s.topic t).getTopic topic).content = (h.getTopic topic).content := by
    intro t hn hl hcont topic
    by_cases ht : topic = s.topic
    · subst ht
      rw [getTopic_setTopic_self, hn, hl, hcont]
      exact ⟨rfl, rfl, rfl⟩
    · rw [getTopic_setTopic_ne ht]
      exact ⟨rfl, rfl, rfl⟩
  have hsilent : s.cmd ≠ pub → ∀ topic,
      (Event.command conn s now).published topic = none := by
    intro hp topic
    simp [Event.published, hp]
  cases hd with
  | publish hp =>
    have hlast : ∀ topic, s.topic ≠ topic →
        lastContent (history ++ [.command conn s now]) topic = lastContent history topic := by
      intro topic hne
      apply latest_concat_none
      simp [Event.published, hne]
    have hself : lastContent (history ++ [.command conn s now]) s.topic = some s.content := by
      apply latest_concat_some
      simp [Event.published, hp]
    refine ⟨?_, ?_, ?_⟩
    · intro topic
      by_cases ht : topic = s.topic
      · subst ht
        rw [getTopic_setTopic_self]
        exact hc.name s.topic
      · rw [getTopic_setTopic_ne ht, hc.name]
    · intro topic hnone
      by_cases ht : topic = s.topic
      · subst ht
        rw [hself] at hnone
        cases hnone
      · rw [getTopic_setTopic_ne ht]
        exact hc.never topic ((hlast topic (Ne.symm ht)).symm.trans hnone)
    · intro topic content hsome
      by_cases ht : topic = s.topic
      · subst ht
        rw [hself, Option.some_inj] at hsome
        rw [getTopic_setTopic_self]
        exact ⟨hnow hp, hsome⟩
      · rw [getTopic_setTopic_ne ht]
        exact hc.last topic content ((hlast topic (Ne.symm ht)).symm.trans hsome)
  | subscribe hs => exact hc.keep (hsilent (by rw [hs]; decide)) (hkeep rfl rfl rfl)
  | unSubscribe hu => exact hc.keep (hsilent (by rw [hu]; decide)) (hkeep rfl rfl rfl)
  | unknown hn => exact hc.keep (hsilent hn.1) fun _ => ⟨rfl, rfl, rfl⟩

/-- The order of a `std::set` is the sorted one. -/
theorem Audiences.toList (ha : Audiences history h) (topic : Bytes) :
    (h.getTopic topic).audiences.toList = (audience history topic).sort := by
  have hset : audience history topic = (h.getTopic topic).audiences.toList.toFinset := by
    ext c
    rw [mem_audience, List.mem_toFinset]
    exact (ha c topic).symm
  rw [hset]
  refine ((List.toFinset_sort (· ≤ ·) (h.getTopic topic).audiences.nodup).mpr ?_).symm
  exact (h.getTopic topic).audiences.sorted.imp le_of_lt

theorem makeMessage_encode (t : Topic C) :
    t.makeMessage = Frame.encode (.pub t.topic t.content) := by
  simp [Topic.makeMessage, Frame.encode, Frame.line, Frame.body, Frame.crlf]

/-- A command sends what the history says. -/
theorem Does.sends (hd : Does h conn s now h' sent) (ha : Audiences history h)
    (hc : Contents history h) : sent = expected history (.command conn s now) := by
  cases hd with
  | publish hp =>
    rw [expected, if_pos hp, ← ha.toList]
    simp only [Topic.publish, makeMessage_encode, hc.name]
  | subscribe hs =>
    have hp : s.cmd ≠ pub := by
      rw [hs]
      decide
    rw [expected, if_neg hp, if_pos hs]
    simp only [Topic.add, makeMessage_encode, hc.name]
    cases hlast : lastContent history s.topic with
    | none => simp [hc.never s.topic hlast]
    | some content =>
      obtain ⟨hvalid, hcontent⟩ := hc.last s.topic content hlast
      simp [hvalid, hcontent]
  | unSubscribe hu =>
    rw [expected, if_neg (by rw [hu]; decide), if_neg (by rw [hu]; decide)]
  | unknown hn => rw [expected, if_neg hn.1, if_neg hn.2.1]

end HubServer

/-! ## Whole histories -/

namespace HubSystem

variable {as : List (Event C)}

theorem sent_run (hnow : ∀ e ∈ as, e.AfterEpoch) {s : HubSystem C}
    (h : run step init as = .ok s) : HubServer.Contents as s.hub ∧ s.sent = reference as := by
  refine run_history (J := fun as u => (∀ e ∈ as, e.AfterEpoch) →
    HubServer.Contents as u.hub ∧ u.sent = reference as)
    (fun _ => ⟨HubServer.contents_init, rfl⟩) ?_ h hnow
  intro as u e v hu ih hs hafter
  obtain ⟨hc, hsent⟩ := ih fun d hd => hafter d (List.mem_append_left _ hd)
  rw [reference_concat, ← hsent]
  cases moves_of_step hs with
  | established _ =>
    refine ⟨hc.keep (fun _ => rfl) fun _ => ⟨rfl, rfl, rfl⟩, ?_⟩
    rw [expected, List.append_nil]
  | command _ hdoes =>
    have hvalid := hafter _ (List.mem_append_right _ List.mem_cons_self)
    exact ⟨hc.command hdoes hvalid, by rw [← hdoes.sends (audiences_run hu) hc]⟩

/-- For every history the hub sends exactly what the reference says, it fails on no context,
and a command depends on the commands on its own topic alone. -/
theorem hub_meets_reference (hnow : ∀ e ∈ as, e.AfterEpoch) :
    (∀ f, run step (init : HubSystem C) as = .error f → f = .notEnabled) ∧
    (∀ s : HubSystem C, run step init as = .ok s → s.sent = reference as) ∧
    ∀ (history : List (Event C)) (conn : C) (s : Strings) (now : Timestamp),
      expected (history.filter (Event.concerns s.topic)) (.command conn s now) =
        expected history (.command conn s now) :=
  ⟨fun _ hf => run_error hf, fun _ hrun => (sent_run hnow hrun).2, expected_concerns⟩

/-- Two topics: one is published before anybody listens, two connections subscribe to the
other, one of them twice, and the second of them leaves before the next message. -/
theorem hub_meets_reference_sample :
    ∃ s : HubSystem Nat, run step init
        [.established 1, .command 1 ⟨pub, [97], [1]⟩ ⟨5, by decide⟩, .established 2,
          .command 2 ⟨sub, [97], []⟩ ⟨6, by decide⟩, .command 2 ⟨sub, [98], []⟩ ⟨6, by decide⟩,
          .command 1 ⟨sub, [98], []⟩ ⟨6, by decide⟩, .command 2 ⟨sub, [98], []⟩ ⟨6, by decide⟩,
          .command 1 ⟨pub, [98], [2]⟩ ⟨7, by decide⟩, .command 2 ⟨unsub, [98], [2]⟩ ⟨8, by decide⟩,
          .command 2 ⟨pub, [98], [3]⟩ ⟨9, by decide⟩] = .ok s ∧
      s.sent = [(2, Frame.encode (.pub [97] [1])), (1, Frame.encode (.pub [98] [2])),
        (2, Frame.encode (.pub [98] [2])), (1, Frame.encode (.pub [98] [3]))] ∧
      s.sent = reference
        [.established 1, .command 1 ⟨pub, [97], [1]⟩ ⟨5, by decide⟩, .established 2,
          .command 2 ⟨sub, [97], []⟩ ⟨6, by decide⟩, .command 2 ⟨sub, [98], []⟩ ⟨6, by decide⟩,
          .command 1 ⟨sub, [98], []⟩ ⟨6, by decide⟩, .command 2 ⟨sub, [98], []⟩ ⟨6, by decide⟩,
          .command 1 ⟨pub, [98], [2]⟩ ⟨7, by decide⟩, .command 2 ⟨unsub, [98], [2]⟩ ⟨8, by decide⟩,
          .command 2 ⟨pub, [98], [3]⟩ ⟨9, by decide⟩] := by
  have hend : endsIn step (fun s => decide (s.sent =
      [(2, Frame.encode (.pub [97] [1])), (1, Frame.encode (.pub [98] [2])),
        (2, Frame.encode (.pub [98] [2])), (1, Frame.encode (.pub [98] [3]))]))
        (init : HubSystem Nat)
        [.established 1, .command 1 ⟨pub, [97], [1]⟩ ⟨5, by decide⟩, .established 2,
          .command 2 ⟨sub, [97], []⟩ ⟨6, by decide⟩, .command 2 ⟨sub, [98], []⟩ ⟨6, by decide⟩,
          .command 1 ⟨sub, [98], []⟩ ⟨6, by decide⟩, .command 2 ⟨sub, [98], []⟩ ⟨6, by decide⟩,
          .command 1 ⟨pub, [98], [2]⟩ ⟨7, by decide⟩, .command 2 ⟨unsub, [98], [2]⟩ ⟨8, by decide⟩,
          .command 2 ⟨pub, [98], [3]⟩ ⟨9, by decide⟩] = true := by decide +kernel
  obtain ⟨s, hrun, hsent⟩ := endsIn_iff.mp hend
  exact ⟨s, hrun, of_decide_eq_true hsent, (hub_meets_reference (by decide)).2.1 s hrun⟩

end HubSystem

end Summer.Hub
