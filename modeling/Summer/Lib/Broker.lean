import Summer.Lib.Run
import Summer.Lib.History
import Mathlib.Data.Finset.Basic

/-!
# A publish/subscribe broker

Clients make requests, which wait in a queue for each client until the broker serves them, one at
a time. The broker keeps a board: who has subscribed to a topic, and what was published on it
last. What it tells a client waits in a queue until it is delivered. Whatever the order in which
the queues move, the notices of a client are a function of the log of served requests.
-/
namespace Summer.Lib

variable {C τ κ : Type*}

inductive Request (τ κ : Type*) where
  | subscribe (topic : τ)
  | unSubscribe (topic : τ)
  | publish (topic : τ) (content : κ)
  deriving DecidableEq

structure Board (C τ κ : Type*) where
  subscribers : τ → Finset C := fun _ => ∅
  retained : τ → Option κ := fun _ => none

/-! ## The board and its log -/

namespace Board

variable [DecidableEq C] [DecidableEq τ]

def serve (b : Board C τ κ) (c : C) : Request τ κ → Board C τ κ
  | .subscribe topic =>
    { b with subscribers := Function.update b.subscribers topic (insert c (b.subscribers topic)) }
  | .unSubscribe topic =>
    { b with subscribers := Function.update b.subscribers topic ((b.subscribers topic).erase c) }
  | .publish topic content =>
    { b with retained := Function.update b.retained topic (some content) }

/-- What `d` is told when a request of `c` is served: a new subscriber what is retained, and every
subscriber what is published. -/
def tells (b : Board C τ κ) (c : C) (r : Request τ κ) (d : C) : List (τ × κ) :=
  match r with
  | .subscribe topic => if c = d then ((b.retained topic).map fun k => (topic, k)).toList else []
  | .unSubscribe _ => []
  | .publish topic content => if d ∈ b.subscribers topic then [(topic, content)] else []

/-- The board after the requests of a log. -/
def after (b : Board C τ κ) (log : List (C × Request τ κ)) : Board C τ κ :=
  log.foldl (fun b p => b.serve p.1 p.2) b

/-- What `d` is told while the requests of a log are served. -/
def informs (b : Board C τ κ) : List (C × Request τ κ) → C → List (τ × κ)
  | [], _ => []
  | (c, r) :: log, d => b.tells c r d ++ (b.serve c r).informs log d

variable {b : Board C τ κ} {log more : List (C × Request τ κ)} {c d : C} {r : Request τ κ}
  {topic : τ} {content : κ}

theorem after_concat : b.after (log ++ [(c, r)]) = (b.after log).serve c r :=
  List.foldl_append

theorem informs_append :
    b.informs (log ++ more) d = b.informs log d ++ (b.after log).informs more d := by
  induction log generalizing b with
  | nil => rfl
  | cons p log ih =>
    rw [List.cons_append, informs, informs, ih, List.append_assoc]
    rfl

theorem informs_concat :
    b.informs (log ++ [(c, r)]) d = b.informs log d ++ (b.after log).tells c r d := by
  rw [informs_append, informs, informs, List.append_nil]

/-- A subscription of the client to the topic, or an end of it. -/
def interest (c : C) (topic : τ) : C × Request τ κ → Option Bool
  | (d, .subscribe topic') => if d = c ∧ topic' = topic then some true else none
  | (d, .unSubscribe topic') => if d = c ∧ topic' = topic then some false else none
  | (_, .publish _ _) => none

/-- What is published on the topic. -/
def published (topic : τ) : C × Request τ κ → Option κ
  | (_, .publish topic' content) => if topic' = topic then some content else none
  | (_, .subscribe _) | (_, .unSubscribe _) => none

/-- A notice about the topic. -/
def about (topic : τ) (n : τ × κ) : Option κ := if n.1 = topic then some n.2 else none

theorem mem_serve_of_interest {v : Bool} (h : interest c topic (d, r) = some v) :
    c ∈ (b.serve d r).subscribers topic ↔ v = true := by
  cases r with
  | subscribe topic' =>
    obtain ⟨⟨rfl, rfl⟩, hv⟩ := Option.ite_none_right_eq_some.mp h
    simp [serve, ← Option.some_inj.mp hv]
  | unSubscribe topic' =>
    obtain ⟨⟨rfl, rfl⟩, hv⟩ := Option.ite_none_right_eq_some.mp h
    simp [serve, ← Option.some_inj.mp hv]
  | publish _ _ => cases h

theorem mem_serve_of_none (h : interest c topic (d, r) = none) :
    c ∈ (b.serve d r).subscribers topic ↔ c ∈ b.subscribers topic := by
  cases r with
  | subscribe topic' =>
    by_cases ht : topic = topic'
    · subst ht
      have hc : c ≠ d := by
        rintro rfl
        simp [interest] at h
      simp [serve, hc]
    · simp [serve, ht]
  | unSubscribe topic' =>
    by_cases ht : topic = topic'
    · subst ht
      have hc : c ≠ d := by
        rintro rfl
        simp [interest] at h
      simp [serve, hc]
    · simp [serve, ht]
  | publish _ _ => exact Iff.rfl

/-- The subscribers are those whose last request about the topic is a subscription. -/
theorem mem_subscribers :
    c ∈ (({} : Board C τ κ).after log).subscribers topic ↔
      latest (interest c topic) log = some true := by
  induction log using List.reverseRecOn with
  | nil => exact iff_of_false (Finset.notMem_empty c) nofun
  | append_singleton log p ih =>
    rw [after_concat]
    cases hi : interest c topic p with
    | some v => rw [latest_concat_some hi, Option.some_inj, mem_serve_of_interest hi]
    | none => rw [latest_concat_none hi, mem_serve_of_none hi, ih]

/-- What is retained is what was published last. -/
theorem retained_after :
    (({} : Board C τ κ).after log).retained topic = latest (published topic) log := by
  induction log using List.reverseRecOn with
  | nil => rfl
  | append_singleton log p ih =>
    obtain ⟨c, r⟩ := p
    rw [after_concat]
    cases r with
    | subscribe _ | unSubscribe _ => exact ih.trans (latest_concat_none rfl).symm
    | publish topic' content' =>
      simp only [serve]
      by_cases ht : topic' = topic
      · have hp : published topic (c, .publish topic' content') = some content' := if_pos ht
        rw [latest_concat_some hp, ht, Function.update_self]
      · have hp : published topic (c, .publish topic' content') = none := if_neg ht
        rw [latest_concat_none hp, Function.update_of_ne (Ne.symm ht), ih]

theorem logged_of_subscriber (h : d ∈ (({} : Board C τ κ).after log).subscribers topic) :
    (d, .subscribe topic) ∈ log := by
  obtain ⟨⟨c, r⟩, hmem, hi⟩ := latest_mem (mem_subscribers.mp h)
  cases r with
  | subscribe topic' =>
    obtain ⟨⟨rfl, rfl⟩, -⟩ := Option.ite_none_right_eq_some.mp hi
    exact hmem
  | unSubscribe topic' =>
    obtain ⟨-, hv⟩ := Option.ite_none_right_eq_some.mp hi
    cases hv
  | publish _ _ => cases hi

theorem logged_of_retained (h : (({} : Board C τ κ).after log).retained topic = some content) :
    ∃ c, (c, .publish topic content) ∈ log := by
  rw [retained_after] at h
  obtain ⟨⟨c, r⟩, hmem, hp⟩ := latest_mem h
  cases r with
  | subscribe _ | unSubscribe _ => cases hp
  | publish topic' content' =>
    obtain ⟨rfl, hk⟩ := Option.ite_none_right_eq_some.mp hp
    cases hk
    exact ⟨c, hmem⟩

theorem logged_of_informs (h : (topic, content) ∈ ({} : Board C τ κ).informs log d) :
    (∃ c, (c, .publish topic content) ∈ log) ∧ (d, .subscribe topic) ∈ log := by
  induction log using List.reverseRecOn with
  | nil => cases h
  | append_singleton log p ih =>
    obtain ⟨c, r⟩ := p
    rw [informs_concat] at h
    rcases List.mem_append.mp h with h | h
    · obtain ⟨⟨c', hc'⟩, hd⟩ := ih h
      exact ⟨⟨c', List.mem_append_left _ hc'⟩, List.mem_append_left _ hd⟩
    · cases r with
      | subscribe topic' =>
        rw [tells] at h
        split at h
        · rename_i hcd
          obtain ⟨k, hk, heq⟩ := Option.map_eq_some_iff.mp (Option.mem_toList.mp h)
          cases heq
          subst hcd
          obtain ⟨c', hc'⟩ := logged_of_retained hk
          exact ⟨⟨c', List.mem_append_left _ hc'⟩, List.mem_concat_self⟩
        · cases h
      | unSubscribe _ => cases h
      | publish topic' content' =>
        rw [tells] at h
        split at h
        · rename_i hmem
          cases List.mem_singleton.mp h
          exact ⟨⟨c, List.mem_concat_self⟩, List.mem_append_left _ (logged_of_subscriber hmem)⟩
        · cases h

omit [DecidableEq τ] in
theorem tells_cases : b.tells c r d = [] ∨ ∃ n, b.tells c r d = [n] := by
  cases r with
  | subscribe topic =>
    rw [tells]
    split
    · cases b.retained topic with
      | none => exact .inl rfl
      | some k => exact .inr ⟨_, rfl⟩
    · exact .inl rfl
  | unSubscribe _ => exact .inl rfl
  | publish topic content =>
    rw [tells]
    split
    · exact .inr ⟨_, rfl⟩
    · exact .inl rfl

/-- What a client is told about a topic is what is then retained. -/
theorem retained_of_tells {n : τ × κ} (h : n ∈ b.tells c r d) (ha : about topic n = some content) :
    (b.serve c r).retained topic = some content := by
  obtain ⟨rfl, hk⟩ := Option.ite_none_right_eq_some.mp ha
  cases r with
  | subscribe topic' =>
    rw [tells] at h
    split at h
    · obtain ⟨k, hret, rfl⟩ := Option.map_eq_some_iff.mp (Option.mem_toList.mp h)
      exact hret.trans hk
    · cases h
  | unSubscribe _ => cases h
  | publish topic' content' =>
    rw [tells] at h
    split at h
    · cases List.mem_singleton.mp h
      simpa [serve] using hk
    · cases h

/-- A subscriber that is told nothing about a topic misses nothing. -/
theorem untold (hd : d ∈ (b.serve c r).subscribers topic)
    (h : ∀ n ∈ b.tells c r d, about topic n = none) :
    (b.serve c r).retained topic = b.retained topic ∧
      (d ∈ b.subscribers topic ∨ b.retained topic = none) := by
  cases hi : interest d topic (c, r) with
  | none =>
    rw [mem_serve_of_none hi] at hd
    refine ⟨?_, .inl hd⟩
    cases r with
    | subscribe _ | unSubscribe _ => rfl
    | publish topic' content =>
      refine Function.update_of_ne ?_ _ _
      rintro rfl
      have htold : (topic, content) ∈ b.tells c (.publish topic content) d := by
        simp [tells, hd]
      simpa [about] using h _ htold
  | some v =>
    cases r with
    | subscribe topic' =>
      obtain ⟨⟨rfl, rfl⟩, -⟩ := Option.ite_none_right_eq_some.mp hi
      refine ⟨rfl, .inr ?_⟩
      cases hret : b.retained topic' with
      | none => rfl
      | some k =>
        have htold : (topic', k) ∈ b.tells c (.subscribe topic') c := by simp [tells, hret]
        simpa [about] using h _ htold
    | unSubscribe topic' =>
      rw [mem_serve_of_interest hi] at hd
      obtain ⟨-, hv⟩ := Option.ite_none_right_eq_some.mp hi
      rw [hd] at hv
      cases hv
    | publish _ _ => cases hi

theorem retained_none_of_serve (h : (b.serve c r).retained topic = none) :
    b.retained topic = none := by
  cases r with
  | subscribe _ | unSubscribe _ => exact h
  | publish topic' content =>
    by_cases ht : topic = topic'
    · subst ht
      simp [serve] at h
    · simpa [serve, ht] using h

/-- The last thing a subscriber is told about a topic is what is retained. -/
theorem latest_informs (log : List (C × Request τ κ)) (d : C) (topic : τ) :
    (d ∈ (({} : Board C τ κ).after log).subscribers topic →
      latest (about topic) (({} : Board C τ κ).informs log d) =
        (({} : Board C τ κ).after log).retained topic) ∧
    ((({} : Board C τ κ).after log).retained topic = none →
      latest (about topic) (({} : Board C τ κ).informs log d) = none) := by
  induction log using List.reverseRecOn with
  | nil => exact ⟨fun h => absurd h (Finset.notMem_empty d), fun _ => rfl⟩
  | append_singleton log p ih =>
    obtain ⟨c, r⟩ := p
    rw [after_concat, informs_concat]
    set b := ({} : Board C τ κ).after log
    -- the client is told something about the topic, or what it was told stays
    have hkept (h : ∀ n ∈ b.tells c r d, about topic n = none) :
        latest (about topic) (({} : Board C τ κ).informs log d ++ b.tells c r d) =
          latest (about topic) (({} : Board C τ κ).informs log d) := by
      rcases tells_cases (b := b) (c := c) (r := r) (d := d) with ht | ⟨n, ht⟩
      · rw [ht, List.append_nil]
      · rw [ht, latest_concat_none (h n (by simp [ht]))]
    by_cases htold : ∀ n ∈ b.tells c r d, about topic n = none
    · rw [hkept htold]
      refine ⟨fun hd => ?_, fun hnone => ih.2 (retained_none_of_serve hnone)⟩
      obtain ⟨hsame, hold | hnone⟩ := untold hd htold
      · rw [hsame, ih.1 hold]
      · rw [hsame, hnone, ih.2 hnone]
    · push Not at htold
      obtain ⟨n, hn, ha⟩ := htold
      obtain ⟨k, hk⟩ := Option.ne_none_iff_exists'.mp ha
      have hret := retained_of_tells hn hk
      rcases tells_cases (b := b) (c := c) (r := r) (d := d) with ht | ⟨n', ht⟩
      · rw [ht] at hn
        cases hn
      · rw [ht] at hn ⊢
        cases List.mem_singleton.mp hn
        rw [latest_concat_some hk, hret]
        exact ⟨fun _ => rfl, nofun⟩

end Board

end Summer.Lib
