import Summer.Hub.HubRuns

/-!
# The two sides of a subscription

The audiences of the topics say who listens to what, and so should the sets in the contexts
of the connections, from which a closed connection is unsubscribed. The handlers change a
copy of the set, so it stays empty.
-/
namespace Summer.Hub.HubSystem

open Summer.Lib

variable {C : Type} [LinearOrder C] {s : HubSystem C} {as : List (Event C)}

/-- For every live connection both sides agree on every topic. -/
def TwoSided (s : HubSystem C) : Prop :=
  ∀ c ∈ s.live, ∀ topic, c ∈ (s.hub.getTopic topic).audiences ↔
    ∃ topics, s.hub.contexts c = some topics ∧ topic ∈ topics

theorem not_in_context (hc : s.ContextsEmpty) (c : C) (topic : Bytes) :
    ¬ ∃ topics, s.hub.contexts c = some topics ∧ topic ∈ topics := by
  intro h
  obtain ⟨topics, hctx, hmem⟩ := h
  rw [hc c] at hctx
  split at hctx
  · cases hctx
    exact OrderedSet.notMem_empty topic hmem
  · cases hctx

/-- A subscription in effect is in the audience alone. -/
theorem not_twoSided (hrun : run step init as = .ok s) {c : C} (hlive : c ∈ s.live)
    {topic : Bytes} (h : Subscribed as c topic) : ¬ s.TwoSided := by
  intro htwo
  have haud := (audiences_run hrun c topic).mpr h
  exact not_in_context (contextsEmpty_run hrun) c topic ((htwo c hlive topic).mp haud)

/-- Both sides agree exactly while no live connection has a subscription in effect. -/
theorem two_sided_iff (hrun : run step init as = .ok s) :
    s.TwoSided ↔ ∀ c ∈ s.live, ∀ topic, ¬ Subscribed as c topic := by
  constructor
  · exact fun htwo c hlive topic h => not_twoSided hrun hlive h htwo
  · intro hnone c hlive topic
    have hempty := not_in_context (contextsEmpty_run hrun) c topic
    rw [audiences_run hrun c topic]
    exact iff_of_false (hnone c hlive topic) hempty

/-- A connection subscribes to a topic and takes it back, and another one publishes. -/
theorem two_sided_iff_sample :
    ∃ s : HubSystem Nat, run step init
        [.established 1, .command 1 ⟨sub, [97], []⟩ ⟨5, by decide⟩, .established 2,
          .command 2 ⟨pub, [97], [98]⟩ ⟨6, by decide⟩,
          .command 1 ⟨unsub, [97], [98]⟩ ⟨7, by decide⟩] = .ok s ∧ s.TwoSided := by
  have hend : endsIn step (fun _ => true) (init : HubSystem Nat)
        [.established 1, .command 1 ⟨sub, [97], []⟩ ⟨5, by decide⟩, .established 2,
          .command 2 ⟨pub, [97], [98]⟩ ⟨6, by decide⟩,
          .command 1 ⟨unsub, [97], [98]⟩ ⟨7, by decide⟩] = true := by decide +kernel
  obtain ⟨s, hrun, -⟩ := endsIn_iff.mp hend
  refine ⟨s, hrun, (two_sided_iff hrun).mpr fun c _ topic => ?_⟩
  have hwords : sub ≠ unsub ∧ pub ≠ sub ∧ pub ≠ unsub ∧ unsub ≠ sub := by decide
  by_cases hct : 1 = c ∧ [97] = topic
  · simp [Subscribed, latest, Event.interest, hct, hwords]
  · simp [Subscribed, latest, Event.interest, List.findSome?_cons, hct, hwords]

/-- One connection subscribes to one topic. -/
theorem subscription_one_sided :
    ∃ s : HubSystem Nat, run step init
        [.established 1, .command 1 ⟨sub, [97], []⟩ ⟨5, by decide⟩] = .ok s ∧
      ¬ s.TwoSided := by
  have hend : endsIn step (fun s => decide (1 ∈ s.live)) (init : HubSystem Nat)
        [.established 1, .command 1 ⟨sub, [97], []⟩ ⟨5, by decide⟩] = true := by decide +kernel
  obtain ⟨s, hrun, hlive⟩ := endsIn_iff.mp hend
  refine ⟨s, hrun, not_twoSided hrun (of_decide_eq_true hlive) (show Subscribed _ 1 [97] from ?_)⟩
  decide

end Summer.Hub.HubSystem
