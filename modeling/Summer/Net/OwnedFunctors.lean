import Summer.Net.ConnectionOwners

/-!
# The functors of `send()` and `shutdown()`

Until the loop has swapped out the batch of `connectionDestroyed`, the server, the client or
that functor owns the connection, and a functor that is queued by then runs in the same batch
at the latest. One that is queued later has no such owner: it finds the connection alive only
as long as some other owner stays.
-/
namespace Summer.Net

open Summer.Lib

variable {T : Type} [DecidableEq T]

namespace ConnectionSystem

variable {s s' : ConnectionSystem T} {a : Action T}

/-- A thread enters a call only from its own test of `state_`. -/
theorem threads_of_moves (h : Moves s a s') {t : T} (ht : s'.threads t ≠ .idle) :
    s.threads t ≠ .idle ∨ OwnedConnection.caller a = some (some t) := by
  have hupdate : ∀ {u : T} {pc : Pc}, Function.update s.threads u pc t ≠ .idle →
      u = t ∨ s.threads t ≠ .idle := by
    intro u pc hne
    by_cases hu : t = u
    · exact .inl hu.symm
    · rw [Function.update_of_ne hu] at hne
      exact .inr hne
  have hcall : ∀ {u : T} {pc : Pc}, s.threads u = pc → pc ≠ .idle → u = t →
      s.threads t ≠ .idle := by
    intro u pc hu hpc he
    rw [← he, hu]
    exact hpc
  cases h with
  | passes hp =>
    obtain ⟨loop, revents, phase, rfl⟩ := hp.frame
    exact .inl ht
  | otherSend _ _ =>
    rcases hupdate ht with rfl | hne
    · exact .inr rfl
    · exact .inl hne
  | otherSendPush hpc => exact .inl ((hupdate ht).elim (hcall hpc nofun) id)
  | otherShutdown _ _ _ =>
    rcases hupdate ht with rfl | hne
    · exact .inr rfl
    · exact .inl hne
  | otherShutdownSet hpc => exact .inl ((hupdate ht).elim (hcall hpc nofun) id)
  | otherShutdownPush hpc => exact .inl ((hupdate ht).elim (hcall hpc nofun) id)
  | notify => exact .inl ht
  | close => exact .inl ht
  | drain => exact .inl ht
  | destroy => exact .inl ht
  | runSend => exact .inl ht
  | runShutdown => exact .inl ht
  | send => exact .inl ht
  | shutdown => exact .inl ht
  | otherFunctor => exact .inl ht
  | baseRemove => exact .inl ht

/-- What a step does to a connection that no thread and no pointer refers to: it takes a functor
that does not use the connection from the queue, or adds one of someone else. -/
structure Apart (s : ConnectionSystem T) (a : Action T) (s' : ConnectionSystem T)
    (pushed : List (Functor T)) : Prop where
  turnover : Turnover s s' (s.popped a) pushed
  popped : ∀ f ∈ s.popped a, f.raw = false
  pushed : ∀ f ∈ pushed, f.raw = false ∧ f.owns = false
  held : s'.conn.held = s.conn.held
  removals : s'.conn.removals = s.conn.removals

theorem apart_of_moves (h : Moves s a s') (hcaller : OwnedConnection.caller a = none)
    (hidle : ∀ t, s.threads t = .idle) (hremovals : s.conn.removals = 0)
    (hhandling : ∀ callback callbacks read, s.phase ≠ .handling (callback :: callbacks) read)
    (hraw : ∀ f ∈ s.popped a, f.raw = false) (hdue : .connectionDestroyed ∉ s.functors) :
    ∃ pushed, Apart s a s' pushed := by
  cases h with
  | passes hp =>
    have hturn := hp.turnover.1
    obtain ⟨loop, revents, phase, rfl⟩ := hp.frame
    exact ⟨[], hturn, hraw, List.forall_mem_nil _, rfl, rfl⟩
  | notify =>
    exact ⟨[], turnover_of rfl (List.append_nil _).symm, List.forall_mem_nil _,
      List.forall_mem_nil _, rfl, rfl⟩
  | close _ hphase => exact absurd hphase (hhandling _ _ _)
  | drain _ hphase => exact absurd hphase (hhandling _ _ _)
  | destroy _ hphase =>
    refine absurd ?_ hdue
    rw [functors, batch_running hphase]
    exact List.mem_cons_self
  | @runSend n fs t message _ _ hphase =>
    have hpopped := popped_of_running (n := n) hphase
    cases hraw _ (hpopped ▸ List.mem_cons_self)
  | @runShutdown n fs _ hphase =>
    have hpopped := popped_of_running (n := n) hphase
    cases hraw _ (hpopped ▸ List.mem_cons_self)
  | send => cases hcaller
  | shutdown => cases hcaller
  | otherSend => cases hcaller
  | otherSendPush hpc => cases (hidle _).symm.trans hpc
  | otherShutdown => cases hcaller
  | otherShutdownSet hpc => cases (hidle _).symm.trans hpc
  | otherShutdownPush hpc => cases (hidle _).symm.trans hpc
  | otherFunctor =>
    refine ⟨_, turnover_push _ s.threads, List.forall_mem_nil _, fun f hf => ?_, rfl, rfl⟩
    rw [List.mem_singleton.mp hf]
    exact ⟨rfl, rfl⟩
  | baseRemove hpos => omega

omit [DecidableEq T] in
/-- A step that fails found an assertion violated, or was not possible. -/
theorem Faults.ne_dangling {f : Fault} (hstate : s.conn.state ≠ .kConnecting)
    (h : Faults s a f) : f ≠ .dangling := by
  cases h with
  | notEnabled => nofun
  | close _ _ hclose =>
    rcases TcpConnection.handleClose_error hclose with ⟨rfl, -⟩ | ⟨-, rfl | rfl⟩ <;> nofun
  | drain _ hdrain =>
    rcases TcpConnection.handleWrite_error hdrain with rfl | ⟨rfl, -⟩ <;> nofun
  | destroy _ hdestroy =>
    rw [(TcpConnection.connectionDestroyed_error hstate hdestroy).1]
    nofun
  | runSend _ hsend => rcases TcpConnection.sendInLoop_error hsend with rfl | ⟨rfl, -⟩ <;> nofun
  | send _ hsend => rcases TcpConnection.sendInLoop_error hsend with rfl | ⟨rfl, -⟩ <;> nofun
  | baseRemove => nofun

end ConnectionSystem

namespace OwnedConnection

variable {s s' : OwnedConnection T} {owner : Owner} {w : Bool}

/-- A thread inside a call has a `TcpConnectionPtr`. -/
structure Inv (owner : Owner) (w : Bool) (s : OwnedConnection T) : Prop where
  system : s.system = .init owner w ∨ s.system.Live ∧ s.system.Polled
  calls : ∀ t, s.system.threads t ≠ .idle → some t ∈ s.copies

theorem init_inv : Inv owner w (init owner w : OwnedConnection T) :=
  ⟨.inl rfl, fun _ h => absurd rfl h⟩

theorem Inv.live (h : Inv owner w s) (hheld : s.system.conn.held = false) :
    s.system.Live ∧ s.system.Polled := by
  rcases h.system with hinit | hlive
  · rw [hinit] at hheld
    cases hheld
  · exact hlive

/-- A connection that nobody owns was destroyed by its loop, and no `connectionDestroyed` is
left. -/
theorem Inv.destroyed (h : Inv owner w s) (hheld : s.system.conn.held = false)
    (hdue : .connectionDestroyed ∉ s.system.functors) : s.system.destroyed = true := by
  have hdes := (h.live hheld).1.destroyed
  rw [ConnectionSystem.due, List.count_eq_zero.mpr hdue, hheld] at hdes
  cases hd : s.system.destroyed with
  | true => rfl
  | false =>
    rw [hd] at hdes
    cases hdes

section

omit [DecidableEq T]

theorem not_alive_iff : ¬ s.Alive ↔ s.system.conn.held = false ∧ s.system.conn.removals = 0 ∧
    s.removed = 0 ∧ s.copies = [] ∧ ∀ f ∈ s.called ++ s.system.functors, f.owns = false := by
  simp [Alive]

@[simp] theorem after_system (system : ConnectionSystem T) (a : ConnectionSystem.Action T) :
    (s.after system a).system = system := by cases a <;> rfl

@[simp] theorem after_copies (system : ConnectionSystem T) (a : ConnectionSystem.Action T) :
    (s.after system a).copies = s.copies := by cases a <;> rfl

theorem after_called (system : ConnectionSystem T) {a : ConnectionSystem.Action T}
    (ha : a ≠ .endPass) : (s.after system a).called = s.called ++ s.system.popped a := by
  cases a with
  | endPass => exact absurd rfl ha
  | runFunctor n => rfl
  | _ => exact (List.append_nil _).symm

theorem called_after (system : ConnectionSystem T) (a : ConnectionSystem.Action T) {f : Functor T}
    (hf : f ∈ (s.after system a).called) : f ∈ s.called ∨ f ∈ s.system.popped a := by
  by_cases ha : a = .endPass
  · subst ha
    cases hf
  · rw [after_called system ha] at hf
    exact List.mem_append.mp hf

theorem after_removed (system : ConnectionSystem T) {a : ConnectionSystem.Action T}
    (ha : a ≠ .removeConnectionInLoop) : (s.after system a).removed = s.removed := by
  cases a with
  | removeConnectionInLoop => exact absurd rfl ha
  | _ => rfl

theorem removed_le_after (system : ConnectionSystem T) (a : ConnectionSystem.Action T) :
    s.removed ≤ (s.after system a).removed := by
  cases a with
  | removeConnectionInLoop => exact Nat.le_succ _
  | _ => exact Nat.le_refl _

/-- An action that uses no pointer to the connection takes no functor bound with `this`. -/
theorem raw_popped {a : ConnectionSystem.Action T} (h : ¬ s.Uses a) {f : Functor T}
    (hf : f ∈ s.system.popped a) : f.raw = false := by
  cases a with
  | runFunctor n =>
    cases hraw : f.raw with
    | false => rfl
    | true =>
      refine absurd ⟨f, ?_, hraw⟩ h
      rw [ConnectionSystem.popped, List.take_one] at hf
      exact Option.mem_toList.mp hf
  | _ => cases hf

end

theorem connection_ok {a : ConnectionSystem.Action T} (h : step s (.connection a) = .ok s') :
    (∀ t ∈ caller a, t ∈ s.copies) ∧ (s.Uses a → s.Alive) ∧
      ∃ system, s.system.step a = .ok system ∧ s' = s.after system a := by
  obtain ⟨_, hcaller, h⟩ := bind_eq_ok.mp h
  obtain ⟨_, huses, h⟩ := bind_eq_ok.mp h
  obtain ⟨system, hsystem, h⟩ := bind_eq_ok.mp h
  cases h
  exact ⟨ensure_eq_ok.mp hcaller, ensure_eq_ok.mp huses, system, hsystem, rfl⟩

/-! ## The invariant -/

theorem inv_connection (h : Inv owner w s) {a : ConnectionSystem.Action T}
    (hs : step s (.connection a) = .ok s') : Inv owner w s' := by
  obtain ⟨hcaller, -, system, hsystem, rfl⟩ := connection_ok hs
  rcases h.system with hinit | ⟨hlive, hpolled⟩
  · rw [hinit] at hsystem
    constructor
    · rw [after_system]
      rcases ConnectionSystem.first_step hsystem with rfl | rfl
      · exact .inl rfl
      · exact .inr ⟨ConnectionSystem.established_live owner w,
          ConnectionSystem.established_polled owner w⟩
    · intro t ht
      rw [after_system] at ht
      rcases ConnectionSystem.first_step hsystem with rfl | rfl <;> exact absurd rfl ht
  · refine ⟨.inr ?_, fun t ht => ?_⟩
    · rw [after_system]
      exact ⟨ConnectionSystem.live_step hlive hsystem,
        ConnectionSystem.polled_step hlive hpolled hsystem⟩
    · rw [after_system] at ht
      rw [after_copies]
      have hmoves := ConnectionSystem.moves_of_step hlive.state hsystem
      rcases ConnectionSystem.threads_of_moves hmoves ht with hne | hcall
      · exact h.calls t hne
      · exact hcaller _ hcall

theorem inv_step (h : Inv owner w s) {a : Action T} (hs : step s a = .ok s') :
    Inv owner w s' := by
  cases a with
  | connection a => exact inv_connection h hs
  | copy t =>
    obtain ⟨_, -, hs⟩ := bind_eq_ok.mp hs
    cases hs
    exact ⟨h.system, fun u hu => List.mem_cons_of_mem _ (h.calls u hu)⟩
  | drop t =>
    obtain ⟨_, hen, hs⟩ := bind_eq_ok.mp hs
    obtain ⟨-, hidle⟩ := ensure_eq_ok.mp hen
    cases hs
    refine ⟨h.system, fun u hu => ?_⟩
    have hne : some u ≠ t := fun he => hu (by rw [← he] at hidle; exact hidle)
    exact (List.mem_erase_of_ne hne).mpr (h.calls u hu)
  | endBasePass =>
    obtain ⟨_, -, hs⟩ := bind_eq_ok.mp hs
    cases hs
    exact ⟨h.system, h.calls⟩

/-! ## The last owner -/

/-- The poller has forgotten the channel of a destroyed connection. -/
theorem Inv.unpolled (h : Inv owner w s) (hgone : ¬ s.Alive) :
    s.system.conn.poller.registered = none ∧ ∀ callback callbacks read,
      s.system.phase ≠ .handling (callback :: callbacks) read := by
  obtain ⟨hheld, -, -, -, howners⟩ := not_alive_iff.mp hgone
  obtain ⟨-, hpolled⟩ := h.live hheld
  have hdestroyed := h.destroyed hheld fun hmem =>
    nomatch howners _ (List.mem_append_right _ hmem)
  refine ⟨(hpolled.removed hdestroyed).2, fun callback callbacks read hphase => ?_⟩
  cases hdestroyed.symm.trans (hpolled.handling _ _ _ hphase)

/-- While the batch goes on, an owner is let go of only for another. -/
theorem alive_connection (h : Inv owner w s) (halive : s.Alive) {a : ConnectionSystem.Action T}
    (ha : a ≠ .endPass) (hs : step s (.connection a) = .ok s') : s'.Alive := by
  obtain ⟨-, -, system, hsystem, rfl⟩ := connection_ok hs
  rcases h.system with hinit | ⟨hlive, -⟩
  · left
    rw [after_system]
    rw [hinit] at hsystem
    rcases ConnectionSystem.first_step hsystem with rfl | rfl <;> rfl
  · obtain ⟨pushed, hflow⟩ := ConnectionSystem.flow_of_moves
      (ConnectionSystem.moves_of_step hlive.state hsystem) hlive.state
    obtain ⟨rest, hold, hnew⟩ := hflow.turnover
    have hcalled := after_called (s := s) system ha
    have hqueued : ∀ f, f ∈ (s.after system a).called ++ (s.after system a).system.functors ↔
        f ∈ s.called ++ s.system.functors ∨ f ∈ pushed := by
      intro f
      rw [hcalled, after_system, hold, hnew]
      simp only [List.mem_append, or_assoc]
    rcases halive with hheld | hpos | hpos | hcopies | ⟨f, hf, howns⟩
    · rcases hflow.held hheld with hheld' | hmem
      · exact .inl ((congrArg (·.conn.held) (after_system system a)).trans hheld')
      · exact .inr (.inr (.inr (.inr ⟨_, (hqueued _).mpr (.inr hmem), rfl⟩)))
    · rcases hflow.removals with hle | hmem
      · refine .inr (.inl ?_)
        rw [after_system]
        exact Nat.lt_of_lt_of_le hpos hle
      · exact .inr (.inr (.inr (.inr ⟨_, (hqueued _).mpr (.inr hmem), rfl⟩)))
    · exact .inr (.inr (.inl (Nat.lt_of_lt_of_le hpos (removed_le_after system a))))
    · exact .inr (.inr (.inr (.inl (by rw [after_copies]; exact hcopies))))
    · exact .inr (.inr (.inr (.inr ⟨f, (hqueued f).mpr (.inl hf), howns⟩)))

/-- A destroyed connection stays destroyed, and the functors bound with `this` stay queued. -/
theorem raws_connection (h : Inv owner w s) (hgone : ¬ s.Alive) {a : ConnectionSystem.Action T}
    (hs : step s (.connection a) = .ok s') : ¬ s'.Alive ∧ s'.raws = s.raws := by
  obtain ⟨hcaller, huses, system, hsystem, rfl⟩ := connection_ok hs
  obtain ⟨hheld, hremovals, hremoved, hcopies, howners⟩ := not_alive_iff.mp hgone
  obtain ⟨hlive, -⟩ := h.live hheld
  have hunused : ¬ s.Uses a := fun hu => hgone (huses hu)
  have hnocopy : ∀ t, t ∉ s.copies := by
    rw [hcopies]
    nofun
  have hqueue : ∀ f ∈ s.system.functors, f.owns = false :=
    fun f hf => howners f (List.mem_append_right _ hf)
  have hdue : .connectionDestroyed ∉ s.system.functors := fun hmem => nomatch hqueue _ hmem
  obtain ⟨pushed, hapart⟩ := ConnectionSystem.apart_of_moves
    (ConnectionSystem.moves_of_step hlive.state hsystem)
    (Option.eq_none_iff_forall_not_mem.mpr fun t ht => hnocopy t (hcaller t ht))
    (fun t => by_contra fun ht => hnocopy _ (h.calls t ht)) hremovals
    (h.unpolled hgone).2 (fun f hf => raw_popped hunused hf) hdue
  obtain ⟨rest, hold, hnew⟩ := hapart.turnover
  constructor
  · rw [not_alive_iff, after_system, after_copies]
    refine ⟨hapart.held.trans hheld, hapart.removals.trans hremovals, ?_, hcopies, fun f hf => ?_⟩
    · rw [after_removed, hremoved]
      intro he
      subst he
      obtain ⟨_, hen, -⟩ := bind_eq_ok.mp hsystem
      have hpos := ensure_eq_ok.mp hen
      omega
    · rcases List.mem_append.mp hf with hf | hf
      · rcases called_after system a hf with hf | hf
        · exact howners f (List.mem_append_left _ hf)
        · exact hqueue f (hold ▸ List.mem_append_left _ hf)
      · rw [hnew] at hf
        rcases List.mem_append.mp hf with hf | hf
        · exact hqueue f (hold ▸ List.mem_append_right _ hf)
        · exact (hapart.pushed f hf).2
  · have hpopped : (s.system.popped a).filter Functor.raw = [] := by
      rw [List.filter_eq_nil_iff]
      exact fun f hf => by rw [hapart.popped f hf]; decide
    have hpushed : pushed.filter Functor.raw = [] := by
      rw [List.filter_eq_nil_iff]
      exact fun f hf => by rw [(hapart.pushed f hf).1]; decide
    rw [raws, raws, after_system, hold, hnew, List.filter_append, List.filter_append, hpopped,
      hpushed, List.append_nil, List.nil_append]

theorem alive_of_without {a : Action T} (h : (s.without a).Alive) : s.Alive := by
  cases a with
  | copy t => exact h
  | drop t =>
    refine h.imp_right (.imp_right (.imp_right (.imp_left fun hcopies hnil => hcopies ?_)))
    show s.copies.erase t = []
    rw [hnil]
    rfl
  | endBasePass =>
    refine h.imp_right (.imp_right fun h => .inr (h.resolve_left ?_))
    exact Nat.lt_irrefl 0
  | connection a =>
    cases a with
    | endPass =>
      refine h.imp_right (.imp_right (.imp_right (.imp_right ?_)))
      intro howner
      obtain ⟨f, hf, howns⟩ := howner
      exact ⟨f, List.mem_append_right _ hf, howns⟩
    | _ => exact h

/-- When the last owner goes, every functor bound with `this` that is still queued is late. -/
theorem late_eq_raws (h : Inv owner w s) (hheld : s.system.conn.held = false)
    (hdue : .connectionDestroyed ∉ s.system.functors)
    (hcalled : .connectionDestroyed ∈ s.called → s.system.batch = []) : s.late = s.raws := by
  by_cases hmem : .connectionDestroyed ∈ s.called
  · rw [late, if_pos (List.mem_append_left _ hmem), raws, ConnectionSystem.functors,
      hcalled hmem, List.nil_append]
  · rw [late, if_neg, if_pos (h.destroyed hheld hdue)]
    intro hm
    rcases List.mem_append.mp hm with hm | hm
    · exact hmem hm
    · exact hdue (List.mem_append_left _ hm)

/-- A step that only lets go of owners. -/
theorem sound_of_without (h : Inv owner w s) {a : Action T}
    (hsystem : (s.without a).system = s.system)
    (hcalled : (s.without a).called = s.called ∨ s.system.batch = [])
    (halive : s'.Alive ↔ (s.without a).Alive) (hraws : s'.raws = s.raws) :
    s'.Sound ↔ s.Sound ∧ s.LetsGo a := by
  rw [Sound, Sound, LetsGo, halive, hraws]
  by_cases hw : (s.without a).Alive
  · exact ⟨fun _ => ⟨.inl (alive_of_without hw), fun _ hn => absurd hw hn⟩, fun _ => .inl hw⟩
  · obtain ⟨hheld, -, -, -, howners⟩ := not_alive_iff.mp hw
    rw [hsystem] at hheld howners
    have hlate : s.late = s.raws := by
      refine late_eq_raws h hheld ?_ ?_
      · intro hm
        exact nomatch howners _ (List.mem_append_right _ hm)
      · intro hm
        refine hcalled.resolve_left fun heq => ?_
        rw [← heq] at hm
        exact nomatch howners _ (List.mem_append_left _ hm)
    rw [hlate]
    constructor
    · intro hsound
      have hnil := hsound.resolve_left hw
      exact ⟨.inr hnil, fun _ _ => hnil⟩
    · intro hsound
      obtain ⟨hsound, hgo⟩ := hsound
      exact .inr (hsound.elim (fun ha => hgo ha hw) id)

/-- The steps of the connection and of its threads. -/
theorem sound_connection (h : Inv owner w s) {a : ConnectionSystem.Action T}
    (hs : step s (.connection a) = .ok s') : s'.Sound ↔ s.Sound ∧ s.LetsGo (.connection a) := by
  by_cases ha : a = .endPass
  · subst ha
    obtain ⟨-, -, system, hsystem, rfl⟩ := connection_ok hs
    obtain ⟨hbatch, hfunctors, hheld, hremovals⟩ := ConnectionSystem.endPass_ok hsystem
    refine sound_of_without h rfl (.inr hbatch) ?_ (congrArg (List.filter Functor.raw) hfunctors)
    simp only [Alive, after, without, hfunctors, hheld, hremovals]
  · have hsame : s.without (.connection a) = s := by
      cases a with
      | endPass => exact absurd rfl ha
      | _ => rfl
    have hgo : s.LetsGo (.connection a) := by
      rw [LetsGo, hsame]
      exact fun halive hgone => absurd halive hgone
    by_cases halive : s.Alive
    · exact ⟨fun _ => ⟨.inl halive, hgo⟩, fun _ => .inl (alive_connection h halive ha hs)⟩
    · obtain ⟨hgone, hraws⟩ := raws_connection h halive hs
      rw [Sound, Sound, hraws]
      exact ⟨fun hsound => ⟨.inr (hsound.resolve_left hgone), hgo⟩,
        fun hsound => .inr (hsound.1.resolve_left halive)⟩

theorem sound_step (h : Inv owner w s) {a : Action T} (hs : step s a = .ok s') :
    s'.Sound ↔ s.Sound ∧ s.LetsGo a := by
  cases a with
  | connection a => exact sound_connection h hs
  | copy t =>
    obtain ⟨_, hen, hs⟩ := bind_eq_ok.mp hs
    have halive := ensure_eq_ok.mp hen
    cases hs
    exact ⟨fun _ => ⟨.inl halive, fun ha hn => absurd ha hn⟩,
      fun _ => .inl (.inr (.inr (.inr (.inl (List.cons_ne_nil _ _)))))⟩
  | drop t =>
    obtain ⟨_, -, hs⟩ := bind_eq_ok.mp hs
    cases hs
    exact sound_of_without h rfl (.inl rfl) Iff.rfl rfl
  | endBasePass =>
    obtain ⟨_, -, hs⟩ := bind_eq_ok.mp hs
    cases hs
    exact sound_of_without h rfl (.inl rfl) Iff.rfl rfl

/-! ## Uses of a destroyed connection -/

/-- The poller forgets the channel with the connection, so only a functor can be a fault. -/
theorem Inv.alive_of_uses (h : Inv owner w s) (hsound : s.Sound)
    {a : ConnectionSystem.Action T} (huses : s.Uses a) : s.Alive := by
  by_contra hgone
  obtain ⟨hregistered, hhandling⟩ := h.unpolled hgone
  cases a with
  | poll revents read => exact huses hregistered
  | handleEvent n =>
    rw [Uses] at huses
    split at huses
    next callback callbacks read hphase => exact hhandling callback callbacks read hphase
    next => exact huses
  | runFunctor n =>
    obtain ⟨f, hf, hraw⟩ := huses
    have hmem : f ∈ s.raws :=
      List.mem_filter.mpr ⟨List.mem_append_left _ (List.mem_of_mem_head? hf), hraw⟩
    rw [hsound.resolve_left hgone] at hmem
    cases hmem
  | _ => exact huses

omit [DecidableEq T] in
theorem uses_head {f : Functor T} {fs : List (Functor T)} {n : Int}
    (hbatch : s.system.batch = f :: fs) : s.Uses (.runFunctor n) ↔ f.raw = true := by
  rw [Uses, hbatch]
  simp

/-- A functor that is called after the connection was destroyed. -/
theorem step_dangling {f : Functor T} {fs : List (Functor T)} {n : Int} (hgone : ¬ s.Alive)
    (hbatch : s.system.batch = f :: fs) (hraw : f.raw = true) :
    step s (.connection (.runFunctor n)) = .error .dangling := by
  have huses : s.Uses (.runFunctor n) := (uses_head hbatch).mpr hraw
  rw [step, ensure_of nofun, ok_bind, ensure_of_not (fun hu => hgone (hu huses))]
  rfl

theorem step_ne_dangling (h : Inv owner w s) (hsound : s.Sound) {a : Action T} :
    step s a ≠ .error .dangling := by
  intro hs
  cases a with
  | copy t =>
    rcases ensure_bind_eq_error.mp hs with ⟨-, he⟩ | ⟨-, he⟩ <;> cases he
  | drop t =>
    rcases ensure_bind_eq_error.mp hs with ⟨-, he⟩ | ⟨-, he⟩ <;> cases he
  | endBasePass =>
    rcases ensure_bind_eq_error.mp hs with ⟨-, he⟩ | ⟨-, he⟩ <;> cases he
  | connection a =>
    rcases ensure_bind_eq_error.mp hs with ⟨-, he⟩ | ⟨-, hs⟩
    · cases he
    · rcases ensure_bind_eq_error.mp hs with ⟨hnot, -⟩ | ⟨-, hs⟩
      · exact hnot (h.alive_of_uses hsound)
      · have hs := (bind_eq_error.mp hs).resolve_right fun ⟨_, _, he⟩ => nomatch he
        rcases h.system with hinit | ⟨hlive, -⟩
        · rw [hinit] at hs
          cases ConnectionSystem.first_step_error hs
        · exact (ConnectionSystem.faults_of_step hlive.state hs).ne_dangling hlive.state rfl

/-! ## Runs -/

theorem run_inv {as : List (Action T)} (hrun : run step (init owner w) as = .ok s) :
    Inv owner w s :=
  run_preserves (fun _ _ _ h hs => inv_step h hs) init_inv hrun

theorem sound_iff_along {as : List (Action T)} (hrun : run step (init owner w) as = .ok s) :
    s.Sound ↔ Along step LetsGo (init owner w) as := by
  refine run_history (J := fun as s => s.Sound ↔ Along step LetsGo (init owner w) as)
    ⟨fun _ => trivial, fun _ => .inl (.inl rfl)⟩ ?_ hrun
  intro as t a u ht hJ hs
  rw [along_concat ht, sound_step (run_inv ht) hs, hJ]

/-- The loop can go on from here, on its own, to a functor of a destroyed connection. -/
def Dangles (s : OwnedConnection T) : Prop := ∃ as, run step s as = .error .dangling

theorem dangles_of_step {a : Action T} (hs : step s a = .ok s') (h : s'.Dangles) :
    s.Dangles := by
  obtain ⟨as, has⟩ := h
  exact ⟨a :: as, by rw [run_cons, hs, ok_bind, has]⟩

/-- A destroyed connection, and the functors bound with `this` that are queued for it. -/
structure Doomed (owner : Owner) (w : Bool) (raws : List (Functor T)) (s : OwnedConnection T) :
    Prop where
  inv : Inv owner w s
  gone : ¬ s.Alive
  raws : s.raws = raws
  free : s.system.Free

variable {raws : List (Functor T)}

/-- A step of the loop that does not use the connection. -/
theorem doomed_connection (h : Inv owner w s) (hgone : ¬ s.Alive)
    {a : ConnectionSystem.Action T} {system : ConnectionSystem T} (hcaller : caller a = none)
    (huses : ¬ s.Uses a) (hsystem : s.system.step a = .ok system) (hfree : system.Free) :
    step s (.connection a) = .ok (s.after system a) ∧
      Doomed owner w s.raws (s.after system a) := by
  have hs : step s (.connection a) = .ok (s.after system a) := by
    rw [step, ensure_of (by rw [hcaller]; nofun), ok_bind, ensure_of (fun hu => absurd hu huses),
      ok_bind, hsystem]
    rfl
  obtain ⟨hgone', hraws⟩ := raws_connection h hgone hs
  refine ⟨hs, inv_step h hs, hgone', hraws, ?_⟩
  rw [after_system]
  exact hfree

theorem Doomed.connection (h : Doomed owner w raws s) {a : ConnectionSystem.Action T}
    {system : ConnectionSystem T} (hcaller : caller a = none) (huses : ¬ s.Uses a)
    (hsystem : s.system.step a = .ok system) (hfree : system.Free) :
    step s (.connection a) = .ok (s.after system a) ∧ Doomed owner w raws (s.after system a) := by
  rw [← h.raws]
  exact doomed_connection h.inv h.gone hcaller huses hsystem hfree

/-- The next functor of the batch is called, or was bound with `this`. -/
theorem Doomed.runFunctor (h : Doomed owner w raws s) {f : Functor T} {fs : List (Functor T)}
    (hphase : s.system.phase = .running (f :: fs)) :
    s.Dangles ∨ f.raw = false ∧ ∃ s', step s (.connection (.runFunctor 0)) = .ok s' ∧
      Doomed owner w raws s' ∧ s'.system.phase = .running fs := by
  have hbatch := ConnectionSystem.batch_running hphase
  have howns : f.owns = false := by
    refine (not_alive_iff.mp h.gone).2.2.2.2 f (List.mem_append_right _ ?_)
    rw [ConnectionSystem.functors, hbatch]
    exact List.mem_cons_self
  cases hraw : f.raw with
  | true =>
    refine .inl ⟨[.connection (.runFunctor 0)], ?_⟩
    rw [run_cons, step_dangling h.gone hbatch hraw]
    rfl
  | false =>
    refine .inr ⟨rfl, ?_⟩
    have huses : ¬ s.Uses (.runFunctor 0) := by
      rw [uses_head hbatch, hraw]
      simp
    have hsystem : s.system.step (.runFunctor 0) =
        .ok { s.system with phase := .running fs } := by
      rw [ConnectionSystem.step, ensure_of h.free, ok_bind, hphase]
      cases f with
      | other => rfl
      | connectionDestroyed => cases howns
      | writeCompleteCallback => cases howns
      | sendInLoop t message => cases hraw
      | shutdownInLoop => cases hraw
    obtain ⟨hs, hdoomed⟩ := h.connection rfl huses hsystem h.free
    exact ⟨_, hs, hdoomed, by rw [after_system]⟩

theorem Doomed.running (h : Doomed owner w raws s) {fs : List (Functor T)}
    (hphase : s.system.phase = .running fs) (hraw : ∃ f ∈ fs, f.raw = true) : s.Dangles := by
  induction fs generalizing s with
  | nil =>
    obtain ⟨f, hf, -⟩ := hraw
    cases hf
  | cons f fs ih =>
    rcases h.runFunctor hphase with hd | ⟨hf, s', hs, hdoomed, hphase'⟩
    · exact hd
    · obtain ⟨g, hg, hgraw⟩ := hraw
      rcases List.mem_cons.mp hg with rfl | hg
      · cases hf.symm.trans hgraw
      · exact dangles_of_step hs (ih hdoomed hphase' ⟨g, hg, hgraw⟩)

theorem Doomed.handling (h : Doomed owner w raws s) (hne : raws ≠ []) {read : ReadResult}
    (hphase : s.system.phase = .handling [] read) : s.Dangles := by
  have hsystem : s.system.step .doPendingFunctor = .ok { s.system with
      conn := { s.system.conn with loop := { s.system.conn.loop with
        callingPendingFunctor := true, pendingFunctors := [] } }
      phase := .running s.system.conn.loop.pendingFunctors } := by
    rw [ConnectionSystem.step, ensure_of h.free, ok_bind, hphase]
    rfl
  obtain ⟨hs, hdoomed⟩ := h.connection rfl id hsystem h.free
  refine dangles_of_step hs (hdoomed.running (by rw [after_system]) ?_)
  obtain ⟨f, hf⟩ := List.exists_mem_of_ne_nil _ hne
  rw [← h.raws, OwnedConnection.raws, ConnectionSystem.functors,
    ConnectionSystem.batch_handling hphase, List.nil_append] at hf
  exact ⟨f, List.mem_filter.mp hf⟩

theorem Doomed.between (h : Doomed owner w raws s) (hne : raws ≠ [])
    (hphase : s.system.phase = .between) : s.Dangles := by
  have hsystem : s.system.step .pollOther = .ok { s.system with
      conn := { s.system.conn with loop := s.system.conn.loop.handleRead }
      phase := .handling [] .error } := by
    rw [ConnectionSystem.step, ensure_of h.free, ok_bind, hphase]
  obtain ⟨hs, hdoomed⟩ := h.connection rfl id hsystem h.free
  exact dangles_of_step hs (hdoomed.handling hne (by rw [after_system]))

/-- What is left of a batch is called first. -/
theorem Doomed.batch (h : Doomed owner w raws s) (hne : raws ≠ []) {fs : List (Functor T)}
    (hphase : s.system.phase = .running fs) : s.Dangles := by
  induction fs generalizing s with
  | nil =>
    have hsystem : s.system.step .endPass = .ok { s.system with
        conn := { s.system.conn with loop := { s.system.conn.loop with
          callingPendingFunctor := false } }
        phase := .between } := by
      rw [ConnectionSystem.step, ensure_of h.free, ok_bind, hphase]
    obtain ⟨hs, hdoomed⟩ := h.connection rfl id hsystem h.free
    exact dangles_of_step hs (hdoomed.between hne (by rw [after_system]))
  | cons f fs ih =>
    rcases h.runFunctor hphase with hd | ⟨-, s', hs, hdoomed, hphase'⟩
    · exact hd
    · exact dangles_of_step hs (ih hdoomed hphase')

theorem Doomed.dangles (h : Doomed owner w raws s) (hne : raws ≠ []) : s.Dangles := by
  cases hphase : s.system.phase with
  | between => exact h.between hne hphase
  | running fs => exact h.batch hne hphase
  | handling callbacks read =>
    cases callbacks with
    | nil => exact h.handling hne hphase
    | cons callback callbacks =>
      exact absurd hphase ((h.inv.unpolled h.gone).2 callback callbacks read)

theorem dangles_of_not_sound (h : Inv owner w s) (hnot : ¬ s.Sound) : s.Dangles := by
  obtain ⟨hgone, hne⟩ := not_or.mp hnot
  obtain ⟨hheld, -⟩ := not_alive_iff.mp hgone
  have hstate := (h.live hheld).1.state
  by_cases hest : s.system.establishing = true
  · have hsystem : s.system.step .connectionCallback = .ok { s.system with
        conn := s.system.conn.connectionCallback, establishing := false, notified := true } := by
      rw [ConnectionSystem.step, ensure_of hest, ok_bind]
    obtain ⟨hs, hdoomed⟩ := doomed_connection h hgone rfl id hsystem ⟨hstate, rfl⟩
    exact dangles_of_step hs (hdoomed.dangles hne)
  · have hdoomed : Doomed owner w s.raws s :=
      ⟨h, hgone, rfl, hstate, Bool.eq_false_iff.mpr hest⟩
    exact hdoomed.dangles hne

/-- No functor finds its connection destroyed as long as the last owner never goes while a late
functor is queued; where one does, the loop goes on to call the functor. -/
theorem queued_functors_find_connection (owner : Owner) (w : Bool) (as : List (Action T)) :
    (Along step LetsGo (init owner w) as → run step (init owner w) as ≠ .error .dangling) ∧
      ∀ s, run step (init owner w) as = .ok s → ¬ Along step LetsGo (init owner w) as →
        s.Dangles := by
  constructor
  · intro hcond hrun
    have herr : ∀ (s : OwnedConnection T) a f, Inv owner w s ∧ s.Sound → s.LetsGo a →
        step s a = .error f → ¬ f = .dangling := by
      rintro s a f ⟨hinv, hsound⟩ - hs rfl
      exact step_ne_dangling hinv hsound hs
    refine run_ne_error ?_ herr ⟨init_inv, .inl (.inl rfl)⟩ hcond hrun rfl
    intro s a t hi hc hs
    obtain ⟨hinv, hsound⟩ := hi
    exact ⟨inv_step hinv hs, (sound_step hinv hs).mpr ⟨hsound, hc⟩⟩
  · intro s hrun hcond
    refine dangles_of_not_sound (run_inv hrun) fun hsound => hcond ?_
    exact (sound_iff_along hrun).mp hsound

/-- A late functor, called before its thread lets go of the last pointer. -/
theorem queued_functors_find_connection_sample :
    ∃ s : OwnedConnection Bool, run step (init (.server true) false)
        [.connection .connectionEstablished, .connection .connectionCallback, .copy (some true),
          .connection (.otherSend true (.string [1, 2])), .connection (.poll POLLIN .eof),
          .connection (.handleEvent 0), .connection .doPendingFunctor,
          .connection (.otherSendPush true), .connection (.runFunctor 0), .connection .endPass,
          .connection .pollOther, .connection .doPendingFunctor, .connection (.runFunctor 2),
          .connection .endPass, .drop (some true)] = .ok s ∧ ¬ s.Alive ∧
      run step (init (.server true) false : OwnedConnection Bool)
        [.connection .connectionEstablished, .connection .connectionCallback, .copy (some true),
          .connection (.otherSend true (.string [1, 2])), .connection (.poll POLLIN .eof),
          .connection (.handleEvent 0), .connection .doPendingFunctor,
          .connection (.otherSendPush true), .connection (.runFunctor 0), .connection .endPass,
          .connection .pollOther, .connection .doPendingFunctor, .connection (.runFunctor 2),
          .connection .endPass, .drop (some true)] ≠ .error .dangling := by
  have hend : endsIn step (fun s => decide (¬ s.Alive))
        (init (.server true) false : OwnedConnection Bool)
        [.connection .connectionEstablished, .connection .connectionCallback, .copy (some true),
          .connection (.otherSend true (.string [1, 2])), .connection (.poll POLLIN .eof),
          .connection (.handleEvent 0), .connection .doPendingFunctor,
          .connection (.otherSendPush true), .connection (.runFunctor 0), .connection .endPass,
          .connection .pollOther, .connection .doPendingFunctor, .connection (.runFunctor 2),
          .connection .endPass, .drop (some true)] = true := by decide +kernel
  obtain ⟨s, hrun, hs⟩ := endsIn_iff.mp hend
  refine ⟨s, hrun, of_decide_eq_true hs, (queued_functors_find_connection _ _ _).1 ?_⟩
  decide +kernel

/-- The thread tests `state_`, the connection is closed, and `connectionDestroyed` is swapped
out before the thread queues `sendInLoop` and lets go of its pointer. -/
theorem queued_functor_dangles :
    ∃ s : OwnedConnection Bool, run step (init (.server true) false)
        [.connection .connectionEstablished, .connection .connectionCallback, .copy (some true),
          .connection (.otherSend true (.string [1, 2])), .connection (.poll POLLIN .eof),
          .connection (.handleEvent 0), .connection .doPendingFunctor,
          .connection (.otherSendPush true), .drop (some true), .connection (.runFunctor 0),
          .connection .endPass, .connection .pollOther, .connection .doPendingFunctor] = .ok s ∧
      ¬ s.Alive ∧ s.system.batch = [.sendInLoop true [1, 2]] ∧
      step s (.connection (.runFunctor 0)) = .error .dangling := by
  have hend : endsIn step
        (fun s => decide (¬ s.Alive ∧ s.system.batch = [.sendInLoop true [1, 2]]))
        (init (.server true) false : OwnedConnection Bool)
        [.connection .connectionEstablished, .connection .connectionCallback, .copy (some true),
          .connection (.otherSend true (.string [1, 2])), .connection (.poll POLLIN .eof),
          .connection (.handleEvent 0), .connection .doPendingFunctor,
          .connection (.otherSendPush true), .drop (some true), .connection (.runFunctor 0),
          .connection .endPass, .connection .pollOther, .connection .doPendingFunctor] = true := by
    decide +kernel
  obtain ⟨s, hrun, hs⟩ := endsIn_iff.mp hend
  obtain ⟨hgone, hbatch⟩ := of_decide_eq_true hs
  exact ⟨s, hrun, hgone, hbatch, step_dangling hgone hbatch rfl⟩

end OwnedConnection

end Summer.Net
