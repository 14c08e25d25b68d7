import Summer.Lib.Period
import Summer.Net.OutboundStream

/-!
# The notifications that everything has been written

`sendInLoop` queues `writeCompleteCallback_` when `::write` takes a whole message on an idle
connection, also an empty one, and `handleWrite` when it takes the last of the queued output.
Nothing else queues it.
-/
namespace Summer.Net

open Summer.Lib

namespace TcpConnection

variable {T : Type} {c c' : TcpConnection T} {message : Bytes} {nwrite : Int}

/-- The callback is queued, and nothing else, if `p` holds; otherwise nothing is. -/
structure Notified (c c' : TcpConnection T) (p : Prop) : Prop where
  set : c'.writeComplete = c.writeComplete
  queued : p → c'.loop.pendingFunctors = c.loop.pendingFunctors ++ [.writeCompleteCallback]
  silent : ¬ p → c'.loop.pendingFunctors = c.loop.pendingFunctors

theorem queueWriteComplete_set (hset : c.writeComplete = true) :
    c.queueWriteComplete.loop.pendingFunctors =
      c.loop.pendingFunctors ++ [.writeCompleteCallback] := by
  rw [queueWriteComplete, if_pos hset]
  exact EventLoop.queueInLoop_pendingFunctors ..

theorem notified_nothing {p : Prop} (hp : ¬ p) (hset : c'.writeComplete = c.writeComplete)
    (hqueue : c'.loop.pendingFunctors = c.loop.pendingFunctors)
    (hout : c.outputBuffer ≠ [] → c'.outputBuffer ≠ []) :
    Notified c c' p ∧ (p → c'.outputBuffer = []) ∧
      (c.outputBuffer ≠ [] → c'.outputBuffer ≠ []) :=
  ⟨⟨hset, fun h => absurd h hp, fun _ => hqueue⟩, fun h => absurd h hp, hout⟩

/-- `sendInLoop` notifies exactly if the connection is idle and the whole message is written. -/
theorem sendInLoop_notified (hset : c.writeComplete = true)
    (h : c.sendInLoop message nwrite = .ok c') :
    Notified c c' (c.Idle ∧ nwrite = message.length) ∧
      (c.Idle ∧ nwrite = message.length → c'.outputBuffer = []) ∧
      (c.outputBuffer ≠ [] → c'.outputBuffer ≠ []) := by
  cases sendInLoop_cases h with
  | whole hidle hall hc =>
    have hwhole : c.Idle ∧ nwrite = message.length := ⟨hidle, hall⟩
    rw [hc]
    refine ⟨⟨?_, fun _ => queueWriteComplete_set hset, fun hp => absurd hwhole hp⟩, fun _ => ?_,
      fun hne => absurd hidle.2 hne⟩
    · rw [queueWriteComplete_frame]
      rfl
    · rw [queueWriteComplete_frame]
      exact hidle.2
  | rest hidle hpart hc =>
    rw [update_ok hc]
    refine notified_nothing ?_ rfl rfl fun hne => absurd hidle.2 hne
    rintro ⟨-, heq⟩
    omega
  | failed hidle hneg _ hc =>
    rw [hc]
    refine notified_nothing ?_ rfl rfl fun hne => absurd hidle.2 hne
    rintro ⟨-, heq⟩
    omega
  | nothing hbusy _ hc =>
    rw [hc]
    exact notified_nothing (fun hp => hbusy hp.1) rfl rfl id
  | watched hbusy hsome hc =>
    rw [update_ok hc]
    exact notified_nothing (fun hp => hbusy hp.1) rfl rfl fun _ h =>
      hsome (List.append_eq_nil_iff.mp h).2
  | appended hbusy hsome _ hc =>
    rw [hc]
    exact notified_nothing (fun hp => hbusy hp.1) rfl rfl fun _ h =>
      hsome (List.append_eq_nil_iff.mp h).2

/-- `handleWrite` notifies exactly if it writes the last of the queued output. -/
theorem handleWrite_notified (hset : c.writeComplete = true)
    (h : c.handleWrite nwrite = .ok c') :
    Notified c c' (c.outputBuffer ≠ [] ∧ c'.outputBuffer = []) := by
  cases handleWrite_cases h with
  | nothing hc =>
    rw [hc]
    exact ⟨rfl, fun hp => absurd hp.2 hp.1, fun _ => rfl⟩
  | some _ hleft hc =>
    rw [hc]
    refine ⟨rfl, fun hp => absurd ⟨?_, hp.2⟩ hleft, fun _ => rfl⟩
    -- A write that takes nothing leaves the output where it is.
    by_contra hneg
    have hz : nwrite.toNat = 0 := by omega
    have hsame : (c.drained nwrite).outputBuffer = c.outputBuffer := by
      show c.outputBuffer.drop nwrite.toNat = _
      rw [hz, List.drop_zero]
    exact hp.1 (hsame ▸ hp.2)
  | last _ hlength hpos hempty hc =>
    have hne : c.outputBuffer ≠ [] := by
      apply List.ne_nil_of_length_pos
      omega
    rw [hc]
    refine ⟨?_, fun _ => queueWriteComplete_set hset, fun hp => absurd ⟨hne, ?_⟩ hp⟩
    · rw [queueWriteComplete_frame]
      rfl
    · rw [queueWriteComplete_frame]
      exact hempty

theorem shutdownInLoop_loop (c : TcpConnection T) :
    c.shutdownInLoop.loop = c.loop ∧ c.shutdownInLoop.writeComplete = c.writeComplete := by
  rw [shutdownInLoop]
  split
  · exact ⟨rfl, rfl⟩
  · exact ⟨rfl, rfl⟩

theorem shutdown_loop (c : TcpConnection T) :
    c.shutdown.loop = c.loop ∧ c.shutdown.writeComplete = c.writeComplete := by
  rw [shutdown]
  split
  · exact shutdownInLoop_loop _
  · exact ⟨rfl, rfl⟩

theorem handleClose_writeComplete (h : c.handleClose = .ok c') :
    c'.writeComplete = c.writeComplete := by
  obtain ⟨d, hd, h⟩ := bind_eq_ok.mp h
  rw [update_ok hd] at h
  rcases removeConnection_ok h with ⟨-, rfl⟩ | rfl
  · rfl
  · rfl

end TcpConnection

namespace ConnectionSystem

open TcpConnection

variable {T : Type} {s s' : ConnectionSystem T} {a : Action T}

/-- The call of `sendInLoop` that the step makes, with what its `::write` returns. -/
def sends (s : ConnectionSystem T) : Action T → Option (Bytes × Int)
  | .send argument nwrite =>
    if s.conn.state = .kConnected then some (argument.message, nwrite) else none
  | .runFunctor nwrite =>
    match s.batch with
    | .sendInLoop _ message :: _ => some (message, nwrite)
    | _ => none
  | _ => none

/-- The step writes a whole message at once, on an idle connection. -/
def WritesWhole (s : ConnectionSystem T) (a : Action T) : Prop :=
  s.conn.Idle ∧ ∃ m ∈ s.sends a, m.2 = m.1.length

theorem not_writesWhole (h : s.sends a = none) : ¬ s.WritesWhole a := by
  rintro ⟨-, m, hm, -⟩
  rw [h] at hm
  cases hm

/-- Output is queued. -/
def Pending (s : ConnectionSystem T) : Prop := s.conn.outputBuffer ≠ []

theorem batch_popped {n : Int} {f : Functor T} {fs : List (Functor T)}
    (h : s.phase = .running (f :: fs)) (h' : s'.batch = fs) :
    s.batch = s.popped (.runFunctor n) ++ s'.batch := by
  rw [popped_of_running h, batch_running h, h']
  rfl

/-! ## One step -/

/-- What a step does for the notifications. -/
inductive NotifyStep (s : ConnectionSystem T) (a : Action T) (s' : ConnectionSystem T) : Prop
  | other (sends : s.sends a = none) (set : s'.conn.writeComplete = s.conn.writeComplete)
      (buffer : s'.conn.outputBuffer = s.conn.outputBuffer)
      (queue : ∃ l, Turnover s s' (s.popped a) l ∧ .writeCompleteCallback ∉ l)
  | send (message : Bytes) (nwrite : Int) (sends : s.sends a = some (message, nwrite))
      (sent : s.conn.sendInLoop message nwrite = .ok s'.conn)
      (batch : s.batch = s.popped a ++ s'.batch)
  | drain (nwrite : Int) (sends : s.sends a = none)
      (drained : s.conn.handleWrite nwrite = .ok s'.conn)
      (batch : s.batch = s.popped a ++ s'.batch)

theorem NotifyStep.passes (hp : Passes s a s') : NotifyStep s a s' := by
  obtain ⟨hturn, -⟩ := hp.turnover
  have hsends : s.sends a = none := by
    cases hp with
    | runOther _ hphase hf =>
      rw [sends, batch_running hphase]
      rcases hf with rfl | rfl
      · rfl
      · rfl
    | ignored hne ha =>
      rcases ha with ⟨argument, n, rfl⟩ | rfl | ⟨t, argument, rfl⟩ | ⟨t, rfl⟩
      · exact if_neg hne
      · rfl
      · rfl
      · rfl
    | _ => rfl
  obtain ⟨loop, revents, phase, rfl⟩ := hp.frame
  exact .other hsends rfl rfl ⟨[], hturn, List.not_mem_nil⟩

variable [DecidableEq T]

theorem notify_step (hlive : s.Live) (hstep : step s a = .ok s') : NotifyStep s a s' := by
  have hnil : (.writeCompleteCallback : Functor T) ∉ [] := List.not_mem_nil
  cases moves_of_step hlive.state hstep with
  | passes hp => exact .passes hp
  | notify _ => exact .other rfl rfl rfl ⟨[], turnover_same rfl rfl, hnil⟩
  | close _ hphase _ hclose =>
    have hc := handleClose_spec hclose
    refine .other rfl (handleClose_writeComplete hclose) hc.outputBuffer ?_
    rcases hc.removal with ⟨-, -, -, hq⟩ | ⟨-, -, hq⟩
    · exact ⟨_, turnover_of (batch_handling hphase) hq, by simp⟩
    · exact ⟨[], turnover_same (batch_handling hphase) hq, hnil⟩
  | drain _ hphase hdrain => exact .drain _ rfl hdrain (batch_handling hphase)
  | destroy _ hphase hdestroy =>
    obtain ⟨-, rfl⟩ := connectionDestroyed_ok hlive.state hdestroy
    refine .other ?_ rfl rfl
      ⟨[], turnover_of (batch_popped hphase rfl) (List.append_nil _).symm, hnil⟩
    rw [sends, batch_running hphase]
  | runSend _ hphase hsend =>
    refine .send _ _ ?_ hsend (batch_popped hphase rfl)
    rw [sends, batch_running hphase]
  | runShutdown _ hphase =>
    obtain ⟨hloop, hset⟩ := shutdownInLoop_loop s.conn
    refine .other ?_ hset (shutdownInLoop_spec s.conn).outputBuffer
      ⟨[], turnover_of (batch_popped hphase rfl) ?_, hnil⟩
    · rw [sends, batch_running hphase]
    · dsimp only
      rw [hloop, List.append_nil]
  | send _ hstate hsend => exact .send _ _ (if_pos hstate) hsend rfl
  | shutdown _ _ =>
    obtain ⟨hloop, hset⟩ := shutdown_loop s.conn
    exact .other rfl hset (shutdown_spec s.conn).outputBuffer ⟨[], turnover_same rfl hloop, hnil⟩
  | otherSend _ _ => exact .other rfl rfl rfl ⟨[], turnover_same rfl rfl, hnil⟩
  | otherSendPush _ => exact .other rfl rfl rfl ⟨_, turnover_push _ _, by simp⟩
  | otherShutdown _ _ _ => exact .other rfl rfl rfl ⟨[], turnover_same rfl rfl, hnil⟩
  | otherShutdownSet _ => exact .other rfl rfl rfl ⟨[], turnover_same rfl rfl, hnil⟩
  | otherShutdownPush _ => exact .other rfl rfl rfl ⟨_, turnover_push _ _, by simp⟩
  | otherFunctor => exact .other rfl rfl rfl ⟨_, turnover_push _ _, by simp⟩
  | baseRemove _ _ =>
    exact .other rfl rfl rfl
      ⟨_, turnover_of rfl (EventLoop.queueInLoop_pendingFunctors ..), by simp⟩

/-- What the step puts into the queue of the loop. -/
def queued (s : ConnectionSystem T) (a : Action T) : List (Functor T) :=
  match step s a with
  | .error _ => []
  | .ok s' => s'.functors.drop (s.functors.length - (s.popped a).length)

theorem queued_of (hstep : step s a = .ok s') {l : List (Functor T)}
    (h : Turnover s s' (s.popped a) l) : s.queued a = l := by
  obtain ⟨rest, hs, hs'⟩ := h
  rw [queued, hstep]
  dsimp only
  rw [hs, hs', List.length_append, Nat.add_sub_cancel_left, List.drop_left]

/-- The law of one step: the callback is queued once by a step that writes a whole message or the
last of the queued output, and by no other. -/
structure NotifiedOnce (s : ConnectionSystem T) (a : Action T) (s' : ConnectionSystem T) :
    Prop where
  set : s'.conn.writeComplete = true
  once : s.WritesWhole a ∨ s.Pending ∧ ¬ s'.Pending → s.queued a = [.writeCompleteCallback]
  silent : ¬ (s.WritesWhole a ∨ s.Pending ∧ ¬ s'.Pending) →
    .writeCompleteCallback ∉ s.queued a
  written : s.WritesWhole a → ¬ s'.Pending

/-- What the connection queues is what the step queues. -/
theorem queued_notified (hstep : step s a = .ok s') (hbatch : s.batch = s.popped a ++ s'.batch)
    {p : Prop} (hn : Notified s.conn s'.conn p) :
    (p → s.queued a = [.writeCompleteCallback]) ∧ (¬ p → .writeCompleteCallback ∉ s.queued a) := by
  constructor
  · exact fun hp => queued_of hstep (turnover_of hbatch (hn.queued hp))
  · intro hp
    rw [queued_of hstep (turnover_of hbatch ((hn.silent hp).trans (List.append_nil _).symm))]
    exact List.not_mem_nil

theorem NotifyStep.once (hset : s.conn.writeComplete = true) (hstep : step s a = .ok s')
    (h : NotifyStep s a s') : NotifiedOnce s a s' := by
  cases h with
  | other hsends hset' hbuffer hqueue =>
    obtain ⟨l, hturn, hl⟩ := hqueue
    have hnot : ¬ (s.WritesWhole a ∨ s.Pending ∧ ¬ s'.Pending) := by
      rintro (hwhole | ⟨hp, hp'⟩)
      · exact not_writesWhole hsends hwhole
      · rw [Pending, hbuffer] at hp'
        exact hp' hp
    refine ⟨hset'.trans hset, fun h => absurd h hnot, fun _ => ?_, fun h => absurd (.inl h) hnot⟩
    rw [queued_of hstep hturn]
    exact hl
  | send message nwrite hsends hsent hbatch =>
    obtain ⟨hn, hempty, hkeep⟩ := sendInLoop_notified hset hsent
    have hwhole : s.WritesWhole a ↔ s.conn.Idle ∧ nwrite = message.length := by
      rw [WritesWhole, hsends]
      simp
    have hiff : s.WritesWhole a ∨ s.Pending ∧ ¬ s'.Pending ↔
        s.conn.Idle ∧ nwrite = message.length := by
      rw [hwhole]
      exact or_iff_left fun hp => hp.2 (hkeep hp.1)
    obtain ⟨honce, hsilent⟩ := queued_notified hstep hbatch hn
    exact ⟨hn.set.trans hset, fun h => honce (hiff.mp h), fun h => hsilent (mt hiff.mpr h),
      fun h hp => hp (hempty (hwhole.mp h))⟩
  | drain nwrite hsends hdrained hbatch =>
    have hn := handleWrite_notified hset hdrained
    have hwhole := not_writesWhole hsends
    have hiff : s.WritesWhole a ∨ s.Pending ∧ ¬ s'.Pending ↔
        s.conn.outputBuffer ≠ [] ∧ s'.conn.outputBuffer = [] := by
      rw [or_iff_right hwhole, Pending, Pending, not_not]
    obtain ⟨honce, hsilent⟩ := queued_notified hstep hbatch hn
    exact ⟨hn.set.trans hset, fun h => honce (hiff.mp h), fun h => hsilent (mt hiff.mpr h),
      fun h => absurd h hwhole⟩

/-! ## Runs -/

section Runs

variable {owner : Owner} {w : Bool} {as : List (Action T)}

theorem notify_init (hstep : step (init owner w) a = .ok s') : NotifyStep (init owner w) a s' := by
  have hsends : sends (init owner w) a = none := by cases a <;> rfl
  have hpopped : popped (init owner w) a = [] := by cases a <;> rfl
  have hturn : ∀ t : ConnectionSystem T, (init owner w).batch = t.batch →
      t.conn.loop = (init owner w : ConnectionSystem T).conn.loop →
      Turnover (init owner w) t (popped (init owner w) a) [] := by
    rw [hpopped]
    exact fun _ => turnover_same
  rcases first_step hstep with rfl | rfl
  · exact .other hsends rfl rfl ⟨[], hturn _ rfl rfl, List.not_mem_nil⟩
  · exact .other hsends rfl rfl ⟨[], hturn _ rfl rfl, List.not_mem_nil⟩

/-- What a run with the callback set keeps. -/
def Notifying (owner : Owner) (s : ConnectionSystem T) : Prop :=
  s = init owner true ∨ s.Live ∧ s.conn.writeComplete = true

theorem Notifying.once (h : Notifying owner s) (hstep : step s a = .ok s') :
    NotifiedOnce s a s' := by
  rcases h with rfl | ⟨hlive, hset⟩
  · exact (notify_init hstep).once rfl hstep
  · exact (notify_step hlive hstep).once hset hstep

theorem notifying_step (h : Notifying owner s) (hstep : step s a = .ok s') :
    Notifying owner s' := by
  refine established_step (C := fun _ _ => True) (I := fun s => s.conn.writeComplete = true) rfl
    (fun s a t hlive hset _ hs => ?_) s a s' h trivial hstep
  exact ((notify_step hlive hs).once hset hs).set

theorem notifying_run (hrun : run step (init owner true) as = .ok s) : Notifying owner s :=
  run_preserves (fun _ _ _ h hs => notifying_step h hs) (.inl rfl) hrun

/-- With nothing queued, everything sent so far has been accepted. -/
theorem accepted_of_drained (hrun : run step (init owner w) as = .ok s) (hopen : ¬ s.Closed)
    (hempty : s.conn.outputBuffer = []) :
    s.conn.record.accepted = (s.executed.map Prod.snd).flatten := by
  rcases run_established (C := fun _ _ => True) (established_streaming owner w)
    (fun s a t hlive hi _ hs => streaming_step hlive hi hs) along_true hrun with rfl | ⟨-, hstr⟩
  · rfl
  · have hstream := hstr.stream hopen
    rwa [hempty, List.append_nil] at hstream

/-- The steps `bs` from `u` to `v` are a period in which output was queued and then drained. -/
abbrev DrainedPeriod (u : ConnectionSystem T) (bs : List (Action T)) (v : ConnectionSystem T) :
    Prop := Period step Pending u bs v

/-- The run from `s` notifies when it should, and at no other time. -/
structure NotifiesExactly (s : ConnectionSystem T) (as : List (Action T)) : Prop where
  /-- Whenever the callback is queued, all that was sent so far has been accepted. -/
  complete : ∀ pre a post u v, as = pre ++ a :: post → run step s pre = .ok u →
    step u a = .ok v → .writeCompleteCallback ∈ u.queued a → ¬ v.Closed →
    v.conn.record.accepted = (v.executed.map Prod.snd).flatten
  whole : ∀ pre a post u v, as = pre ++ a :: post → run step s pre = .ok u →
    step u a = .ok v → u.WritesWhole a → (u.queued a).count .writeCompleteCallback = 1
  period : ∀ pre bs post u v, as = pre ++ bs ++ post → run step s pre = .ok u →
    DrainedPeriod u bs v → (emitted step queued u bs).count .writeCompleteCallback = 1
  only : ∀ pre a post u v, as = pre ++ a :: post → run step s pre = .ok u →
    step u a = .ok v → .writeCompleteCallback ∈ u.queued a →
    u.WritesWhole a ∨ ∃ before bs w, pre ++ [a] = before ++ bs ∧
      run step s before = .ok w ∧ DrainedPeriod w bs v

/-- With the callback set, every run of a connection notifies exactly. -/
theorem write_complete_exact (owner : Owner) (as : List (Action T)) :
    NotifiesExactly (init owner true) as := by
  refine ⟨?_, ?_, ?_, ?_⟩
  · intro pre a post u v _ hpre hstep hmem hopen
    have hlaw := (notifying_run hpre).once hstep
    apply accepted_of_drained (run_append_ok.mpr ⟨u, hpre, run_singleton.trans hstep⟩) hopen
    by_contra hp
    refine hlaw.silent ?_ hmem
    rintro (hwhole | ⟨-, hnp⟩)
    · exact hlaw.written hwhole hp
    · exact hnp hp
  · intro pre a post u v _ hpre hstep hwhole
    rw [((notifying_run hpre).once hstep).once (.inl hwhole)]
    exact List.count_singleton_self
  · intro pre bs post u v _ hpre hperiod
    refine count_emitted_period (I := Notifying owner) (fun _ _ _ h hs => notifying_step h hs)
      (fun s a t h hs hp => ?_) (fun s a t h hs hp hnp => ?_) (notifying_run hpre) hperiod
    · refine (h.once hs).silent ?_
      rintro (hwhole | ⟨-, hnp⟩)
      · exact (h.once hs).written hwhole hp
      · exact hnp hp
    · rw [(h.once hs).once (.inr ⟨hp, hnp⟩)]
      exact List.count_singleton_self
  · intro pre a post u v _ hpre hstep hmem
    have hlaw := (notifying_run hpre).once hstep
    by_contra hnot
    refine hlaw.silent ?_ hmem
    rintro (hwhole | ⟨hp, hnp⟩)
    · exact hnot (.inl hwhole)
    · exact hnot (.inr (exists_period hpre (fun h => h rfl) hp hstep hnp))

/-- A message written whole, and two that share one period of queued output. -/
example : emitted step queued (init .client true : ConnectionSystem Bool)
    [.connectionEstablished, .connectionCallback, .send (.string [1, 2]) 2,
      .send (.string [3, 4]) 1, .send (.pointer [5]) 1, .poll POLLOUT .data, .handleEvent 1,
      .doPendingFunctor, .runFunctor 0, .endPass, .poll POLLOUT .data, .handleEvent 1] =
    [.writeCompleteCallback, .writeCompleteCallback] := by decide +kernel

end Runs

end ConnectionSystem

end Summer.Net
