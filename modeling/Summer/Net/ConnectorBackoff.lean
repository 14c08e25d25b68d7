import Mathlib.Algebra.Group.Nat.Defs
import Summer.Net.ConnectorSockets

/-!
# The retries of a connector

After a `start()` or a `restart()` at rest there is one attempt at a time: in flight, waiting for
its retry timer, given up, or successful. The delays double from the first retry on, up to a bound.
Only a `restart()` begins them anew; a `start()` goes on with the delay that is left over.
-/
namespace Summer.Net.Connector

open Summer.Lib

/-- The delay of a retry, by the first delay and the number of retries since then. -/
def backoff (first k : Nat) : Nat := min (first * 2 ^ k) kMaxRetryDelayMs

theorem backoff_zero {first : Nat} (h : first ≤ kMaxRetryDelayMs) : first = backoff first 0 := by
  rw [backoff, pow_zero, Nat.mul_one, Nat.min_eq_left h]

theorem backoff_succ (first k : Nat) :
    min (backoff first k * 2) kMaxRetryDelayMs = backoff first (k + 1) := by
  have hpow : first * 2 ^ (k + 1) = first * 2 ^ k * 2 := by rw [pow_succ, Nat.mul_assoc]
  rw [backoff, backoff, hpow]
  generalize first * 2 ^ k = d
  omega

/-- The `k`-th retry since `base` sockets had been made: where its attempt is, and the one timer
there may be. -/
inductive Attempt (first base k : Nat) (c : Connector) : Prop
  | inFlight (trying : c.Trying (base + k)) (state : c.state = .kConnecting)
      (timers : c.timers = []) (delay : c.retryDelayMs = backoff first k)
  | waiting (resting : c.Resting) (state : c.state = .kDisConnected)
      (failed : base + k ∈ c.closed) (timers : c.timers = [backoff first k])
      (delay : c.retryDelayMs = backoff first (k + 1))
  | givenUp (resting : c.Resting) (state : c.state = .kDisConnected)
      (failed : base + k ∈ c.closed) (timers : c.timers = [])
  | successful (resting : c.Resting) (state : c.state = .kConnected)
      (handed : base + k ∈ c.handed) (timers : c.timers = [])

/-- The attempt that a start or a restart began, or a retry of it. -/
structure Retrying (first base : Nat) (c : Connector) : Prop where
  begun : base < c.sockets
  attempt : Attempt first base (c.sockets - base - 1) c

variable {c c' : Connector} {a : Action} {as : List Action} {e first base k : Nat}

/-- `startInLoop` with no timer left makes the next attempt. -/
theorem attempt_started (hrest : c.Resting) (hsockets : c.sockets = base + k)
    (htimers : c.timers = []) (hdelay : c.retryDelayMs = backoff first k)
    (hs : c.startInLoop e = .ok c') : Retrying first base c' := by
  obtain ⟨hstate, hstarted⟩ := startInLoop_ok hs
  have hk : base + k + 1 - base - 1 = k := by omega
  cases hstarted with
  | connecting hp hnone =>
    have htrying := hrest.begun hnone
    rw [hsockets] at htrying
    refine ⟨?_, ?_⟩
    · show base < c.sockets + 1
      omega
    · show Attempt first base (c.sockets + 1 - base - 1) c.begun
      rw [hsockets, hk]
      exact .inFlight htrying rfl htimers hdelay
  | retry hp hr =>
    have hrest' : (({ c with sockets := c.sockets + 1 } : Connector).retry c.sockets).Resting :=
      ⟨hrest.ledger.obtain_close, hrest.poller, by simp [retry], hrest.reset⟩
    refine ⟨?_, ?_⟩
    · show base < c.sockets + 1
      omega
    · show Attempt first base (c.sockets + 1 - base - 1) _
      rw [hsockets, hk]
      refine .waiting (hsockets ▸ hrest') rfl (List.mem_append_right _ List.mem_cons_self) ?_ ?_
      · show c.timers ++ [c.retryDelayMs] = _
        rw [htimers, hdelay, List.nil_append]
      · show min (c.retryDelayMs * 2) kMaxRetryDelayMs = _
        rw [hdelay, backoff_succ]
  | close hp hr =>
    have hrest' : (({ c with sockets := c.sockets + 1 } : Connector).close c.sockets).Resting :=
      ⟨hrest.ledger.obtain_close, hrest.poller, hrest.state, hrest.reset⟩
    refine ⟨?_, ?_⟩
    · show base < c.sockets + 1
      omega
    · show Attempt first base (c.sockets + 1 - base - 1) _
      rw [hsockets, hk]
      exact .givenUp (hsockets ▸ hrest') hstate (List.mem_append_right _ List.mem_cons_self) htimers

/-- A step that is no start and no restart. -/
def Action.isStart : Action → Bool
  | .start _ | .restart _ => true
  | _ => false

theorem Retrying.step (h : Retrying first base c) (ha : a.isStart = false)
    (hs : Connector.step c a = .ok c') : Retrying first base c' := by
  obtain ⟨hbegun, hattempt⟩ := h
  have hk : base + (c.sockets - base - 1) + 1 = c.sockets := by omega
  cases a with
  | start e | restart e => cases ha
  | timer i e =>
    obtain ⟨_, hen, hs⟩ := bind_eq_ok.mp hs
    have hi := ensure_eq_ok.mp hen
    cases hattempt with
    | inFlight _ _ htimers | givenUp _ _ _ htimers | successful _ _ _ htimers =>
      rw [htimers] at hi
      cases hi
    | waiting hrest hstate _ htimers hdelay =>
      have hnone : c.timers.eraseIdx i = [] := by
        rw [htimers] at hi ⊢
        rw [show i = 0 from Nat.lt_one_iff.mp hi]
        rfl
      exact attempt_started (c := { c with timers := c.timers.eraseIdx i }) (k := _ + 1)
        ⟨hrest.ledger, hrest.poller, hrest.state, hrest.reset⟩ hk.symm hnone hdelay hs
  | handleEvent fd revents isSelfConnect =>
    obtain ⟨_, hreg, hs⟩ := bind_eq_ok.mp hs
    have hreg := ensure_eq_ok.mp hreg
    cases hattempt with
    | waiting hrest | givenUp hrest | successful hrest =>
      exact absurd (congrArg EpollPoller.registered (hrest.poller fd)) hreg
    | inFlight htrying hstate htimers hdelay =>
      obtain rfl := htrying.reported hreg
      cases htrying.watches.handleEvent_ok hstate hs with
      | nothing => exact ⟨hbegun, .inFlight htrying hstate htimers hdelay⟩
      | failed =>
        refine ⟨hbegun, .waiting htrying.failed rfl ?_ ?_ ?_⟩
        · exact List.mem_append_right _ List.mem_cons_self
        · show c.timers ++ [c.retryDelayMs] = _
          rw [htimers, hdelay]
          rfl
        · show min (c.retryDelayMs * 2) kMaxRetryDelayMs = _
          rw [hdelay, backoff_succ]
          rfl
      | connected =>
        exact ⟨hbegun, .successful htrying.connected rfl
          (List.mem_append_right _ List.mem_cons_self) htimers⟩
  | resetChannel =>
    obtain ⟨_, hne, hs⟩ := bind_eq_ok.mp hs
    cases hs
    refine ⟨hbegun, ?_⟩
    cases hattempt with
    | inFlight htrying => exact absurd htrying.reset (ensure_eq_ok.mp hne)
    | waiting hrest hstate hfailed htimers hdelay =>
      exact .waiting hrest.resetChannel hstate hfailed htimers hdelay
    | givenUp hrest hstate hfailed htimers =>
      exact .givenUp hrest.resetChannel hstate hfailed htimers
    | successful hrest hstate hhanded htimers =>
      exact .successful hrest.resetChannel hstate hhanded htimers

/-! ## The first delay -/

theorem kInit_le_kMax : kInitRetryDelayMs ≤ kMaxRetryDelayMs := by decide

theorem delay_retry (fd : Nat) : (c.retry fd).retryDelayMs ≤ kMaxRetryDelayMs := Nat.min_le_right ..

theorem Started.delay (h : Started c e c') (hdelay : c.retryDelayMs ≤ kMaxRetryDelayMs) :
    c'.retryDelayMs ≤ kMaxRetryDelayMs := by
  cases h with
  | connecting | close => exact hdelay
  | retry => exact delay_retry _

/-- No step makes the delay longer than the bound. -/
theorem Sound.delay_step (h : c.Sound) (hdelay : c.retryDelayMs ≤ kMaxRetryDelayMs)
    (hs : Connector.step c a = .ok c') : c'.retryDelayMs ≤ kMaxRetryDelayMs := by
  cases a with
  | start e => exact (startInLoop_ok hs).2.delay hdelay
  | restart e => exact (startInLoop_ok hs).2.delay kInit_le_kMax
  | timer i e =>
    obtain ⟨_, -, hs⟩ := bind_eq_ok.mp hs
    exact (startInLoop_ok hs).2.delay hdelay
  | handleEvent fd revents isSelfConnect =>
    obtain ⟨_, hreg, hs⟩ := bind_eq_ok.mp hs
    obtain ⟨htrying, hstate⟩ := h.watched (ensure_eq_ok.mp hreg)
    cases htrying.watches.handleEvent_ok hstate hs with
    | nothing | connected => exact hdelay
    | failed => exact delay_retry _
  | resetChannel =>
    obtain ⟨_, -, hs⟩ := bind_eq_ok.mp hs
    cases hs
    exact hdelay

theorem delay_run (hrun : run step {} as = .ok c) (hcond : Along step NotInFlight {} as) :
    c.Sound ∧ c.retryDelayMs ≤ kMaxRetryDelayMs :=
  run_invariant (I := fun c => c.Sound ∧ c.retryDelayMs ≤ kMaxRetryDelayMs)
    (fun _ _ _ h hc hs => ⟨sound_step h.1 hc hs, h.1.delay_step h.2 hs⟩)
    ⟨.inl init_resting, kInit_le_kMax⟩ hcond hrun

/-- The delay with which the retries of a start begin. -/
def firstDelay (c : Connector) : Action → Nat
  | .restart _ => kInitRetryDelayMs
  | _ => c.retryDelayMs

/-- From any start or restart at rest on there is one attempt at a time, in any order of events:
the newest socket is in flight without a timer, or was closed with the one timer of its retry,
whose delay is that of the number of attempts, or was closed for good, or was handed over. -/
theorem one_attempt_at_a_time {c₀ : Connector} {pre : List Action}
    (hpre : run step {} pre = .ok c₀) (hcond : Along step NotInFlight {} pre)
    (hidle : c₀.state ≠ .kConnecting) (htimers : c₀.timers = []) (ha : a.isStart = true)
    (hquiet : ∀ b ∈ as, b.isStart = false) (hrun : run step c₀ (a :: as) = .ok c) :
    Retrying (c₀.firstDelay a) c₀.sockets c := by
  obtain ⟨c₁, hstart, hrun⟩ := run_cons_ok.mp hrun
  obtain ⟨hsound, hdelay⟩ := delay_run hpre hcond
  have hrest : c₀.Resting := by
    rcases hsound with hrest | ⟨fd, -, hstate⟩
    · exact hrest
    · exact absurd hstate hidle
  have hfirst : Retrying (c₀.firstDelay a) c₀.sockets c₁ := by
    cases a with
    | start e => exact attempt_started (k := 0) hrest rfl htimers (backoff_zero hdelay) hstart
    | restart e =>
      have hrest' : ({ c₀ with state := .kDisConnected, retryDelayMs := kInitRetryDelayMs } :
          Connector).Resting := ⟨hrest.ledger, hrest.poller, by simp, hrest.reset⟩
      exact attempt_started (k := 0) hrest' rfl htimers (backoff_zero kInit_le_kMax) hstart
    | timer | handleEvent | resetChannel => cases ha
  exact run_invariant (C := fun _ b => b.isStart = false)
    (fun _ _ _ h hb hs => h.step hb hs) hfirst (along_of_forall_mem hquiet) hrun

/-- The first attempt is refused, the second fails for good, and the delay is left over for a
second `start()`: refused, refused again, then in flight until an error. -/
theorem one_attempt_at_a_time_sample :
    ∃ c₀ c, run step {} [.start ECONNREFUSED, .timer 0 13] = .ok c₀ ∧
      run step c₀ [.start ECONNREFUSED, .timer 0 ENETUNREACH, .timer 0 EINPROGRESS,
        .handleEvent 4 POLLERR false, .resetChannel] = .ok c ∧
      c.timers = [4000] ∧ Retrying 1000 2 c := by
  have hend : endsIn step (fun c => decide (c.timers = [4000])) {}
      ([.start ECONNREFUSED, .timer 0 13] ++ [.start ECONNREFUSED, .timer 0 ENETUNREACH,
        .timer 0 EINPROGRESS, .handleEvent 4 POLLERR false, .resetChannel]) = true := by
    decide +kernel
  have hpre : endsIn step (fun c => decide (c.state ≠ .kConnecting ∧ c.timers = [] ∧
      c.retryDelayMs = 1000 ∧ c.sockets = 2)) {} [.start ECONNREFUSED, .timer 0 13] = true := by
    decide +kernel
  obtain ⟨c, hrun, hc⟩ := endsIn_iff.mp hend
  obtain ⟨c₀, hrun₀, hrun⟩ := run_append_ok.mp hrun
  obtain ⟨c₀', hrun₀', hc₀⟩ := endsIn_iff.mp hpre
  cases hrun₀.symm.trans hrun₀'
  obtain ⟨hidle, htimers, hdelay, hsockets⟩ := of_decide_eq_true hc₀
  have hone := one_attempt_at_a_time hrun₀ (by decide +kernel) hidle htimers rfl (by decide) hrun
  have hfirst : c₀.firstDelay (.start ECONNREFUSED) = 1000 := hdelay
  rw [hfirst, hsockets] at hone
  exact ⟨c₀, c, hrun₀, hrun, of_decide_eq_true hc, hone⟩

end Summer.Net.Connector
