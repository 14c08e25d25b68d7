import Summer.Basic
import Summer.Lib.Run

/-!
# A thread with an event loop and its owner

The owner starts the thread, waits for `loop_`, and stops the loop in the destructor. Each party
is a program counter over the shared words: a step reads or writes one of `quit_`, `loop_` and
`looping_`. A stop request is kept exactly when it is made after `loop()` has cleared `quit_`.
-/
namespace Summer.Net

open Summer.Lib

/-- What the thread does next in `threadFunc`. -/
inductive ThreadAt where
  | notStarted
  | constructing
  /-- In the thread's initial callback. -/
  | initialising
  | locking
  /-- Holds the mutex and writes `loop_`. -/
  | publishing
  /-- Holds the mutex and lets go of it. -/
  | notifying
  /-- At the assertion on `looping_` in `loop()`. -/
  | entering
  | setLooping
  | clearQuit
  /-- At the test of `while(!quit_)`. -/
  | testing
  /-- In the body of the loop. -/
  | inPass
  | clearLooping
  | clearLoop
  | destroying
  | finished
  deriving DecidableEq

/-- What the owner does next in `startLoop` and in the destructor. -/
inductive OwnerAt where
  | starting
  | locking
  /-- Holds the mutex and reads `loop_`. -/
  | checking
  | waiting
  /-- `startLoop` has returned. -/
  | started
  | testing
  /-- Reads `loop_` for `loop_->quit()`. -/
  | quitting
  | writing
  /-- `quit()` has returned. -/
  | joining
  | joined
  /-- The destructor has found no loop. -/
  | notJoined
  deriving DecidableEq

/-- `loop` is whether `loop_` points to the loop; `quit` and `looping` are the loop's. -/
structure EventLoopThread where
  thread : ThreadAt
  owner : OwnerAt
  loop : Bool
  quit : Bool
  looping : Bool
  deriving DecidableEq

namespace EventLoopThread

inductive Action where
  | thread
  | owner
  /-- `quit()` by the initial callback, a handler or a functor in the thread. -/
  | quit
  deriving DecidableEq

def init : EventLoopThread := ⟨.notStarted, .starting, false, false, false⟩

def threadFunc (s : EventLoopThread) : Except Fault EventLoopThread :=
  match s.thread with
  | .notStarted => .error .notEnabled
  | .constructing => .ok { s with looping := false, quit := false, thread := .initialising }
  | .initialising => .ok { s with thread := .locking }
  | .locking => do
    ensure (s.owner ≠ .checking) .notEnabled
    .ok { s with thread := .publishing }
  | .publishing => .ok { s with loop := true, thread := .notifying }
  | .notifying => .ok { s with thread := .entering }
  | .entering => do
    ensure (s.looping = false) (.assertion .loop)
    .ok { s with thread := .setLooping }
  | .setLooping => .ok { s with looping := true, thread := .clearQuit }
  | .clearQuit => .ok { s with quit := false, thread := .testing }
  | .testing => .ok { s with thread := if s.quit = true then .clearLooping else .inPass }
  | .inPass => .ok { s with thread := .testing }
  | .clearLooping => .ok { s with looping := false, thread := .clearLoop }
  | .clearLoop => .ok { s with loop := false, thread := .destroying }
  | .destroying => do
    ensure (s.looping = false) (.assertion .eventLoop)
    .ok { s with thread := .finished }
  | .finished => .error .notEnabled

/-- `cond_.wait()` may return at any time. -/
def ownerStep (s : EventLoopThread) : Except Fault EventLoopThread :=
  match s.owner with
  | .starting => do
    ensure (s.thread = .notStarted) (.assertion .startLoop)
    .ok { s with thread := .constructing, owner := .locking }
  | .locking => do
    ensure (s.thread ≠ .publishing ∧ s.thread ≠ .notifying) .notEnabled
    .ok { s with owner := .checking }
  | .checking => .ok { s with owner := if s.loop = true then .started else .waiting }
  | .waiting => .ok { s with owner := .locking }
  | .started => .ok { s with owner := .testing }
  | .testing => .ok { s with owner := if s.loop = true then .quitting else .notJoined }
  | .quitting => do
    ensure (s.loop = true) .nullPointer
    .ok { s with owner := .writing }
  | .writing => do
    ensure (s.thread ≠ .finished) .dangling
    .ok { s with quit := true, owner := .joining }
  | .joining => do
    ensure (s.thread = .finished) .notEnabled
    .ok { s with owner := .joined }
  | .joined | .notJoined => .error .notEnabled

def step (s : EventLoopThread) : Action → Except Fault EventLoopThread
  | .thread => s.threadFunc
  | .owner => s.ownerStep
  | .quit => do
    ensure (s.thread = .initialising ∨ s.thread = .inPass) .notEnabled
    .ok { s with quit := true }

/-- The thread is in the `while` loop or on its way to it. -/
def InLoop (s : EventLoopThread) : Prop :=
  match s.thread with
  | .notifying | .entering | .setLooping | .clearQuit | .testing | .inPass => True
  | _ => False

/-- No loop that was told to quit goes on. -/
def StopKept (s : EventLoopThread) : Prop :=
  s.owner = .joining ∨ s.owner = .joined → s.InLoop → s.quit = true

/-- `loop()` has cleared `quit_`. -/
def Cleared (s : EventLoopThread) : Prop :=
  match s.thread with
  | .testing | .inPass | .clearLooping | .clearLoop | .destroying | .finished => True
  | _ => False

/-- The destructor sets `quit_` after `loop()` has cleared it. -/
def QuitSeen (s : EventLoopThread) : Action → Prop
  | .owner => s.owner = .writing → s.Cleared
  | _ => True

instance (s : EventLoopThread) : Decidable s.Cleared := by
  unfold Cleared
  cases s.thread <;> infer_instance

instance (s : EventLoopThread) (a : Action) : Decidable (QuitSeen s a) := by
  cases a <;> unfold QuitSeen <;> infer_instance

variable {s s' : EventLoopThread} {a : Action} {as : List Action}

/-! ## The order of the two parties -/

/-- `loop()` has been called. -/
def Called (s : EventLoopThread) : Prop :=
  s.Cleared ∨ s.thread = .entering ∨ s.thread = .setLooping ∨ s.thread = .clearQuit

/-- What holds in every state: the owner gets past its wait only when the thread is on its way
into `loop()`. -/
structure Ordered (s : EventLoopThread) : Prop where
  looping : s.looping = true → s.thread = .clearQuit ∨ s.thread = .testing ∨
    s.thread = .inPass ∨ s.thread = .clearLooping
  loop : s.loop = true → s.thread = .notifying ∨ s.Called
  checking : s.owner = .checking → s.thread ≠ .publishing ∧ s.thread ≠ .notifying
  waited : s.owner = .starting ∨ s.owner = .locking ∨ s.owner = .checking ∨
    s.owner = .waiting ∨ s.Called

theorem init_ordered : init.Ordered := by
  constructor <;> simp [init]

/-- The assertions on `looping_` hold. -/
theorem Ordered.not_looping (h : s.Ordered) (hat : s.thread = .entering ∨ s.thread = .destroying) :
    s.looping = false := by
  rcases Bool.eq_false_or_eq_true s.looping with hl | hl
  · have hin := h.looping hl
    rcases hat with hat | hat <;> simp [hat] at hin
  · exact hl

theorem ordered_threadFunc (h : s.Ordered) (hs : s.threadFunc = .ok s') : s'.Ordered := by
  obtain ⟨thread, owner, loop, quit, looping⟩ := s
  obtain ⟨hlooping, hloop, hchecking, hwaited⟩ := h
  cases thread with
  | notStarted | finished => cases hs
  | locking =>
    obtain ⟨_, hen, hs⟩ := bind_eq_ok.mp hs
    cases hs
    constructor <;> simp_all [Called, Cleared]
  | entering =>
    obtain ⟨_, hen, hs⟩ := bind_eq_ok.mp hs
    cases hs
    constructor <;> simp_all [Called, Cleared]
  | destroying =>
    obtain ⟨_, hen, hs⟩ := bind_eq_ok.mp hs
    cases hs
    constructor <;> simp_all [Called, Cleared]
  | testing =>
    cases hs
    cases quit <;> constructor <;> simp_all [Called, Cleared]
  | _ =>
    cases hs
    constructor <;> simp_all [Called, Cleared]

theorem ordered_ownerStep (h : s.Ordered) (hs : s.ownerStep = .ok s') : s'.Ordered := by
  obtain ⟨thread, owner, loop, quit, looping⟩ := s
  obtain ⟨hlooping, hloop, hchecking, hwaited⟩ := h
  cases owner with
  | joined | notJoined => cases hs
  | checking =>
    cases hs
    -- the mutex keeps the thread from being between its write and its `notify`
    cases loop <;> constructor <;> simp_all [Called, Cleared]
  | testing =>
    cases hs
    cases loop <;> constructor <;> simp_all [Called, Cleared]
  | waiting | started =>
    cases hs
    constructor <;> simp_all [Called, Cleared]
  | starting | locking | quitting | writing | joining =>
    obtain ⟨_, hen, hs⟩ := bind_eq_ok.mp hs
    cases hs
    constructor <;> simp_all [Called, Cleared]

theorem ordered_step (h : s.Ordered) (hs : step s a = .ok s') : s'.Ordered := by
  cases a with
  | thread => exact ordered_threadFunc h hs
  | owner => exact ordered_ownerStep h hs
  | quit =>
    obtain ⟨_, -, hs⟩ := bind_eq_ok.mp hs
    cases hs
    exact ⟨h.looping, h.loop, h.checking, h.waited⟩

theorem ordered_run (hrun : run step init as = .ok s) : s.Ordered :=
  run_preserves (fun _ _ _ h hs => ordered_step h hs) init_ordered hrun

/-! ## A request made in time -/

/-- Once `quit()` has returned, the loop finds its flag set. -/
def Stopping (s : EventLoopThread) : Prop :=
  s.owner = .joining ∨ s.owner = .joined →
    s.Cleared ∧ (s.thread = .testing ∨ s.thread = .inPass → s.quit = true)

theorem Stopping.stopKept (h : s.Stopping) : s.StopKept := by
  intro howner hin
  obtain ⟨hcleared, hquit⟩ := h howner
  rw [InLoop] at hin
  rw [Cleared] at hcleared
  split at hin
  all_goals simp_all

theorem stopping_step (h : s.Stopping) (hc : QuitSeen s a) (hs : step s a = .ok s') :
    s'.Stopping := by
  obtain ⟨thread, owner, loop, quit, looping⟩ := s
  cases a with
  | thread =>
    intro howner
    cases thread with
    | notStarted | finished => cases hs
    | locking | entering | destroying =>
      obtain ⟨_, hen, hs⟩ := bind_eq_ok.mp hs
      cases hs
      simp_all [Stopping, Cleared]
    | testing =>
      cases hs
      cases quit <;> simp_all [Stopping, Cleared]
    | _ =>
      cases hs
      simp_all [Stopping, Cleared]
  | owner =>
    cases owner with
    | joined | notJoined => cases hs
    | writing =>
      obtain ⟨_, hen, hs⟩ := bind_eq_ok.mp hs
      cases hs
      exact fun _ => ⟨hc rfl, fun _ => rfl⟩
    | joining =>
      obtain ⟨_, hen, hs⟩ := bind_eq_ok.mp hs
      cases hs
      exact fun _ => h (.inl rfl)
    | starting | locking | quitting =>
      obtain ⟨_, hen, hs⟩ := bind_eq_ok.mp hs
      cases hs
      intro howner
      simp at howner
    | checking | testing =>
      cases hs
      cases loop <;> simp [Stopping]
    | waiting | started =>
      cases hs
      simp [Stopping]
  | quit =>
    obtain ⟨_, -, hs⟩ := bind_eq_ok.mp hs
    cases hs
    exact fun howner => ⟨(h howner).1, fun _ => rfl⟩

theorem stopping_run (hrun : run step init as = .ok s) (hcond : Along step QuitSeen init as) :
    s.Stopping :=
  run_invariant (fun _ _ _ h hc hs => stopping_step h hc hs) (by simp [Stopping, init]) hcond hrun

/-- How many steps the thread still has to take when its loop finds `quit_` set. -/
def remaining (s : EventLoopThread) : Nat :=
  match s.thread with
  | .inPass => 5
  | .testing => 4
  | .clearLooping => 3
  | .clearLoop => 2
  | .destroying => 1
  | _ => 0

/-- The owner waits for the thread, or has waited. -/
def Joins (s : EventLoopThread) : Prop := s.owner = .joining ∨ s.owner = .joined

theorem joins_step (h : s.Stopping) (hj : s.Joins) (hs : step s a = .ok s') :
    s'.Stopping ∧ s'.Joins ∧ s'.remaining + [a].count .thread = s.remaining := by
  have howner : s.owner ≠ .writing := by
    rcases hj with hj | hj <;> simp [hj]
  have hc : QuitSeen s a := by
    cases a with
    | owner => exact fun he => absurd he howner
    | thread | quit => trivial
  refine ⟨stopping_step h hc hs, ?_⟩
  obtain ⟨hcleared, hquit⟩ := h hj
  obtain ⟨thread, owner, loop, quit, looping⟩ := s
  cases a with
  | thread =>
    cases thread with
    | testing =>
      cases hs
      obtain rfl := hquit (.inl rfl)
      exact ⟨hj, rfl⟩
    | destroying =>
      obtain ⟨_, hen, hs⟩ := bind_eq_ok.mp hs
      cases hs
      exact ⟨hj, rfl⟩
    | inPass | clearLooping | clearLoop =>
      cases hs
      exact ⟨hj, rfl⟩
    | finished => cases hs
    | _ => cases hcleared
  | owner =>
    cases owner with
    | joining =>
      obtain ⟨_, hen, hs⟩ := bind_eq_ok.mp hs
      cases hs
      exact ⟨.inr rfl, rfl⟩
    | joined => cases hs
    | _ => simp [Joins] at hj
  | quit =>
    obtain ⟨_, -, hs⟩ := bind_eq_ok.mp hs
    cases hs
    exact ⟨hj, rfl⟩

theorem joins_run (h : s.Stopping) (hj : s.Joins) (hrun : run step s as = .ok s') :
    s'.Stopping ∧ s'.Joins ∧ s'.remaining + as.count .thread = s.remaining := by
  refine run_history (J := fun as t =>
    t.Stopping ∧ t.Joins ∧ t.remaining + as.count .thread = s.remaining) ⟨h, hj, rfl⟩ ?_ hrun
  intro as t a u _ ih hs
  obtain ⟨hstop, hjoins, hrest⟩ := ih
  obtain ⟨hstop, hjoins, hstep⟩ := joins_step hstop hjoins hs
  refine ⟨hstop, hjoins, ?_⟩
  rw [List.count_append]
  omega

/-- The thread finishes in at most five steps of its own, and nothing keeps it from them. -/
theorem Stopping.join_returns (h : s.Stopping) (ho : s.Ordered) (hj : s.Joins)
    (hrun : run step s as = .ok s') :
    as.count .thread ≤ 5 ∧ (s'.thread = .finished ∨ ∃ t, step s' .thread = .ok t) := by
  obtain ⟨hstop, hjoins, hrest⟩ := joins_run h hj hrun
  constructor
  · have hle : s.remaining ≤ 5 := by
      rw [remaining]
      split <;> decide
    omega
  · have hordered : s'.Ordered := run_preserves (fun _ _ _ h hs => ordered_step h hs) ho hrun
    obtain ⟨hcleared, -⟩ := hstop hjoins
    obtain ⟨thread, owner, loop, quit, looping⟩ := s'
    cases thread with
    | finished => exact .inl rfl
    | destroying =>
      obtain rfl : looping = false := hordered.not_looping (.inr rfl)
      exact .inr ⟨_, rfl⟩
    | testing | inPass | clearLooping | clearLoop => exact .inr ⟨_, rfl⟩
    | _ => cases hcleared

/-! ## A request made too early -/

/-- A loop that has cleared the request of the owner that waits for it. -/
def Lost (s : EventLoopThread) : Prop :=
  (s.thread = .testing ∨ s.thread = .inPass) ∧ s.owner = .joining ∧ s.quit = false

theorem Lost.not_stopKept (h : s.Lost) : ¬ s.StopKept := by
  obtain ⟨hat, howner, hquit⟩ := h
  intro hkept
  have htrue : s.quit = true := by
    refine hkept (.inl howner) ?_
    rw [InLoop]
    rcases hat with hat | hat <;> rw [hat] <;> trivial
  rw [hquit] at htrue
  cases htrue

theorem lost_step (h : s.Lost) (hne : a ≠ .quit) (hs : step s a = .ok s') : s'.Lost := by
  obtain ⟨thread, owner, loop, quit, looping⟩ := s
  obtain ⟨hat, howner, hquit⟩ := h
  cases howner
  cases hquit
  cases a with
  | thread =>
    rcases hat with hat | hat
    · cases hat
      cases hs
      exact ⟨.inr rfl, rfl, rfl⟩
    · cases hat
      cases hs
      exact ⟨.inl rfl, rfl, rfl⟩
  | owner =>
    obtain ⟨_, hen, hs⟩ := bind_eq_ok.mp hs
    have hfinished : thread = .finished := ensure_eq_ok.mp hen
    rcases hat with hat | hat <;> rw [hfinished] at hat <;> cases hat
  | quit => exact absurd rfl hne

/-- After an early `quit()` the steps of the thread alone lose it. -/
theorem early_lost (ho : s.Ordered) (hc : ¬ QuitSeen s a) (hs : step s a = .ok s') :
    ∃ bs t, run step s' bs = .ok t ∧ t.Lost := by
  obtain ⟨thread, owner, loop, quit, looping⟩ := s
  cases a with
  | thread | quit => exact absurd trivial hc
  | owner =>
    obtain ⟨howner, hcleared⟩ := Classical.not_imp.mp hc
    cases howner
    obtain ⟨_, hen, hs⟩ := bind_eq_ok.mp hs
    cases hs
    have hcalled : thread = .entering ∨ thread = .setLooping ∨ thread = .clearQuit := by
      rcases ho.waited with he | he | he | he | he | he
      · cases he
      · cases he
      · cases he
      · cases he
      · exact absurd he hcleared
      · exact he
    rcases hcalled with rfl | rfl | rfl
    · obtain rfl : looping = false := ho.not_looping (.inl rfl)
      exact ⟨[.thread, .thread, .thread], _, rfl, .inl rfl, rfl, rfl⟩
    · exact ⟨[.thread, .thread], _, rfl, .inl rfl, rfl, rfl⟩
    · exact ⟨[.thread], _, rfl, .inl rfl, rfl, rfl⟩

/-- A stop request made after `loop()` has cleared `quit_` is kept, and then the destructor's
`join` returns; one made before is lost in some continuation, and then the loop goes on until
someone else calls `quit()`. -/
theorem stop_request_kept (hrun : run step init as = .ok s) :
    (Along step QuitSeen init as → s.StopKept ∧
      (s.Joins → ∀ bs t, run step s bs = .ok t →
        bs.count .thread ≤ 5 ∧ (t.thread = .finished ∨ ∃ u, step t .thread = .ok u))) ∧
    ∀ a t, step s a = .ok t → ¬ QuitSeen s a → ∃ bs u, run step t bs = .ok u ∧
      ∀ cs v, .quit ∉ cs → run step u cs = .ok v → ¬ v.StopKept := by
  have hordered := ordered_run hrun
  constructor
  · intro hcond
    have hstop := stopping_run hrun hcond
    exact ⟨hstop.stopKept, fun hj bs t hbs => hstop.join_returns hordered hj hbs⟩
  · intro a t hs hc
    obtain ⟨bs, u, hbs, hlost⟩ := early_lost hordered hc hs
    refine ⟨bs, u, hbs, fun cs v hcs hv => Lost.not_stopKept ?_⟩
    refine run_invariant (C := fun _ a => a ≠ .quit) (fun _ _ _ h hne hs => lost_step h hne hs)
      hlost (along_of_forall_mem fun b hb => ?_) hv
    intro he
    exact hcs (he ▸ hb)

/-- The loop is stopped in its first pass. -/
theorem stop_request_kept_sample :
    ∃ s, run step init
        [.owner, .thread, .thread, .thread, .thread, .thread, .owner, .owner, .owner, .owner,
          .owner, .thread, .thread, .thread, .thread, .owner] = .ok s ∧ s.owner = .joining ∧
      s.thread = .inPass ∧ s.StopKept := by
  have hrun : run step init
      [.owner, .thread, .thread, .thread, .thread, .thread, .owner, .owner, .owner, .owner,
        .owner, .thread, .thread, .thread, .thread, .owner] =
      .ok ⟨.inPass, .joining, true, true, true⟩ := rfl
  exact ⟨_, hrun, rfl, rfl, ((stop_request_kept hrun).1 (by decide)).1⟩

/-- The owner stops the loop before the thread has entered it. -/
theorem early_stop_lost :
    ∃ s, run step init
        [.owner, .thread, .thread, .thread, .thread, .thread, .owner, .owner, .owner, .owner,
          .owner, .owner, .thread, .thread, .thread] = .ok s ∧ s.owner = .joining ∧
      s.thread = .testing ∧ s.quit = false ∧ ¬ s.StopKept := by
  have hrun : run step init
      [.owner, .thread, .thread, .thread, .thread, .thread, .owner, .owner, .owner, .owner,
        .owner, .owner, .thread, .thread, .thread] =
      .ok ⟨.testing, .joining, true, false, true⟩ := rfl
  exact ⟨_, hrun, rfl, rfl, rfl, Lost.not_stopKept ⟨.inl rfl, rfl, rfl⟩⟩

end EventLoopThread

end Summer.Net
