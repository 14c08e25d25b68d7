import Summer.Basic
import Summer.Lib.Run
import Summer.Lib.RoundRobin

/-!
# The threads of a server

A pool starts a number of threads and hands out their loops in turn, or the loop of its owner if
there are none. Its assertion compares the position of the next loop with the number of threads
that was set last, while the positions go as far as there are started loops.
-/
namespace Summer.Net

open Summer.Lib

/-- An `EventLoop*`: the loop of the owner of the pool, or that of a thread it has started. -/
inductive EventLoopPtr where
  | baseLoop
  | ofThread (thread : Nat)
  deriving DecidableEq, Repr

/-- The threads are numbered in the order they are created in. -/
structure EventLoopThreadPool where
  started : Bool := false
  numThreads : Int := 0
  next : Int := 0
  threads : List Nat := []
  loops : List EventLoopPtr := []
  deriving DecidableEq

namespace EventLoopThreadPool

def init : EventLoopThreadPool := {}

def setThreadNum (p : EventLoopThreadPool) (numThreads : Int) : EventLoopThreadPool :=
  { p with numThreads := numThreads }

/-- A new thread, whose `startLoop` returns its loop. -/
def startThread (p : EventLoopThreadPool) : EventLoopThreadPool :=
  { p with
    threads := p.threads ++ [p.threads.length]
    loops := p.loops ++ [.ofThread p.threads.length] }

/-- The loop of `start`, with the number of threads it has still to start. -/
def startThreads : Nat → EventLoopThreadPool → EventLoopThreadPool
  | 0, p => p
  | n + 1, p => startThreads n p.startThread

def start (p : EventLoopThreadPool) : Except Fault EventLoopThreadPool := do
  ensure (p.started = false) (.assertion .start)
  .ok (startThreads p.numThreads.toNat { p with started := true })

def getNextLoop (p : EventLoopThreadPool) : Except Fault (EventLoopPtr × EventLoopThreadPool) := do
  ensure (0 ≤ p.next ∧ p.next ≤ p.numThreads) (.assertion .getNextLoop)
  if p.loops = [] then .ok (.baseLoop, p)
  else
    match p.loops[p.next.toNat]? with
    | none => .error .outOfRange
    | some loop =>
      let next := p.next + 1
      .ok (loop, { p with next := if p.loops.length ≤ next then 0 else next })

inductive Action where
  /-- `TcpServer::setThreadNum`. -/
  | setThreadNum (numThreads : Int)
  | start
  | getNextLoop
  deriving DecidableEq

def step (p : EventLoopThreadPool) : Action → Except Fault EventLoopThreadPool
  | .setThreadNum numThreads => do
    ensure (0 ≤ numThreads) (.assertion .setThreadNum)
    .ok (p.setThreadNum numThreads)
  | .start => p.start
  | .getNextLoop => do
    let (_, p) ← p.getNextLoop
    .ok p

/-- The loop that a call returns. -/
def returned (p : EventLoopThreadPool) : Action → List EventLoopPtr
  | .getNextLoop =>
    match p.getNextLoop with
    | .ok (loop, _) => [loop]
    | .error _ => []
  | _ => []

/-! ## What the calls say -/

def Action.threadNum (numThreads : Int) : Action → Int
  | .setThreadNum numThreads => numThreads
  | _ => numThreads

/-- The number that was set last. -/
def threadNum (as : List Action) : Int := as.foldl Action.threadNum 0

def calls (as : List Action) : Nat := as.count .getNextLoop

/-- The loops that a pool with `n` threads has to choose from. -/
def choices (n : Nat) : List EventLoopPtr :=
  if n = 0 then [.baseLoop] else (List.range n).map .ofThread

/-- After `k` calls each loop was returned as often as any other, up to one call. -/
structure Fair (n k : Nat) (loops : List EventLoopPtr) : Prop where
  length : loops.length = k
  base : n = 0 → ∀ loop ∈ loops, loop = .baseLoop
  started : 0 < n → ∀ loop ∈ loops, ∃ i < n, loop = .ofThread i
  balanced : ∀ i < n, loops.count (.ofThread i) = k / n ∨
    loops.count (.ofThread i) = (k + n - 1) / n

/-- Between `pre` and `post` the pool is started: no assertion fails and no index is outside, and
all the time the calls since then are answered fairly. -/
structure ChosenFairly (pre post : List Action) : Prop where
  runs : ∃ p, run step init (pre ++ .start :: post) = .ok p
  fair : ∀ p, run step init pre = .ok p → ∀ as, as <+: post →
    Fair (threadNum pre).toNat (calls as) (emitted step returned p (.start :: as))

/-- Whenever a loop is asked for, the number that was set last is not below the position that the
calls since the start have reached. -/
def InRange (pre post : List Action) : Prop :=
  ∀ i < post.length, post[i]? = some .getNextLoop →
    (calls (post.take i) % (choices (threadNum pre).toNat).length : Nat) ≤
      threadNum (pre ++ post.take i)

instance (pre post : List Action) : Decidable (InRange pre post) :=
  inferInstanceAs (Decidable (∀ i < post.length, _))

variable {pre post as : List Action} {a : Action} {p q : EventLoopThreadPool} {n k : Nat}

theorem threadNum_concat (as : List Action) (a : Action) :
    threadNum (as ++ [a]) = a.threadNum (threadNum as) := by
  rw [threadNum, List.foldl_append]
  rfl

theorem calls_concat (as : List Action) (a : Action) :
    calls (as ++ [a]) = calls as + if a = .getNextLoop then 1 else 0 := by
  rw [calls, List.count_append, List.count_singleton]
  simp [calls]

/-- Numbers that are not negative leave one that is not. -/
theorem threadNum_nonneg (h : ∀ m, .setThreadNum m ∈ as → 0 ≤ m) : 0 ≤ threadNum as := by
  induction as using List.reverseRecOn with
  | nil => decide
  | append_singleton as a ih =>
    have ih := ih fun m hm => h m (List.mem_append_left _ hm)
    rw [threadNum_concat]
    cases a with
    | setThreadNum m => exact h m (by simp)
    | start | getNextLoop => exact ih

theorem choices_ne_nil (n : Nat) : choices n ≠ [] := by
  rw [choices]
  split
  · nofun
  · simpa using ‹¬ n = 0›

theorem InRange.initial (h : InRange pre post) (has : as <+: post) : InRange pre as := by
  obtain ⟨bs, rfl⟩ := has
  intro i hi hget
  have hi' := h i (by simp; omega) (by rwa [List.getElem?_append_left hi])
  rwa [List.take_append_of_le_length (Nat.le_of_lt hi)] at hi'

theorem inRange_concat (pre post : List Action) (a : Action) :
    InRange pre (post ++ [a]) ↔ InRange pre post ∧ (a = .getNextLoop →
      (calls post % (choices (threadNum pre).toNat).length : Nat) ≤ threadNum (pre ++ post)) := by
  constructor
  · intro h
    refine ⟨h.initial (List.prefix_append post [a]), fun ha => ?_⟩
    have hlast := h post.length (by simp) (by simp [ha])
    rwa [List.take_left] at hlast
  · intro h i hi hget
    obtain ⟨hpost, hlast⟩ := h
    rcases Nat.lt_or_ge i post.length with hlt | hge
    · rw [List.take_append_of_le_length (Nat.le_of_lt hlt)]
      exact hpost i hlt (by rwa [List.getElem?_append_left hlt] at hget)
    · have hi : i = post.length := by
        simp at hi
        omega
      subst hi
      rw [List.take_left]
      apply hlast
      simpa using hget

/-! ## What each operation does -/

theorem startThreads_eq (n : Nat) (p : EventLoopThreadPool) : startThreads n p =
    { p with
      threads := p.threads ++ List.range' p.threads.length n
      loops := p.loops ++ (List.range' p.threads.length n).map .ofThread } := by
  induction n generalizing p with
  | zero => simp [startThreads]
  | succ n ih =>
    rw [startThreads, ih]
    simp [startThread, List.range'_succ]

/-- The pool after the calls `pre`, before it is started. -/
def waiting (pre : List Action) : EventLoopThreadPool := { numThreads := threadNum pre }

/-- The pool after it was started between `pre` and `post`. -/
def serving (pre post : List Action) : EventLoopThreadPool where
  started := true
  numThreads := threadNum (pre ++ post)
  next := (calls post % (choices (threadNum pre).toNat).length : Nat)
  threads := List.range (threadNum pre).toNat
  loops := (List.range (threadNum pre).toNat).map .ofThread

theorem waiting_concat (pre : List Action) (a : Action) : waiting (pre ++ [a]) =
    { waiting pre with numThreads := a.threadNum (threadNum pre) } := by
  rw [waiting, threadNum_concat]
  rfl

theorem serving_concat (pre post : List Action) (a : Action) : serving pre (post ++ [a]) =
    { serving pre post with
      numThreads := a.threadNum (threadNum (pre ++ post))
      next := ((calls post + if a = .getNextLoop then 1 else 0) %
        (choices (threadNum pre).toNat).length : Nat) } := by
  rw [serving, ← List.append_assoc, threadNum_concat, calls_concat]
  rfl

theorem step_start (pre : List Action) : step (waiting pre) .start = .ok (serving pre []) := by
  have hnot : (waiting pre).started = false := rfl
  rw [step, start, ensure_of hnot, ok_bind, startThreads_eq]
  simp [waiting, serving, calls, List.range_eq_range']

theorem getNextLoop_error (h : p.numThreads < p.next) :
    p.getNextLoop = .error (.assertion .getNextLoop) := by
  rw [getNextLoop, ensure_of_not (by omega), error_bind]

/-- A position that the assertion accepts is that of a loop, and the next one is the position of
one more call. -/
theorem getNextLoop_ok (hloops : p.loops = (List.range n).map .ofThread)
    (hnext : p.next = (k % (choices n).length : Nat)) (hle : p.next ≤ p.numThreads) :
    ∃ loop, (choices n)[k % (choices n).length]? = some loop ∧
      p.getNextLoop =
        .ok (loop, { p with next := ((k + 1) % (choices n).length : Nat) }) := by
  obtain ⟨loop, hloop⟩ := exists_turn (choices_ne_nil n) k
  refine ⟨loop, hloop, ?_⟩
  rw [getNextLoop, ensure_of ⟨by omega, hle⟩, ok_bind]
  by_cases hn : n = 0
  · subst hn
    have hone : (choices 0).length = 1 := rfl
    rw [hone, Nat.mod_one] at hloop hnext
    cases hloop
    have hnil : p.loops = [] := hloops
    rw [if_pos hnil, hone, Nat.mod_one, ← hnext]
  · have hchoices : choices n = p.loops := by rw [choices, if_neg hn, hloops]
    have hne : p.loops ≠ [] := hchoices ▸ choices_ne_nil n
    rw [hchoices] at hloop hnext ⊢
    have hlookup : p.loops[p.next.toNat]? = some loop := by
      rwa [hnext, Int.toNat_natCast]
    rw [if_neg hne, hlookup, mod_succ (List.length_pos_iff.mpr hne), hnext]
    dsimp only
    split
    · rw [if_pos (by omega)]
      rfl
    · rw [if_neg (by omega)]
      rfl

/-! ## Whole runs -/

/-- Before it is started a pool hands out the loop of its owner and stays at the first position. -/
theorem run_before (hpre : .start ∉ pre) (hnum : ∀ m, .setThreadNum m ∈ pre → 0 ≤ m) :
    run step init pre = .ok (waiting pre) := by
  induction pre using List.reverseRecOn with
  | nil => rfl
  | append_singleton pre a ih =>
    have hnonneg := threadNum_nonneg fun m hm => hnum m (List.mem_append_left _ hm)
    have ih := ih (fun hm => hpre (List.mem_append_left _ hm))
      fun m hm => hnum m (List.mem_append_left _ hm)
    rw [run_append, ih, ok_bind, run_singleton, waiting_concat]
    cases a with
    | setThreadNum m =>
      rw [step, ensure_of (hnum m (by simp)), ok_bind]
      rfl
    | start => simp at hpre
    | getNextLoop =>
      have hsame : (waiting pre).getNextLoop = .ok (.baseLoop, waiting pre) := by
        rw [getNextLoop, ensure_of ⟨Int.le_refl _, hnonneg⟩]
        rfl
      rw [step]
      exact congrArg (· >>= _) hsame

/-- One more operation of a pool that was started. -/
theorem step_serving (ha : a ≠ .start) (hnum : ∀ m, a = .setThreadNum m → 0 ≤ m)
    (h : InRange pre (post ++ [a])) :
    step (serving pre post) a = .ok (serving pre (post ++ [a])) ∧
      turns (choices (threadNum pre).toNat) (calls (post ++ [a])) =
        turns (choices (threadNum pre).toNat) (calls post) ++ returned (serving pre post) a := by
  have hlast := ((inRange_concat pre post a).mp h).2
  rw [serving_concat, calls_concat]
  cases a with
  | setThreadNum m =>
    rw [step, ensure_of (hnum m rfl), ok_bind]
    exact ⟨rfl, (List.append_nil _).symm⟩
  | start => exact absurd rfl ha
  | getNextLoop =>
    obtain ⟨loop, hloop, hget⟩ := getNextLoop_ok (p := serving pre post) rfl rfl (hlast rfl)
    rw [step, hget, if_pos rfl, turns_succ hloop, returned, hget]
    exact ⟨rfl, rfl⟩

/-- As long as the numbers are in range, the loops are returned in turn. -/
theorem run_serving (hpost : .start ∉ post) (hnum : ∀ m, .setThreadNum m ∈ post → 0 ≤ m)
    (h : InRange pre post) :
    run step (serving pre []) post = .ok (serving pre post) ∧
      emitted step returned (serving pre []) post =
        turns (choices (threadNum pre).toNat) (calls post) := by
  induction post using List.reverseRecOn with
  | nil => exact ⟨rfl, rfl⟩
  | append_singleton post a ih =>
    obtain ⟨hrun, hreturned⟩ := ih (fun hm => hpost (List.mem_append_left _ hm))
      (fun m hm => hnum m (List.mem_append_left _ hm)) ((inRange_concat pre post a).mp h).1
    have ha : a ≠ .start := by
      rintro rfl
      simp at hpost
    have hm : ∀ m, a = .setThreadNum m → 0 ≤ m := by
      rintro m rfl
      exact hnum m (by simp)
    obtain ⟨hstep, hturn⟩ := step_serving ha hm h
    rw [run_append, hrun, ok_bind, run_singleton, emitted_append hrun, hreturned, hturn,
      emitted_cons_ok hstep]
    exact ⟨hstep, congrArg _ (List.append_nil _)⟩

/-- The first number that is too small makes the next call fail. -/
theorem run_out_of_range (hpost : .start ∉ post) (hnum : ∀ m, .setThreadNum m ∈ post → 0 ≤ m)
    (h : ¬ InRange pre post) :
    run step (serving pre []) post = .error (.assertion .getNextLoop) := by
  induction post using List.reverseRecOn with
  | nil => exact absurd (fun i hi => absurd hi (Nat.not_lt_zero i)) h
  | append_singleton post a ih =>
    have hpost' : .start ∉ post := fun hm => hpost (List.mem_append_left _ hm)
    have hnum' : ∀ m, .setThreadNum m ∈ post → 0 ≤ m :=
      fun m hm => hnum m (List.mem_append_left _ hm)
    rw [inRange_concat, not_and] at h
    rw [run_append]
    by_cases hin : InRange pre post
    · obtain ⟨rfl, hlast⟩ := Classical.not_imp.mp (h hin)
      have hget : (serving pre post).getNextLoop = .error (.assertion .getNextLoop) :=
        getNextLoop_error (Int.not_le.mp hlast)
      rw [(run_serving hpost' hnum' hin).1, ok_bind, run_singleton, step, hget]
      rfl
    · rw [ih hpost' hnum' hin]
      rfl

/-! ## Fairness -/

theorem fair_turns (n k : Nat) : Fair n k (turns (choices n) k) := by
  refine ⟨length_turns (choices_ne_nil n) k, fun hn loop hloop => ?_, fun hn loop hloop => ?_,
    fun i hi => ?_⟩
  · have hmem := mem_of_mem_turns hloop
    rw [choices, if_pos hn] at hmem
    exact List.mem_singleton.mp hmem
  · have hmem := mem_of_mem_turns hloop
    rw [choices, if_neg (by omega)] at hmem
    obtain ⟨i, hi, rfl⟩ := List.mem_map.mp hmem
    exact ⟨i, List.mem_range.mp hi, rfl⟩
  · have hchoices : choices n = (List.range n).map .ofThread := if_neg (by omega)
    have hnodup : (choices n).Nodup := by
      rw [hchoices]
      apply List.Nodup.map _ List.nodup_range
      exact fun i j he => EventLoopPtr.ofThread.inj he
    have hmem : .ofThread i ∈ choices n := by simp [hchoices, hi]
    have hlen : (choices n).length = n := by simp [hchoices]
    have hbalanced := count_turns_balanced hnodup hmem k
    rwa [hlen] at hbalanced

/-- A pool that is started once, whatever numbers are set before and after: it never fails and its
loops are chosen fairly exactly when the numbers are in range, and else it is the assertion of
`getNextLoop` that fails. -/
theorem loops_chosen_fairly (hpre : .start ∉ pre) (hpost : .start ∉ post)
    (hnum : ∀ m, .setThreadNum m ∈ pre ++ post → 0 ≤ m) :
    (ChosenFairly pre post ↔ InRange pre post) ∧ (¬ InRange pre post →
      run step init (pre ++ .start :: post) = .error (.assertion .getNextLoop)) := by
  have hbefore := run_before hpre fun m hm => hnum m (List.mem_append_left _ hm)
  have hnum : ∀ m, .setThreadNum m ∈ post → 0 ≤ m :=
    fun m hm => hnum m (List.mem_append_right _ hm)
  have hfail : ¬ InRange pre post →
      run step init (pre ++ .start :: post) = .error (.assertion .getNextLoop) := by
    intro h
    rw [run_append, hbefore, ok_bind, run_cons, step_start, ok_bind]
    exact run_out_of_range hpost hnum h
  refine ⟨⟨fun h => ?_, fun h => ⟨?_, fun p hp as has => ?_⟩⟩, hfail⟩
  · by_contra hout
    obtain ⟨p, hp⟩ := h.runs
    cases (hfail hout).symm.trans hp
  · refine ⟨serving pre post, run_append_ok.mpr ⟨_, hbefore, ?_⟩⟩
    exact run_cons_ok.mpr ⟨_, step_start pre, (run_serving hpost hnum h).1⟩
  · cases hbefore.symm.trans hp
    have hmem {a : Action} : a ∈ as → a ∈ post := fun ha => has.subset ha
    obtain ⟨-, hreturned⟩ := run_serving (fun hm => hpost (hmem hm))
      (fun m hm => hnum m (hmem hm)) (h.initial has)
    rw [emitted_cons_ok (step_start pre), hreturned]
    exact fair_turns _ _

/-- Three threads, five calls, and numbers that are set between them. -/
theorem loops_chosen_fairly_sample :
    ChosenFairly [.getNextLoop, .setThreadNum 3]
      [.getNextLoop, .setThreadNum 1, .getNextLoop, .setThreadNum 7, .getNextLoop,
        .setThreadNum 0, .getNextLoop, .setThreadNum 2, .getNextLoop] :=
  (loops_chosen_fairly (by decide) (by decide) (by simp)).1.mpr (by decide)

/-- Of three started threads two have been chosen when the number is set to one. -/
theorem smaller_number_aborts :
    run step init [.setThreadNum 3, .start, .getNextLoop, .getNextLoop, .setThreadNum 1,
      .getNextLoop] = .error (.assertion .getNextLoop) := rfl

end EventLoopThreadPool

end Summer.Net
