import Mathlib.Logic.Function.Basic
import Summer.Net.BufferQueue

/-!
# Programs over any number of buffers

A program applies operations to buffers named by `ι`. The same operations on plain
byte lists are the reference. A program whose operations all fit keeps every buffer
equal to its reference queue, and the first operation that does not fit breaks it.
-/
namespace Summer.Net.BufferProgram

open Summer.Lib Buffer

variable {ι : Type} [DecidableEq ι]

/-- Bytes that lie in memory: an object is smaller than the address space. -/
def Chunk := { data : Bytes // data.length < 2 ^ 63 }

inductive Op (ι : Type) where
  | append (i : ι) (data : Chunk)
  | prepend (i : ι) (data : Chunk)
  | retrieve (i : ι) (len : UInt64)
  | retrieveTo (i : ι) (off : Int)
  | retrieveAll (i : ι)
  | retrieveAsString (i : ι)
  | shrink (i : ι) (reserve : UInt64)
  | swap (i j : ι)

/-- What a program has: its buffers, and the strings `retrieveAsString` gave it. -/
structure World (ι β : Type) where
  buffers : ι → β
  strings : List Bytes

def World.set {β : Type} (w : World ι β) (i : ι) (b : β) : World ι β :=
  { w with buffers := Function.update w.buffers i b }

def World.swap {β : Type} (w : World ι β) (i j : ι) (p : β × β) : World ι β :=
  (w.set i p.1).set j p.2

def step (w : World ι Buffer) : Op ι → Except Fault (World ι Buffer)
  | .append i data => do
    let b ← (w.buffers i).append data.1
    .ok (w.set i b)
  | .prepend i data => do
    let b ← (w.buffers i).prepend data.1
    .ok (w.set i b)
  | .retrieve i len => do
    let b ← (w.buffers i).retrieve len.toNat
    .ok (w.set i b)
  | .retrieveTo i off => do
    let b ← (w.buffers i).retrieveTo off
    .ok (w.set i b)
  | .retrieveAll i => .ok (w.set i (w.buffers i).retrieveAll)
  | .retrieveAsString i => do
    let (str, b) ← (w.buffers i).retrieveAsString
    .ok { w.set i b with strings := w.strings ++ [str] }
  | .shrink i reserve => do
    let b ← (w.buffers i).shrink reserve.toNat
    .ok (w.set i b)
  | .swap i j => .ok (w.swap i j ((w.buffers i).swap (w.buffers j)))

def start : World ι Buffer where
  buffers := fun _ => init
  strings := []

/-! ## The reference: plain byte queues -/

def queueStep (v : World ι Bytes) : Op ι → World ι Bytes
  | .append i data => v.set i (v.buffers i ++ data.1)
  | .prepend i data => v.set i (data.1 ++ v.buffers i)
  | .retrieve i len => v.set i ((v.buffers i).drop len.toNat)
  | .retrieveTo i off => v.set i ((v.buffers i).drop off.toNat)
  | .retrieveAll i => v.set i []
  | .retrieveAsString i => { v.set i [] with strings := v.strings ++ [v.buffers i] }
  | .shrink _ _ => v
  | .swap i j => v.swap i j (v.buffers j, v.buffers i)

def queueStart : World ι Bytes where
  buffers := fun _ => []
  strings := []

def queueRun (v : World ι Bytes) (ops : List (Op ι)) : World ι Bytes := ops.foldl queueStep v

/-- Every buffer holds its queue, and the same strings were handed out. -/
structure Refines (w : World ι Buffer) (v : World ι Bytes) : Prop where
  buffers : ∀ i, Represents (w.buffers i) (v.buffers i)
  strings : w.strings = v.strings

omit [DecidableEq ι] in
theorem refines_start : Refines (start : World ι Buffer) queueStart :=
  ⟨fun _ => represents_init, rfl⟩

/-- The operation's input fits the buffer it is applied to. -/
def Fits (w : World ι Buffer) : Op ι → Prop
  | .append i data => AppendFits (w.buffers i) data.1.length
  | .shrink i reserve => ShrinkFits (w.buffers i) reserve.toNat
  | _ => True

instance (w : World ι Buffer) (op : Op ι) : Decidable (Fits w op) := by
  cases op <;> unfold Fits <;> infer_instance

/-- The operation did not complete: an assertion aborted it or the allocation threw. -/
def Stops (f : Fault) : Prop := f.isAssertion = true ∨ f = .lengthError

omit [DecidableEq ι] in
theorem refines_strings {w : World ι Buffer} {v : World ι Bytes} (h : Refines w v) (s : Bytes) :
    Refines { w with strings := w.strings ++ [s] } { v with strings := v.strings ++ [s] } :=
  ⟨h.buffers, by simp only [h.strings]⟩

theorem refines_set {w : World ι Buffer} {v : World ι Bytes} (h : Refines w v) {i : ι}
    {b : Buffer} {q : Bytes} (hb : Represents b q) : Refines (w.set i b) (v.set i q) := by
  refine ⟨fun k => ?_, h.strings⟩
  by_cases hk : k = i
  · subst hk
    simpa [World.set] using hb
  · simpa [World.set, hk] using h.buffers k

/-- An operation on one buffer that answers as its queue does carries over to the world. -/
theorem set_step {w : World ι Buffer} {v : World ι Bytes} (h : Refines w v) {i : ι}
    {r : Except Fault Buffer} {q : Bytes} {f : Fault} (hf : Stops f)
    (hr : r = .error f ∨ ∃ b, r = .ok b ∧ Represents b q) :
    (∃ f, (r >>= fun b => .ok (w.set i b)) = .error f ∧ Stops f) ∨
      ∃ w', (r >>= fun b => .ok (w.set i b)) = .ok w' ∧ Refines w' (v.set i q) := by
  rcases hr with rfl | ⟨b, rfl, hb⟩
  · exact .inl ⟨f, rfl, hf⟩
  · exact .inr ⟨_, rfl, refines_set h hb⟩

/-- One fitting operation acts as the queue operation, or does not complete. -/
theorem step_refines {w : World ι Buffer} {v : World ι Bytes} (h : Refines w v) (op : Op ι)
    (hfit : Fits w op) :
    (∃ f, step w op = .error f ∧ Stops f) ∨
      ∃ w', step w op = .ok w' ∧ Refines w' (queueStep v op) := by
  cases op with
  | append i data => exact set_step h (.inl rfl) (append_represents (h.buffers i) hfit)
  | prepend i data => exact set_step h (.inl rfl) (prepend_represents (h.buffers i) data.1)
  | retrieve i len => exact set_step h (.inl rfl) (retrieve_represents (h.buffers i) len.toNat)
  | retrieveTo i off => exact set_step h (.inl rfl) (retrieveTo_represents (h.buffers i) off)
  | retrieveAll i =>
    exact .inr ⟨_, rfl, refines_set h (retrieveAll_represents (h.buffers i))⟩
  | retrieveAsString i =>
    refine .inr ⟨_, by simp only [step, retrieveAsString_represents (h.buffers i)]; rfl, ?_⟩
    exact refines_strings (refines_set h (retrieveAll_represents (h.buffers i))) _
  | shrink i reserve =>
    have hs := set_step (i := i) h (.inr rfl) (shrink_represents (h.buffers i) hfit)
    have he : v.set i (v.buffers i) = v := by simp [World.set]
    rw [he] at hs
    exact hs
  | swap i j => exact .inr ⟨_, rfl, refines_set (refines_set h (h.buffers j)) (h.buffers i)⟩

theorem represents_of_set {w : World ι Buffer} {v : World ι Bytes} {i : ι} {b : Buffer}
    {q : Bytes} (h : Refines (w.set i b) (v.set i q)) : Represents b q := by
  simpa [World.set] using h.buffers i

/-- One operation that acts as the queue operation did fit. -/
theorem step_fits {w w' : World ι Buffer} {v : World ι Bytes} (h : Refines w v) (op : Op ι)
    (hs : step w op = .ok w') (h' : Refines w' (queueStep v op)) : Fits w op := by
  cases op with
  | append i data =>
    obtain ⟨b, hb, hw⟩ := bind_eq_ok.mp hs
    cases hw
    exact appendFits_of_represents (h.buffers i) data.2 hb (represents_of_set h')
  | shrink i reserve =>
    obtain ⟨b, hb, hw⟩ := bind_eq_ok.mp hs
    cases hw
    apply shrinkFits_of_represents (h.buffers i) reserve.toNat_lt hb
    simpa [World.set, queueStep] using h'.buffers i
  | _ => trivial

/-- From any matching states, a program that always completes its operations keeps its
buffers equal to the reference queues throughout exactly when all its operations fit. -/
theorem along_fits_iff (ops : List (Op ι)) {w : World ι Buffer} {v : World ι Bytes}
    (h : Refines w v) (hno : ∀ f, run step w ops = .error f → ¬ Stops f) :
    Along step Fits w ops ↔
      ∀ n, ∃ w', run step w (ops.take n) = .ok w' ∧ Refines w' (queueRun v (ops.take n)) := by
  induction ops generalizing w v with
  | nil => simpa [Along, queueRun] using h
  | cons op ops ih =>
    have hno' : ∀ t, step w op = .ok t → ∀ f, run step t ops = .error f → ¬ Stops f :=
      fun t ht f hf => hno f (by rw [run_cons, ht]; exact hf)
    constructor
    · rintro ⟨hfit, hrest⟩ n
      rcases step_refines h op hfit with ⟨f, hf, hst⟩ | ⟨t, ht, hr⟩
      · exact absurd hst (hno f (by rw [run_cons, hf]; rfl))
      · cases n with
        | zero => exact ⟨w, rfl, h⟩
        | succ n =>
          obtain ⟨w', hw', hr'⟩ := (ih hr (hno' t ht)).mp (hrest t ht) n
          exact ⟨w', by rw [List.take_succ_cons, run_cons, ht]; exact hw', hr'⟩
    · intro hall
      obtain ⟨t, ht, hr⟩ := hall 1
      obtain ⟨t', ht', hrun⟩ := run_cons_ok.mp ht
      cases hrun
      refine ⟨step_fits h op ht' hr, fun u hu => ?_⟩
      rw [ht'] at hu
      cases hu
      refine (ih hr (hno' t ht')).mpr fun n => ?_
      obtain ⟨w', hw', hr'⟩ := hall (n + 1)
      rw [List.take_succ_cons, run_cons, ht'] at hw'
      exact ⟨w', hw', hr'⟩

/-- A program from fresh buffers in which every operation completes behaves as plain byte
queues after every step exactly when no `append` or `shrink` overruns its storage or its
integer types. -/
theorem buffers_refine_queues (ops : List (Op ι))
    (hno : ∀ f, run step start ops = .error f → ¬ Stops f) :
    Along step Fits start ops ↔
      ∀ n, ∃ w, run step start (ops.take n) = .ok w ∧
        Refines w (queueRun queueStart (ops.take n)) :=
  along_fits_iff ops refines_start hno

/-- A program of fitting operations: prepend, a growing append, a shrink and a swap. -/
def sample : List (Op Bool) :=
  [.prepend true ⟨[1, 2], by decide⟩, .shrink true 4, .append true ⟨[3, 4, 5], by decide⟩,
    .retrieve true 1, .swap true false, .retrieveAsString false]

theorem buffers_refine_queues_sample :
    (∀ f, run step start sample = .error f → ¬ Stops f) ∧
      (Along step Fits start sample ↔
        ∀ n, ∃ w, run step start (sample.take n) = .ok w ∧
          Refines w (queueRun queueStart (sample.take n))) := by
  have hrun : faultOf (run step start sample) = none := by decide +kernel
  have h : ∀ f, run step start sample = .error f → ¬ Stops f := by
    intro f hf
    rw [hf] at hrun
    cases hrun
  exact ⟨h, buffers_refine_queues sample h⟩

/-- Two operations on a fresh buffer: after `shrink(0)` the storage has 8 bytes and no free
tail, so appending one byte resizes it to 1 byte below an index of 8, the assertion passes
on the wrapped `writeableBytes`, and the copy writes behind the storage. -/
def overrun : List (Op Unit) := [.shrink () 0, .append () ⟨[97], by decide⟩]

theorem overrun_breaks_queue :
    run step start overrun = .error .outOfRange ∧
      (init.shrink 0 >>= fun b => b.makespace 1) = .ok ⟨[0], 8, 8⟩ ∧
      1 < writeableBytes ⟨[0], 8, 8⟩ ∧
      ¬ ∀ n, ∃ w, run step start (overrun.take n) = .ok w ∧
        Refines w (queueRun queueStart (overrun.take n)) := by
  have h : run step start overrun = .error .outOfRange :=
    faultOf_eq_some.mp (by decide +kernel)
  refine ⟨h, by decide +kernel, by decide, fun hall => ?_⟩
  obtain ⟨w, hw, -⟩ := hall 2
  rw [show overrun.take 2 = overrun from rfl, h] at hw
  cases hw

end Summer.Net.BufferProgram
