import Mathlib.Tactic.TypeStar

/-!
# How an operation of the library can go wrong

Every function of the model that asserts, allocates or follows a pointer or an
iterator answers in `Except Fault`. A failed `assert` aborts the process; the other
faults are undefined behaviour in the source, or an exception it does not catch.
-/
namespace Summer

abbrev Bytes := List UInt8

/-- The functions whose assertions the model keeps. -/
inductive Site where
  | findCRLF
  | retrieve
  | append
  | prepend
  | makespace
  | insert
  | getExpired
  | cancelInLoop
  | updateChannel
  | removeChannel
  | fillActiveChannels
  | removeConnectionInLoop
  | removeConnection
  | sendInLoop
  | connectionEstablished
  | loop
  | eventLoop
  | startLoop
  | startInLoop
  | connecting
  | handleWrite
  | handleError
  | assertInLoopThread
  | setThreadNum
  | start
  | getNextLoop
  deriving DecidableEq, Repr

inductive Fault where
  /-- An `assert` in the function failed. -/
  | assertion (site : Site)
  /-- `std::length_error`: an allocation larger than `max_size()`. -/
  | lengthError
  /-- A range that is not inside the storage it is read from or written to. -/
  | outOfRange
  /-- `std::copy` onto the inside of its own source. -/
  | overlap
  /-- A null pointer used as an object or as the end of a range. -/
  | nullPointer
  /-- The end iterator of a set used as an element of it. -/
  | endIterator
  /-- An object used after it was deleted. -/
  | dangling
  /-- `LOG_SYSFATAL`: a system call failed and the process aborts. -/
  | sysFatal
  /-- `boost::bad_any_cast`: the value is not of the type it is cast to. -/
  | badAnyCast
  /-- The action is not possible in this state; no step is taken. -/
  | notEnabled
  deriving DecidableEq, Repr

/-- The process was aborted by an assertion. -/
def Fault.isAssertion : Fault → Bool
  | .assertion _ => true
  | _ => false

/-- How a computation went wrong, if it did. -/
def faultOf {α : Type*} : Except Fault α → Option Fault
  | .ok _ => none
  | .error f => some f

theorem faultOf_eq_some {α : Type*} {r : Except Fault α} {f : Fault} :
    faultOf r = some f ↔ r = .error f := by
  cases r <;> simp [faultOf]

end Summer
