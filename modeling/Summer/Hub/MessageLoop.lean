import Summer.Hub.Codec

/-!
# The message callbacks of the hub and of its client

Both callbacks parse until a parse does not succeed, and dispatch each message as it is
parsed. They differ in where their strings live, in what they dispatch, and in that the
client shuts the connection down on an error.
-/
namespace Summer.Hub

open Summer.Lib

variable {κ : Type}

/-- `while(parseResult == kSuccess)`: the calls made, the result that ended the loop, and the
bytes left unread. With `fresh` the strings are declared inside the loop. -/
def messageLoop (fresh : Bool) (handle : Strings → List κ) (m : Bytes) (s : Strings) :
    Except Fault (List κ × ParseResult × Bytes) :=
  match _h : parseMessage m (if fresh then {} else s) with
  | .error f => .error f
  | .ok (.kSuccess, m', s') => do
    let (calls, result, rest) ← messageLoop fresh handle m' s'
    .ok (handle s' ++ calls, result, rest)
  | .ok (.kContinue, m', _) => .ok ([], .kContinue, m')
  | .ok (.kError, m', _) => .ok ([], .kError, m')
termination_by m.length
decreasing_by
  have := parseMessage_shrinks _h
  omega

/-- A message callback: the loop, and the calls made when it ended on an error. -/
def onMessage (fresh : Bool) (handle : Strings → List κ) (onError : List κ) (m : Bytes) :
    Except Fault (List κ × Bytes) := do
  let (calls, result, rest) ← messageLoop fresh handle m {}
  .ok (calls ++ (if result = .kError then onError else []), rest)

/-! ## The hub -/

inductive HubCall where
  | doPublish (topic content : Bytes)
  | doSubscribe (topic : Bytes)
  | doUnSubscribe (topic : Bytes)
  deriving DecidableEq, Repr

def HubServer.dispatch (s : Strings) : List HubCall :=
  if s.cmd = pub then [.doPublish s.topic s.content]
  else if s.cmd = sub then [.doSubscribe s.topic]
  else if s.cmd = unsub then [.doUnSubscribe s.topic]
  else []

/-- The strings are declared before the loop, and an error only ends it. -/
def HubServer.onMessage (m : Bytes) : Except Fault (List HubCall × Bytes) :=
  Hub.onMessage false HubServer.dispatch [] m

/-! ## The client -/

inductive ClientCall where
  | subscribeCallback (topic content : Bytes)
  | shutdown
  deriving DecidableEq, Repr

def PubSubClient.dispatch (subscribeCallback : Bool) (s : Strings) : List ClientCall :=
  if s.cmd = pub ∧ subscribeCallback = true then [.subscribeCallback s.topic s.content] else []

/-- The strings are declared in the loop, and an error shuts the connection down. -/
def PubSubClient.onMessage (subscribeCallback : Bool) (m : Bytes) :
    Except Fault (List ClientCall × Bytes) :=
  Hub.onMessage true (PubSubClient.dispatch subscribeCallback) [.shutdown] m

/-! ## Successive read events -/

/-- Each chunk is appended to the unread input and the callback is run on it. -/
def deliver (callback : Bytes → Except Fault (List κ × Bytes)) :
    Bytes → List Bytes → Except Fault (List κ × Bytes)
  | unread, [] => .ok ([], unread)
  | unread, chunk :: chunks => do
    let (calls, rest) ← callback (unread ++ chunk)
    let (more, rest) ← deliver callback rest chunks
    .ok (calls ++ more, rest)

/-! ## One turn of the loop -/

section Turn

variable {fresh : Bool} {handle : Strings → List κ} {m m' : Bytes} {s s' : Strings}

theorem messageLoop_success
    (h : parseMessage m (if fresh then {} else s) = .ok (.kSuccess, m', s')) :
    messageLoop fresh handle m s = (do
      let (calls, result, rest) ← messageLoop fresh handle m' s'
      .ok (handle s' ++ calls, result, rest)) := by
  rw [messageLoop]
  split <;> simp_all

theorem messageLoop_continue
    (h : parseMessage m (if fresh then {} else s) = .ok (.kContinue, m', s')) :
    messageLoop fresh handle m s = .ok ([], .kContinue, m') := by
  rw [messageLoop]
  split <;> simp_all

theorem messageLoop_kError
    (h : parseMessage m (if fresh then {} else s) = .ok (.kError, m', s')) :
    messageLoop fresh handle m s = .ok ([], .kError, m') := by
  rw [messageLoop]
  split <;> simp_all

theorem messageLoop_error {f : Fault} (h : parseMessage m (if fresh then {} else s) = .error f) :
    messageLoop fresh handle m s = .error f := by
  rw [messageLoop]
  split <;> simp_all

end Turn

end Summer.Hub
