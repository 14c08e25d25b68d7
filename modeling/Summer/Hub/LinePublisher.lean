import Summer.Hub.ClientPrograms
import Mathlib.Data.List.TakeWhile

/-!
# `pub` with lines of input

With `-` for the content the main thread of `pub` reads lines and publishes each of them, while
another thread runs the loop. The main thread is followed until `disconnect()` has returned, so not
into the destructors that `main` ends with, and the output buffer is an ideal queue of bytes. Lines
are lost before the connection callback and after the connection, and not in between.
-/
namespace Summer.Hub

open Summer.Lib
open Summer.Net (ConnectionSystem)
open Summer.Net.ConnectionSystem (established messagesOf queuedBy inFlight)

/-- `inHand` is the line for which `connected()` was true and which `conn_->send` has not tested
yet. -/
structure LinePublisher where
  client : ClientProcess Unit := {}
  inHand : Option Bytes := none
  ended : Bool := false

namespace LinePublisher

inductive Action where
  | loop (a : ClientProcess.Action Unit)
  /-- `getline`, and `publish` up to the test of `connected()`. -/
  | publish (line : Bytes)
  /-- `conn_->send` up to its test, and the push of the functor. -/
  | send
  | push
  /-- The end of the input, and `disconnect()` up to the test in `shutdown()`. -/
  | disconnect
  | shutdownSet
  | shutdownPush

/-- The main thread is in front of `getline`. -/
def Reading (p : LinePublisher) : Prop :=
  p.ended = false ∧ p.inHand = none ∧ p.client.system.threads () = .idle

instance (p : LinePublisher) : Decidable p.Reading := inferInstanceAs (Decidable (_ ∧ _ ∧ _))

def take (p : LinePublisher) (a : ConnectionSystem.Action Unit) : Except Fault LinePublisher := do
  let client ← p.client.take a
  .ok { p with client := client }

/-- `getline` has failed. -/
def atEnd (p : LinePublisher) : LinePublisher := { p with ended := true }

/-- The client has neither a connection callback nor a subscribe callback. -/
def step (topic : Bytes) (p : LinePublisher) : Action → Except Fault LinePublisher
  | .loop a => do
    let client ← p.client.loopStep (fun _ => .ok) false a
    .ok { p with client := client }
  | .publish line => do
    ensure (p.Reading ∧ LF ∉ line) .notEnabled
    .ok (if p.client.connected = true then { p with inHand := some line } else p)
  | .send =>
    match p.inHand with
    | none => .error .notEnabled
    | some line =>
      { p with inHand := none }.take (.otherSend () (.string (PubSubClient.publish topic line)))
  | .push => p.take (.otherSendPush ())
  | .disconnect => do
    ensure p.Reading .notEnabled
    if p.client.system.conn.held = true then p.atEnd.take (.otherShutdown ()) else .ok p.atEnd
  | .shutdownSet => p.take (.otherShutdownSet ())
  | .shutdownPush => p.take (.otherShutdownPush ())

/-! ## The lines of a run -/

def Action.line : Action → Option Bytes
  | .publish line => some line
  | _ => none

/-- The lines that were read. -/
def lines (as : List Action) : List Bytes := as.filterMap Action.line

/-- The loop calls the connection callback. -/
def Action.tells : Action → Bool
  | .loop a => decide (a.step = .connectionCallback)
  | _ => false

/-- Those that were read before the connection callback. -/
def linesBefore (as : List Action) : List Bytes := lines (as.takeWhile fun a => !a.tells)

/-- The messages of the main thread that have passed the test of `conn_->send`: written or queued
for writing, in the queue of the loop, and not pushed yet. -/
def carried (p : LinePublisher) : List Bytes :=
  messagesOf (some ()) p.client.system.executed ++ queuedBy () p.client.system.functors ++
    inFlight (p.client.system.threads ())

variable {topic line : Bytes} {p p' : LinePublisher} {a : Action} {as : List Action}
  {heard late : List Bytes}

theorem lines_concat (as : List Action) (a : Action) :
    lines (as ++ [a]) = lines as ++ a.line.toList := by
  cases h : a.line <;> simp [lines, h]

theorem untold_concat (h : ∀ a ∈ as, a.tells = false) (ha : a.tells = false) :
    ∀ b ∈ as ++ [a], b.tells = false := by
  intro b hb
  rcases List.mem_append.mp hb with hb | hb
  · exact h b hb
  · exact List.mem_singleton.mp hb ▸ ha

/-- Nothing is told yet. -/
theorem linesBefore_eq (h : ∀ a ∈ as, a.tells = false) : linesBefore as = lines as := by
  rw [linesBefore, List.takeWhile_eq_self_iff.mpr]
  intro a ha
  simp [h a ha]

/-- The lines after the callback come too late to be read before it. -/
theorem linesBefore_concat (h : ∃ a ∈ as, a.tells = true) :
    linesBefore (as ++ [a]) = linesBefore as := by
  obtain ⟨b, hb, htells⟩ := h
  have hne : ¬ (as.takeWhile fun a => !a.tells).length = as.length := by
    intro hlen
    have hall := List.takeWhile_eq_self_iff.mp
      ((List.takeWhile_prefix _).eq_of_length hlen) b hb
    simp [htells] at hall
  rw [linesBefore, List.takeWhile_append, if_neg hne, linesBefore]

theorem lines_append (as bs : List Action) : lines (as ++ bs) = lines as ++ lines bs :=
  List.filterMap_append

/-- More actions change nothing before the callback but its end. -/
theorem linesBefore_append (as bs : List Action) : linesBefore as <+: linesBefore (as ++ bs) := by
  refine List.IsPrefix.filterMap _ ?_
  rw [List.takeWhile_append]
  split
  · exact (List.takeWhile_prefix _).trans (List.prefix_append _ _)
  · exact List.prefix_rfl

theorem lines_of_none (ha : a.line = none) : lines (as ++ [a]) = lines as := by
  simp [lines_concat, ha]

theorem linesBefore_of_none (ha : a.line = none) : linesBefore (as ++ [a]) = linesBefore as := by
  by_cases h : ∃ b ∈ as, b.tells = true
  · exact linesBefore_concat h
  · have hall : ∀ b ∈ as, b.tells = false := fun b hb => by
      simpa using fun htells => h ⟨b, hb, htells⟩
    have htake : as.takeWhile (fun b => !b.tells) = as :=
      List.takeWhile_eq_self_iff.mpr fun b hb => by simp [hall b hb]
    rw [linesBefore, List.takeWhile_append, htake, if_pos rfl, linesBefore, htake]
    cases htells : a.tells <;> simp [htells, lines_of_none ha]

/-! ## What one step of the connection keeps -/

/-- What has been accepted and what is queued for writing are the messages run. -/
def Whole {T : Type} (s : ConnectionSystem T) : Prop :=
  s.conn.record.accepted ++ s.conn.outputBuffer = (s.executed.map Prod.snd).flatten

section Connection

variable {T : Type} [DecidableEq T] {s s' : ConnectionSystem T} {b : ConnectionSystem.Action T}

/-- What every step keeps: the order of the messages, whole messages, a state that is no longer
`kConnected`, and what the user was told, unless the step tells him more. -/
structure Keeps (s : ConnectionSystem T) (b : ConnectionSystem.Action T)
    (s' : ConnectionSystem T) : Prop where
  whole : Whole s → Whole s'
  state : s.conn.state ≠ .kConnected → s'.conn.state ≠ .kConnected
  callbacks : b ≠ .connectionCallback →
    s'.conn.record.connectionCallbacks = s.conn.record.connectionCallbacks

omit [DecidableEq T] in
theorem Keeps.of_sent {message : Bytes} (h : Net.TcpConnection.Sent s.conn message s'.conn)
    (hexec : (s'.executed.map Prod.snd).flatten = (s.executed.map Prod.snd).flatten ++ message) :
    Keeps s b s' := by
  refine ⟨fun hwhole => ?_, fun hne => h.state ▸ hne, fun _ => h.quiet.connectionCallbacks⟩
  rw [Whole] at hwhole ⊢
  rw [h.stream, hwhole, hexec]

omit [DecidableEq T] in
/-- The step is none of the connection's output. -/
theorem Keeps.of_idle (hexec : s'.executed = s.executed)
    (haccepted : s'.conn.record.accepted = s.conn.record.accepted)
    (hout : s'.conn.outputBuffer = s.conn.outputBuffer)
    (hstate : s'.conn.state = s.conn.state ∨ s'.conn.state ≠ .kConnected)
    (hcallbacks : b ≠ .connectionCallback →
      s'.conn.record.connectionCallbacks = s.conn.record.connectionCallbacks) :
    Keeps s b s' := by
  refine ⟨fun hwhole => ?_, fun hne => ?_, hcallbacks⟩
  · rw [Whole] at hwhole ⊢
    rw [haccepted, hout, hwhole, hexec]
  · rcases hstate with hsame | hother
    · rwa [hsame]
    · exact hother

theorem keeps_of_step (hlive : s.Live) (hstep : s.step b = .ok s') : Keeps s b s' := by
  cases ConnectionSystem.moves_of_step hlive.state hstep with
  | passes hp =>
    obtain ⟨loop, revents, phase, rfl⟩ := hp.frame
    exact .of_idle rfl rfl rfl (.inl rfl) fun _ => rfl
  | notify _ => exact .of_idle rfl rfl rfl (.inl rfl) fun hne => absurd rfl hne
  | close _ _ _ hclose =>
    have hc := Net.TcpConnection.handleClose_spec hclose
    refine .of_idle rfl (by rw [hc.record]) hc.outputBuffer (.inr ?_) fun _ => by rw [hc.record]
    simp [hc.state]
  | drain _ _ hdrain =>
    exact .of_sent (Net.TcpConnection.handleWrite_spec hdrain) (List.append_nil _).symm
  | destroy _ _ hdestroy =>
    obtain ⟨-, rfl⟩ := Net.TcpConnection.connectionDestroyed_ok hlive.state hdestroy
    exact .of_idle rfl rfl rfl (.inl rfl) fun _ => rfl
  | runSend _ _ hsend | send _ _ hsend =>
    exact .of_sent (Net.TcpConnection.sendInLoop_spec hsend)
      (ConnectionSystem.flatten_concat ..)
  | runShutdown _ _ =>
    have hs := Net.TcpConnection.shutdownInLoop_spec s.conn
    exact .of_idle rfl hs.accepted hs.outputBuffer
      (.inl (Net.TcpConnection.shutdownInLoop_state _)) fun _ => hs.quiet.connectionCallbacks
  | shutdown _ hstate =>
    have hs := Net.TcpConnection.shutdown_spec s.conn
    refine .of_idle rfl hs.accepted hs.outputBuffer (.inr ?_) fun _ => hs.quiet.connectionCallbacks
    dsimp only
    rw [Net.TcpConnection.shutdown, if_pos hstate, Net.TcpConnection.shutdownInLoop_state]
    simp
  | otherShutdownSet _ => exact .of_idle rfl rfl rfl (.inr (by simp)) fun _ => rfl
  | otherSend _ _ | otherSendPush _ | otherShutdown _ _ _ | otherShutdownPush _ | otherFunctor
  | baseRemove _ _ => exact .of_idle rfl rfl rfl (.inl rfl) fun _ => rfl

/-- Only `send()` passes a message. -/
theorem sent_of_step (hlive : s.Live) (hloop : ∀ argument n, b ≠ .send argument n)
    (hother : ∀ t argument, b ≠ .otherSend t argument) (hstep : s.step b = .ok s') :
    s'.sent = s.sent := by
  cases ConnectionSystem.moves_of_step hlive.state hstep with
  | passes hp =>
    obtain ⟨loop, revents, phase, rfl⟩ := hp.frame
    rfl
  | send _ _ _ => exact absurd rfl (hloop _ _)
  | otherSend _ _ => exact absurd rfl (hother _ _)
  | _ => rfl

/-- A step that calls the connection callback. -/
theorem told_of_step (hstep : s.step .connectionCallback = .ok s') :
    s'.conn.record.connectionCallbacks =
      s.conn.record.connectionCallbacks ++ [decide (s.conn.state = .kConnected)] := by
  obtain ⟨_, -, hstep⟩ := bind_eq_ok.mp hstep
  cases hstep
  rfl

end Connection

/-! ## The messages of the main thread -/

/-- The messages of these lines have passed the test of `conn_->send`, and no others. -/
structure Carries (topic : Bytes) (heard : List Bytes) (s : ConnectionSystem Unit) : Prop where
  live : s = .init .client false ∨ s.Live
  ordered : s.Ordered
  whole : Whole s
  sent : s.sent = heard.map fun line => (some (), PubSubClient.publish topic line)

variable {s s' : ConnectionSystem Unit}

theorem carries_init : Carries topic [] (.init .client false) :=
  ⟨.inl rfl, ⟨rfl, fun _ => rfl⟩, rfl, rfl⟩

/-- The callback was called on a connection that is established. -/
theorem Carries.established (h : Carries topic heard s)
    (htold : s.conn.record.connectionCallbacks ≠ []) : s.Live := by
  rcases h.live with rfl | hlive
  · exact absurd rfl htold
  · exact hlive

/-- A step that sends no message of the main thread. -/
theorem Carries.step (h : Carries topic heard s) {b : ConnectionSystem.Action Unit}
    (hloop : ∀ argument n, b ≠ .send argument n) (hother : ∀ t argument, b ≠ .otherSend t argument)
    (hstep : s.step b = .ok s') :
    Carries topic heard s' ∧
      (b ≠ .connectionCallback →
        s'.conn.record.connectionCallbacks = s.conn.record.connectionCallbacks) ∧
      (s.conn.record.connectionCallbacks ≠ [] → s.conn.state ≠ .kConnected →
        s'.conn.state ≠ .kConnected) := by
  rcases h.live with rfl | hlive
  · have hnone : heard = [] := List.map_eq_nil_iff.mp h.sent.symm
    subst hnone
    rcases ConnectionSystem.first_step hstep with rfl | rfl
    · exact ⟨h, fun _ => rfl, fun _ hstate => hstate⟩
    · exact ⟨⟨.inr (ConnectionSystem.established_live ..), ConnectionSystem.established_ordered ..,
        rfl, rfl⟩, fun _ => rfl, fun htold => absurd rfl htold⟩
  · have hkeeps := keeps_of_step hlive hstep
    exact ⟨⟨.inr (ConnectionSystem.live_step hlive hstep),
      ConnectionSystem.ordered_step hlive h.ordered hstep, hkeeps.whole h.whole,
      (sent_of_step hlive hloop hother hstep).trans h.sent⟩, hkeeps.callbacks,
      fun _ => hkeeps.state⟩

/-- `conn_->send` up to its test. -/
theorem Carries.send (h : Carries topic heard s)
    (htold : s.conn.record.connectionCallbacks ≠ [])
    (hstep : s.step (.otherSend () (.string (PubSubClient.publish topic line))) = .ok s') :
    s'.conn.record.connectionCallbacks = s.conn.record.connectionCallbacks ∧
      s'.conn.state = s.conn.state ∧
      (s.conn.state = .kConnected ∧ Carries topic (heard ++ [line]) s' ∨
        s.conn.state ≠ .kConnected ∧ Carries topic heard s') := by
  have hlive := h.established htold
  have hkeeps := keeps_of_step hlive hstep
  have hlive' := ConnectionSystem.live_step hlive hstep
  have hordered := ConnectionSystem.ordered_step hlive h.ordered hstep
  refine ⟨hkeeps.callbacks (by simp), ?_⟩
  cases ConnectionSystem.moves_of_step hlive.state hstep with
  | passes hp =>
    cases hp with
    | ignored hne _ => exact ⟨rfl, .inr ⟨hne, h⟩⟩
  | otherSend _ hstate =>
    refine ⟨rfl, .inl ⟨hstate, .inr hlive', hordered, hkeeps.whole h.whole, ?_⟩⟩
    dsimp only
    rw [h.sent, List.map_append]
    rfl

/-- What is carried are the messages of these lines, in order. -/
theorem Carries.carried (h : Carries topic heard p.client.system) :
    p.carried = heard.map (PubSubClient.publish topic) := by
  rw [LinePublisher.carried, h.ordered.others, h.sent]
  simp [messagesOf]

/-! ## Where the lines go -/

/-- The values of `connected()` at the connection callbacks so far. -/
def told (p : LinePublisher) : List Bool := p.client.system.conn.record.connectionCallbacks

/-- The lines before the callback were lost, those in `heard` were passed on, and those in `late`
found the connection no longer connected. -/
structure Split (topic : Bytes) (as : List Action) (heard late : List Bytes)
    (p : LinePublisher) : Prop where
  carries : Carries topic heard p.client.system
  all : lines as = linesBefore as ++ heard ++ late ++ p.inHand.toList
  untold : p.told = [] → p.client.conn = false ∧ heard = [] ∧ late = [] ∧ p.inHand = none ∧
    ∀ a ∈ as, a.tells = false
  told : p.told ≠ [] → (p.client.conn = true ∨ p.client.system.conn.state ≠ .kConnected) ∧
    ∃ a ∈ as, a.tells = true
  late : late ≠ [] → p.told ≠ [] ∧ p.client.system.conn.state ≠ .kConnected

theorem split_init : Split topic [] [] [] {} :=
  ⟨carries_init, rfl, fun _ => ⟨rfl, rfl, rfl, rfl, by simp⟩, fun h => absurd rfl h,
    fun h => absurd rfl h⟩

/-- A step that reads no line, sends no message and tells the user nothing. -/
theorem Split.keep (h : Split topic as heard late p) (hline : a.line = none)
    (htells : a.tells = false) (hcarries : Carries topic heard p'.client.system)
    (htold : p'.told = p.told) (hconn : p'.client.conn = p.client.conn)
    (hhand : p'.inHand = p.inHand)
    (hstate : p.told ≠ [] → p.client.system.conn.state ≠ .kConnected →
      p'.client.system.conn.state ≠ .kConnected) :
    Split topic (as ++ [a]) heard late p' := by
  refine ⟨hcarries, ?_, fun hnone => ?_, fun hsome => ?_, fun hlate => ?_⟩
  · rw [lines_of_none hline, linesBefore_of_none hline, hhand]
    exact h.all
  · obtain ⟨hconn', hheard, hlate, hnohand, hnever⟩ := h.untold (htold ▸ hnone)
    exact ⟨hconn.trans hconn', hheard, hlate, hhand.trans hnohand, untold_concat hnever htells⟩
  · rw [htold] at hsome
    obtain ⟨hup, b, hb, hcalled⟩ := h.told hsome
    refine ⟨?_, b, List.mem_append_left _ hb, hcalled⟩
    rcases hup with hup | hdown
    · exact .inl (hconn.trans hup)
    · exact .inr (hstate hsome hdown)
  · obtain ⟨hsome, hdown⟩ := h.late hlate
    exact ⟨htold ▸ hsome, hstate hsome hdown⟩

/-- A step of the main thread that sends no message. -/
theorem Split.take (h : Split topic as heard late p) {b : ConnectionSystem.Action Unit}
    (hline : a.line = none) (htells : a.tells = false)
    (hloop : ∀ argument n, b ≠ .send argument n) (hother : ∀ t argument, b ≠ .otherSend t argument)
    (hcall : b ≠ .connectionCallback) {client : ClientProcess Unit}
    (htake : p.client.take b = .ok client) {q : LinePublisher}
    (hclient : q.client = client) (hhand : q.inHand = p.inHand) :
    Split topic (as ++ [a]) heard late q := by
  obtain ⟨system, hstep, rfl⟩ := ClientProcess.take_ok htake
  obtain ⟨hcarries, htold, hstate⟩ := h.carries.step hloop hother hstep
  have hsystem : q.client.system = system := by rw [hclient]
  refine h.keep hline htells (by rwa [hsystem]) ?_ (by rw [hclient]) hhand fun hsome hdown => ?_
  · rw [LinePublisher.told, hsystem]
    exact htold hcall
  · rw [hsystem]
    exact hstate hsome hdown

/-- A line is read. -/
theorem Split.publish (h : Split topic as heard late p) (hreading : p.Reading) :
    ∃ late', Split topic (as ++ [.publish line]) heard late'
      (if p.client.connected = true then { p with inHand := some line } else p) := by
  have hhand : p.inHand = none := hreading.2.1
  have hlines : lines (as ++ [.publish line]) = lines as ++ [line] := lines_concat as _
  by_cases hnone : p.told = []
  · obtain ⟨hconn, rfl, rfl, -, hnever⟩ := h.untold hnone
    have hdown : ¬ p.client.connected = true := by simp [ClientProcess.connected, hconn]
    have hnever' := untold_concat (a := .publish line) hnever rfl
    rw [if_neg hdown]
    refine ⟨[], h.carries, ?_, fun _ => ⟨hconn, rfl, rfl, hhand, hnever'⟩,
      fun hsome => absurd hnone hsome, fun hlate => absurd rfl hlate⟩
    rw [linesBefore_eq hnever', hhand]
    simp
  · obtain ⟨hup, hcalled⟩ := h.told hnone
    have hcalled' : ∃ b ∈ as ++ [.publish line], b.tells = true := by
      obtain ⟨b, hb, htells⟩ := hcalled
      exact ⟨b, List.mem_append_left _ hb, htells⟩
    have hbefore : linesBefore (as ++ [.publish line]) = linesBefore as :=
      linesBefore_concat hcalled
    have hall := h.all
    rw [hhand] at hall
    by_cases hconnected : p.client.connected = true
    · have hstate : p.client.system.conn.state = .kConnected := by
        simp only [ClientProcess.connected, Bool.and_eq_true, decide_eq_true_eq] at hconnected
        exact hconnected.2
      have hlate : late = [] := by
        by_contra hlate
        exact (h.late hlate).2 hstate
      subst hlate
      rw [if_pos hconnected]
      refine ⟨[], h.carries, ?_, fun hnone' => absurd hnone' hnone, fun _ => ⟨hup, hcalled'⟩,
        fun hlate => absurd rfl hlate⟩
      rw [hlines, hbefore, hall]
      simp
    · rw [if_neg hconnected]
      have hdown : p.client.system.conn.state ≠ .kConnected := by
        rcases hup with hup | hdown
        · simpa [ClientProcess.connected, hup] using hconnected
        · exact hdown
      refine ⟨late ++ [line], h.carries, ?_, fun hnone' => absurd hnone' hnone,
        fun _ => ⟨hup, hcalled'⟩, fun _ => ⟨hnone, hdown⟩⟩
      rw [hlines, hbefore, hall, hhand]
      simp

/-- `conn_->send` has tested the line in hand: it is passed on, or lost. -/
theorem Split.send (h : Split topic as heard late p) (hhand : p.inHand = some line)
    (hsend : { p with inHand := none }.take
      (.otherSend () (.string (PubSubClient.publish topic line))) = .ok p') :
    ∃ heard' late', heard <+: heard' ∧ Split topic (as ++ [.send]) heard' late' p' := by
  obtain ⟨client, htake, hsend⟩ := bind_eq_ok.mp hsend
  cases hsend
  obtain ⟨system, hstep, rfl⟩ := ClientProcess.take_ok htake
  have hsome : p.told ≠ [] := by
    intro hnone
    cases hhand.symm.trans (h.untold hnone).2.2.2.1
  obtain ⟨htold, hstate, hsent⟩ := h.carries.send hsome hstep
  obtain ⟨hup, b, hb, hcalled⟩ := h.told hsome
  have hall := h.all
  rw [hhand] at hall
  have htold' : system.conn.record.connectionCallbacks ≠ [] := by rwa [htold]
  have hup' : p.client.conn = true ∨ system.conn.state ≠ .kConnected := by rwa [hstate]
  have hcalled' : ∃ b ∈ as ++ [.send], b.tells = true := ⟨b, List.mem_append_left _ hb, hcalled⟩
  rcases hsent with ⟨hconnected, hcarries⟩ | ⟨hdown, hcarries⟩
  · have hlate : late = [] := by
      by_contra hlate
      exact (h.late hlate).2 hconnected
    subst hlate
    refine ⟨heard ++ [line], [], List.prefix_append _ _, hcarries, ?_,
      fun hnone => absurd hnone htold', fun _ => ⟨hup', hcalled'⟩, fun hlate => absurd rfl hlate⟩
    rw [lines_of_none rfl, linesBefore_of_none rfl, hall]
    simp
  · refine ⟨heard, late ++ [line], List.prefix_rfl, hcarries, ?_,
      fun hnone => absurd hnone htold', fun _ => ⟨hup', hcalled'⟩,
      fun _ => ⟨htold', by rwa [hstate]⟩⟩
    rw [lines_of_none rfl, linesBefore_of_none rfl, hall]
    simp

/-- The loop calls the connection callback, which sets `conn_`. -/
theorem Split.connection (h : Split topic as heard late p) {b : ClientProcess.Action Unit}
    (hb : b.step = .connectionCallback) {client q : ClientProcess Unit}
    (htake : p.client.take b.step = .ok q)
    (hresult : q.onConnection (fun p => .ok p) = .ok client) :
    Split topic (as ++ [.loop b]) heard late { p with client := client } := by
  obtain ⟨system, hstep, rfl⟩ := ClientProcess.take_ok htake
  cases hresult
  rw [hb] at hstep
  obtain ⟨hcarries, -, hstate⟩ := h.carries.step (by simp) (by simp) hstep
  have htold : system.conn.record.connectionCallbacks ≠ [] := by
    rw [told_of_step hstep]
    exact List.concat_ne_nil _ _
  refine ⟨hcarries, ?_, fun hnone => absurd hnone htold, fun _ => ⟨?_, .loop b, by simp, ?_⟩,
    fun hlate => ⟨htold, ?_⟩⟩
  · rw [lines_of_none rfl, linesBefore_of_none rfl]
    exact h.all
  · by_cases hup : system.conn.state = .kConnected
    · exact .inl (decide_eq_true hup)
    · exact .inr hup
  · simp [Action.tells, hb]
  · obtain ⟨hsome, hdown⟩ := h.late hlate
    exact hstate hsome hdown

/-- The thread of the loop takes a step. -/
theorem Split.loop (h : Split topic as heard late p) {b : ClientProcess.Action Unit}
    {client : ClientProcess Unit}
    (hloop : p.client.loopStep (fun _ => .ok) false b = .ok client) :
    Split topic (as ++ [.loop b]) heard late { p with client := client } := by
  obtain ⟨hby, q, htake, hcalls⟩ := ClientProcess.loopStep_ok hloop
  have hsend := ClientProcess.Action.byLoop_not_send hby
  have hother : ∀ t argument, b.step ≠ .otherSend t argument := by
    intro t argument heq
    rw [ClientProcess.Action.byLoop, heq] at hby
    cases hby
  by_cases hb : b.step = .connectionCallback
  · obtain ⟨system, hstep, hq⟩ := ClientProcess.take_ok htake
    rw [hb] at hstep
    have htold := told_of_step hstep
    cases hcalls with
    | connection _ result => exact h.connection hb htake result
    | message same | nothing same =>
      rw [hq] at same
      have hmore := same.symm.trans htold
      simp at hmore
  · have htells : Action.tells (.loop b) = false := by simp [Action.tells, hb]
    obtain ⟨system, hstep, rfl⟩ := ClientProcess.take_ok htake
    obtain ⟨hcarries, htold, hstate⟩ := h.carries.step hsend hother hstep
    have htold := htold hb
    cases hcalls with
    | connection told => exact absurd htold told
    | nothing _ result =>
      subst result
      exact h.keep rfl htells hcarries htold rfl rfl hstate
    | message _ _ result =>
      obtain ⟨unread, notices, rfl | hshut⟩ := ClientProcess.onMessage_ok result
      · exact h.keep rfl htells hcarries htold rfl rfl hstate
      · -- The hub has sent a line that is no message.
        obtain ⟨system', hstep', rfl⟩ := ClientProcess.take_ok hshut
        obtain ⟨hcarries', htold', hstate'⟩ := hcarries.step (by simp) (by simp) hstep'
        have hsame := (htold' (by simp)).trans htold
        refine h.keep rfl htells hcarries' hsame rfl rfl fun hsome hdown => ?_
        exact hstate' (by rwa [htold]) (hstate hsome hdown)

theorem Split.step (h : Split topic as heard late p) (hstep : step topic p a = .ok p') :
    ∃ heard' late', heard <+: heard' ∧ Split topic (as ++ [a]) heard' late' p' := by
  cases a with
  | loop b =>
    obtain ⟨client, hloop, hstep⟩ := bind_eq_ok.mp hstep
    cases hstep
    exact ⟨heard, late, List.prefix_rfl, h.loop hloop⟩
  | publish line =>
    obtain ⟨_, hen, hstep⟩ := bind_eq_ok.mp hstep
    cases hstep
    obtain ⟨late', h'⟩ := h.publish (ensure_eq_ok.mp hen).1
    exact ⟨heard, late', List.prefix_rfl, h'⟩
  | send =>
    rw [LinePublisher.step] at hstep
    split at hstep
    · cases hstep
    · rename_i line hhand
      exact h.send hhand hstep
  | disconnect =>
    obtain ⟨_, -, hstep⟩ := bind_eq_ok.mp hstep
    split at hstep
    · obtain ⟨client, htake, hstep⟩ := bind_eq_ok.mp hstep
      cases hstep
      exact ⟨heard, late, List.prefix_rfl,
        h.take rfl rfl (by simp) (by simp) (by simp) htake rfl rfl⟩
    · cases hstep
      exact ⟨heard, late, List.prefix_rfl,
        h.keep rfl rfl h.carries rfl rfl rfl fun _ hdown => hdown⟩
  | push | shutdownSet | shutdownPush =>
    obtain ⟨client, htake, hstep⟩ := bind_eq_ok.mp hstep
    cases hstep
    exact ⟨heard, late, List.prefix_rfl,
      h.take rfl rfl (by simp) (by simp) (by simp) htake rfl rfl⟩

theorem Split.run (h : Split topic as heard late p) {bs : List Action}
    (hrun : Lib.run (LinePublisher.step topic) p bs = .ok p') :
    ∃ heard' late', heard <+: heard' ∧ Split topic (as ++ bs) heard' late' p' := by
  refine run_history (J := fun bs p' => ∃ heard' late', heard <+: heard' ∧
    Split topic (as ++ bs) heard' late' p') ⟨heard, late, List.prefix_rfl, ?_⟩ ?_ hrun
  · rwa [List.append_nil]
  · rintro bs q a q' - ⟨heard', late', hmore, h'⟩ hstep
    obtain ⟨heard'', late'', hmore', h''⟩ := h'.step hstep
    exact ⟨heard'', late'', hmore.trans hmore', List.append_assoc .. ▸ h''⟩

theorem run_split (hrun : run (step topic) {} as = .ok p) :
    ∃ heard late, Split topic as heard late p := by
  obtain ⟨heard, late, -, h⟩ := split_init.run hrun
  exact ⟨heard, late, h⟩

/-- While the connection is connected no line is late, so the late ones were in hand then, or not
read yet. -/
theorem Split.late_suffix (h : Split topic as heard late p) {pre post : List Action}
    {q : LinePublisher} (has : pre ++ post = as)
    (hpre : Lib.run (LinePublisher.step topic) {} pre = .ok q)
    (hpost : Lib.run (LinePublisher.step topic) q post = .ok p)
    (hup : q.client.system.conn.state = .kConnected) :
    late ++ p.inHand.toList <:+ q.inHand.toList ++ lines post := by
  obtain ⟨heard₀, late₀, h₀⟩ := run_split hpre
  have hlate₀ : late₀ = [] := by
    by_contra hlate
    exact (h₀.late hlate).2 hup
  subst hlate₀
  have hheard : heard₀.length ≤ heard.length := by
    obtain ⟨heard', late', hmore, h'⟩ := h₀.run hpost
    have hsame := h'.carries.carried.symm.trans h.carries.carried
    have hlength := congrArg List.length hsame
    rw [List.length_map, List.length_map] at hlength
    exact hlength ▸ hmore.length_le
  have hall := h.all
  rw [← has, lines_append, h₀.all, has, List.append_nil] at hall
  have hbefore : (linesBefore pre).length ≤ (linesBefore as).length :=
    has ▸ (linesBefore_append pre post).length_le
  have hlength := congrArg List.length hall
  simp only [List.length_append] at hlength
  have hlost : late ++ p.inHand.toList <:+ lines as :=
    ⟨linesBefore as ++ heard, by rw [h.all]; simp⟩
  have hafter : q.inHand.toList ++ lines post <:+ lines as :=
    ⟨linesBefore pre ++ heard₀, by rw [← has, lines_append, h₀.all]; simp⟩
  refine List.suffix_of_suffix_length_le hlost hafter ?_
  simp only [List.length_append]
  omega

/-- `getline` ends a line in front of the LF. -/
theorem run_plain (hrun : run (step topic) {} as = .ok p) : ∀ line ∈ lines as, LF ∉ line := by
  refine run_history (J := fun as _ => ∀ line ∈ lines as, LF ∉ line) (by simp [lines]) ?_ hrun
  intro as p a p' _ hplain hstep line hline
  rw [lines_concat, List.mem_append] at hline
  rcases hline with hline | hline
  · exact hplain line hline
  · cases a with
    | publish line' =>
      obtain ⟨_, hen, -⟩ := bind_eq_ok.mp hstep
      have hsame : line = line' := by simpa [Action.line] using hline
      rw [hsame]
      exact (ensure_eq_ok.mp hen).2
    | _ => simp [Action.line] at hline

/-! ## What the hub hears -/

/-- Without messages of the loop all are those of the main thread. -/
theorem messagesOf_main {l : List (Option Unit × Bytes)} (h : messagesOf none l = []) :
    messagesOf (some ()) l = l.map Prod.snd := by
  induction l with
  | nil => rfl
  | cons e l ih =>
    obtain ⟨_ | _, message⟩ := e
    · simp [messagesOf] at h
    · have hl : messagesOf none l = [] := by simpa [messagesOf] using h
      have hmain := ih hl
      rw [messagesOf] at hmain ⊢
      simp [hmain]

/-- The messages of the lines that were passed on. -/
def messages (topic : Bytes) (heard : List Bytes) : List Message := heard.map (.publish topic)

theorem Carries.accepted (h : Carries topic heard s) :
    s.conn.record.accepted <+: Message.encodeAll (messages topic heard) := by
  have hnone : messagesOf none s.executed = [] := by
    rw [h.ordered.loop, h.sent]
    simp [messagesOf]
  have hmain := h.ordered.others ()
  have hsent : messagesOf (some ()) s.sent = heard.map (PubSubClient.publish topic) := by
    rw [h.sent]
    simp [messagesOf]
  have hwhole := h.whole
  rw [Whole, ← messagesOf_main hnone] at hwhole
  have hall : Message.encodeAll (messages topic heard) =
      (heard.map (PubSubClient.publish topic)).flatten := by
    rw [Message.encodeAll, List.flatMap_def, messages, List.map_map]
    rfl
  rw [hall, ← hsent, ← hmain, List.append_assoc, List.flatten_append, ← hwhole, List.append_assoc]
  exact List.prefix_append _ _

theorem hubCalls_messages (topic : Bytes) (heard : List Bytes) :
    (messages topic heard).flatMap (fun m => m.frame.hubCalls) =
      heard.map (HubCall.doPublish topic) := by
  induction heard with
  | nil => rfl
  | cons line heard ih =>
    rw [messages, List.map_cons, List.flatMap_cons, ← messages, ih]
    rfl

/-- In every run a line is lost only if it was read before the connection callback, or if it was in
hand or not read yet whenever the connection was connected. The messages of the others are carried,
each once and in order, and the kernel has accepted a first part of them; however that is cut, the
hub publishes the lines that it has, in order. -/
theorem lines_lost_only_at_the_ends (hrun : run (step topic) {} as = .ok p) :
    ∃ heard late,
      lines as = linesBefore as ++ heard ++ late ++ p.inHand.toList ∧
      (∀ pre post q, pre ++ post = as → run (step topic) {} pre = .ok q →
        q.client.system.conn.state = .kConnected →
          late ++ p.inHand.toList <:+ q.inHand.toList ++ lines post) ∧
      p.carried = heard.map (PubSubClient.publish topic) ∧
      p.client.system.conn.record.accepted <+: Message.encodeAll (messages topic heard) ∧
      (¬ HasCRLF topic → ∀ chunks made rest,
        chunks.flatten <+: p.client.system.conn.record.accepted →
        deliver HubServer.onMessage [] chunks = .ok (made, rest) →
          made <+: heard.map (HubCall.doPublish topic) ∧
          (chunks.flatten = Message.encodeAll (messages topic heard) →
            made = heard.map (HubCall.doPublish topic))) := by
  obtain ⟨heard, late, h⟩ := run_split hrun
  refine ⟨heard, late, h.all, fun pre post q has hpre hup => ?_, h.carries.carried,
    h.carries.accepted, ?_⟩
  · obtain ⟨q', hpre', hpost⟩ := run_append_ok.mp (has ▸ hrun)
    cases hpre.symm.trans hpre'
    exact h.late_suffix has hpre hpost hup
  · intro htopic chunks made rest hchunks hdeliver
    have hsep : ∀ m ∈ messages topic heard, m.Separable := by
      intro m hm
      obtain ⟨line, hline, rfl⟩ := List.mem_map.mp hm
      have hread : line ∈ lines as := by simp [h.all, hline]
      refine ⟨htopic, fun hcrlf => run_plain hrun line hread ?_⟩
      exact hcrlf.subset (by simp)
    have hheard := messages_heard hsep (hchunks.trans h.carries.accepted) hdeliver
    rwa [hubCalls_messages] at hheard

/-- The first line is read too early, and the third is in hand when the connection is closed. -/
theorem lines_lost_only_at_the_ends_sample :
    ∃ p heard late, run (step [116]) {} [.publish [97],
        .loop ⟨.connectionEstablished, [], fun _ => 0⟩, .loop ⟨.connectionCallback, [], fun _ => 0⟩,
        .publish [98], .send, .push, .loop ⟨.pollOther, [], fun _ => 0⟩,
        .loop ⟨.doPendingFunctor, [], fun _ => 0⟩, .loop ⟨.runFunctor 7, [], fun _ => 0⟩,
        .loop ⟨.endPass, [], fun _ => 0⟩, .publish [99],
        .loop ⟨.poll Net.POLLIN .eof, [], fun _ => 0⟩, .loop ⟨.handleEvent 0, [], fun _ => 0⟩,
        .send] = .ok p ∧
      [[97], [98], [99]] = [[97]] ++ heard ++ late ∧ late = [[99]] ∧
      p.client.system.conn.record.accepted <+: Message.encodeAll (messages [116] heard) := by
  have hend : endsIn (step [116]) (fun p => decide (p.inHand = none ∧
      p.carried = [PubSubClient.publish [116] [98]])) {} [.publish [97],
        .loop ⟨.connectionEstablished, [], fun _ => 0⟩, .loop ⟨.connectionCallback, [], fun _ => 0⟩,
        .publish [98], .send, .push, .loop ⟨.pollOther, [], fun _ => 0⟩,
        .loop ⟨.doPendingFunctor, [], fun _ => 0⟩, .loop ⟨.runFunctor 7, [], fun _ => 0⟩,
        .loop ⟨.endPass, [], fun _ => 0⟩, .publish [99],
        .loop ⟨.poll Net.POLLIN .eof, [], fun _ => 0⟩, .loop ⟨.handleEvent 0, [], fun _ => 0⟩,
        .send] = true := by decide +kernel
  obtain ⟨p, hrun, hp⟩ := endsIn_iff.mp hend
  obtain ⟨hhand, hcarried⟩ := of_decide_eq_true hp
  obtain ⟨heard, late, hlines, -, hheard, haccepted, -⟩ := lines_lost_only_at_the_ends hrun
  rw [hhand] at hlines
  have hall : [[97], [98], [99]] = [[97]] ++ heard ++ late := hlines.trans (List.append_nil _)
  have hone : heard.length = 1 := by
    rw [← List.length_map (f := PubSubClient.publish [116]), ← hheard, hcarried]
    rfl
  obtain ⟨line, rfl⟩ := List.length_eq_one_iff.mp hone
  simp at hall
  exact ⟨p, [line], late, hrun, by simp [hall], hall.2.symm, haccepted⟩

end LinePublisher

end Summer.Hub
