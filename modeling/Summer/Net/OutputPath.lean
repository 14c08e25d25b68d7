import Summer.Net.BufferAppend
import Summer.Net.ConnectionInvariant

/-!
# The output path of a connection

A connection as in its runs, with the output buffer that the source has in place of an ideal queue.
Only `sendInLoop` and `handleWrite` use the buffer. What they ask of it, it does, except for an
`append` that its test and its `makespace` leave without room.
-/
namespace Summer.Net

open Summer.Lib TcpConnection

/-- The `outputBuffer` of `system.conn` is not used. -/
structure BufferedSystem (T : Type) where
  system : ConnectionSystem T
  outputBuffer : Buffer := .init

/-! ## The connection and its queue -/

namespace TcpConnection

variable {T : Type}

def withOutput (c : TcpConnection T) (q : Bytes) : TcpConnection T := { c with outputBuffer := q }

variable (c : TcpConnection T) (q : Bytes)

@[simp] theorem withOutput_outputBuffer : (c.withOutput q).outputBuffer = q := rfl

@[simp] theorem withOutput_isWriting : (c.withOutput q).isWriting = c.isWriting := rfl

theorem withOutput_wrote (message : Bytes) (nwrite : Int) :
    (c.withOutput q).wrote message nwrite = (c.wrote message nwrite).withOutput q := rfl

theorem withOutput_queueWriteComplete :
    (c.withOutput q).queueWriteComplete = c.queueWriteComplete.withOutput q := by
  unfold queueWriteComplete
  split <;> simp_all [withOutput, queueInLoop]

theorem withOutput_update :
    (c.withOutput q).update = c.update >>= fun c => .ok (c.withOutput q) := by
  unfold update
  show (c.poller.updateChannel c.channel >>= _) = _
  cases c.poller.updateChannel c.channel <;> rfl

theorem withOutput_enableWriting :
    (c.withOutput q).enableWriting = c.enableWriting >>= fun c => .ok (c.withOutput q) :=
  withOutput_update (c.setEvents (c.channel.events ||| kWriteEvent)) q

theorem withOutput_disableWriting :
    (c.withOutput q).disableWriting = c.disableWriting >>= fun c => .ok (c.withOutput q) :=
  withOutput_update (c.setEvents (c.channel.events &&& ~~~kWriteEvent)) q

end TcpConnection

/-! ## The functions that use the buffer -/

namespace BufferedSystem

variable {T : Type}

/-- `sendInLoop`; the `outputBuffer` of `c` is not used. -/
def sendInLoop (c : TcpConnection T) (b : Buffer) (message : Bytes) (nwrite : Int) :
    Except Fault (TcpConnection T × Buffer) := do
  let (nwrite, c) ← (if c.isWriting = false ∧ b.readableBytes = 0 then do
      let c ← c.write message nwrite
      if 0 ≤ nwrite then
        if nwrite < message.length then .ok (nwrite, c) else .ok (nwrite, c.queueWriteComplete)
      else .ok (0, c)
    else .ok (0, c))
  ensure (0 ≤ nwrite) (.assertion .sendInLoop)
  if nwrite < message.length then do
    let b ← b.append (message.drop nwrite.toNat)
    if c.isWriting = false then do
      let c ← c.enableWriting
      .ok (c, b)
    else .ok (c, b)
  else .ok (c, b)

/-- `handleWrite`; the `outputBuffer` of `c` is not used. -/
def handleWrite (c : TcpConnection T) (b : Buffer) (nwrite : Int) :
    Except Fault (TcpConnection T × Buffer) :=
  if c.isWriting = true then do
    let peek ← Buffer.readRange b.buffer b.readIndex (b.readIndex + b.readableBytes)
    let c ← c.write peek nwrite
    if 0 < nwrite then do
      let b ← b.retrieve nwrite.toNat
      if b.readableBytes = 0 then do
        let c ← c.disableWriting
        let c := c.queueWriteComplete
        .ok (if c.state = .kDisconnecting then c.shutdown else c, b)
      else .ok (c, b)
    else .ok (c, b)
  else .ok (c, b)

/-- The connection with the unread bytes of the buffer as its queue. -/
def view (s : BufferedSystem T) : ConnectionSystem T :=
  { s.system with conn := s.system.conn.withOutput s.outputBuffer.unread }

variable [DecidableEq T]

/-- The steps that do not use the buffer. -/
def other (s : BufferedSystem T) (a : ConnectionSystem.Action T) :
    Except Fault (BufferedSystem T) := do
  let system ← s.view.step a
  .ok { s with system := system }

def step (s : BufferedSystem T) (a : ConnectionSystem.Action T) :
    Except Fault (BufferedSystem T) :=
  match a, s.system.phase with
  | .send argument nwrite, _ => do
    ensure s.system.Free .notEnabled
    if s.system.conn.state = .kConnected then do
      let (conn, outputBuffer) ←
        sendInLoop s.system.conn s.outputBuffer argument.message nwrite
      .ok ⟨{ s.system with
        conn := conn
        sent := s.system.sent ++ [(none, argument.message)]
        executed := s.system.executed ++ [(none, argument.message)] }, outputBuffer⟩
    else .ok s
  | .runFunctor nwrite, .running (.sendInLoop sender message :: functors) => do
    ensure s.system.Free .notEnabled
    let (conn, outputBuffer) ← sendInLoop s.system.conn s.outputBuffer message nwrite
    .ok ⟨{ s.system with
      conn := conn
      phase := .running functors
      executed := s.system.executed ++ [(some sender, message)] }, outputBuffer⟩
  | .handleEvent nwrite, .handling (.writeCallback :: callbacks) read => do
    ensure s.system.Free .notEnabled
    let (conn, outputBuffer) ← handleWrite s.system.conn s.outputBuffer nwrite
    .ok ⟨{ s.system with conn := conn, phase := .handling callbacks read }, outputBuffer⟩
  | a, _ => s.other a

def init (owner : Owner) (writeComplete : Bool) : BufferedSystem T where
  system := .init owner writeComplete

end BufferedSystem

/-! ## The buffer and the queue -/

namespace Buffer

variable {b c : Buffer} {q data : Bytes}

theorem Represents.readableBytes_eq (hr : Represents b q) : b.readableBytes = q.length := by
  have hread := hr.readable_cast
  have hlen := hr.unread_length
  rw [hr.contents] at hlen
  omega

theorem Represents.peek (hr : Represents b q) :
    readRange b.buffer b.readIndex (b.readIndex + b.readableBytes) = .ok q := by
  have hread := hr.readable_cast
  have hend : b.readIndex + b.readableBytes = b.writeIndex := by omega
  rw [readRange, hend, ensure_of ⟨hr.read_nonneg, hr.read_le_write, hr.write_le_size⟩, ok_bind,
    ← hr.contents, unread]

theorem Represents.retrieve_ok (hr : Represents b q) {len : Nat} (hlen : len ≤ q.length) :
    ∃ c, b.retrieve len = .ok c ∧ Represents c (q.drop len) := by
  rcases retrieve_represents hr len with herr | h
  · rw [retrieve, hr.readableBytes_eq, ensure_of hlen] at herr
    cases herr
  · exact h

/-- The buffer has room for the data behind its unread bytes. -/
def Takes (b : Buffer) (data : Bytes) : Prop := Room b data.length ∧ AppendFits b data.length

instance (b : Buffer) (data : Bytes) : Decidable (b.Takes data) :=
  inferInstanceAs (Decidable (_ ∧ _))

theorem Represents.append_of_takes (hr : Represents b q) (ht : b.Takes data) :
    ∃ c, b.append data = .ok c ∧ Represents c (q ++ data) := by
  rcases append_represents hr ht.2 with herr | h
  · have hlen : data.length < 2 ^ 63 := by
      have hplace := ht.2.2
      have hcheap := hr.cheap_le_write
      unfold place at hplace
      split at hplace <;> omega
    exact absurd ht.1 ((append_aborts_iff hr.toValid hlen).mp ⟨_, herr⟩)
  · exact h

/-- Data that was appended as it should be was taken. -/
theorem Represents.takes_of_append (hr : Represents b q) (hok : b.append data = .ok c)
    (hc : c.Valid) (hu : c.unread = q ++ data) : b.Takes data := by
  rw [← hr.contents] at hu
  have hlen : data.length < 2 ^ 63 := by
    have hunread := hc.unread_length
    have h0 := hc.read_nonneg
    have hsize := hc.write_le_size
    have hmax := hc.size_le
    rw [hu, List.length_append] at hunread
    unfold maxSize at hmax
    omega
  refine ⟨?_, appendFits_of_valid hr.toValid hlen hok hc hu⟩
  by_contra hroom
  obtain ⟨site, herr⟩ := (append_aborts_iff hr.toValid hlen).mpr hroom
  cases hok.symm.trans herr

end Buffer

namespace BufferedSystem

variable {T : Type} {c : TcpConnection T} {b : Buffer} {q message : Bytes} {nwrite : Int}

/-- `sendInLoop` behind queued output. -/
theorem sendInLoop_busy (h : ¬ (c.isWriting = false ∧ b.readableBytes = 0)) :
    sendInLoop c b message nwrite =
      if message = [] then .ok (c, b)
      else b.append message >>= fun b =>
        if c.isWriting = false then c.enableWriting >>= fun c => .ok (c, b) else .ok (c, b) := by
  rw [sendInLoop, if_neg h, ok_bind]
  dsimp only
  rw [ensure_of le_rfl, ok_bind]
  by_cases hm : message = []
  · rw [if_pos hm, if_neg (by rw [hm]; exact lt_irrefl 0)]
  · rw [if_neg hm, if_pos (by have := List.length_pos_iff.mpr hm; omega)]
    rfl

/-- `sendInLoop` on an idle connection. -/
theorem sendInLoop_free (h : c.isWriting = false ∧ b.readableBytes = 0)
    (hn : nwrite ≤ message.length) :
    sendInLoop c b message nwrite =
      if nwrite.toNat < message.length then
        b.append (message.drop nwrite.toNat) >>= fun b =>
          (c.wrote message nwrite).enableWriting >>= fun c => .ok (c, b)
      else if 0 ≤ nwrite then .ok ((c.wrote message nwrite).queueWriteComplete, b)
      else .ok (c.wrote message nwrite, b) := by
  have hw : (c.wrote message nwrite).isWriting = false := h.1
  rw [sendInLoop, if_pos h, write_of hn, ok_bind]
  by_cases h0 : 0 ≤ nwrite
  · rw [if_pos h0]
    by_cases hlt : nwrite < message.length
    · rw [if_pos hlt, ok_bind]
      dsimp only
      rw [ensure_of h0, ok_bind, if_pos hlt, if_pos (by omega)]
      simp only [hw, ↓reduceIte]
    · rw [if_neg hlt, ok_bind]
      dsimp only
      rw [ensure_of h0, ok_bind, if_neg hlt, if_neg (by omega), if_pos h0]
  · have hz : nwrite.toNat = 0 := by omega
    rw [if_neg h0, ok_bind]
    dsimp only
    rw [ensure_of le_rfl, ok_bind, if_neg h0, hz]
    by_cases hlt : (0 : Int) < message.length
    · rw [if_pos hlt, if_pos (by omega)]
      simp only [hw, ↓reduceIte]
      rfl
    · rw [if_neg hlt, if_neg (by omega)]

/-- What `sendInLoop` leaves for the output buffer. -/
def unsent (c : TcpConnection T) (message : Bytes) (nwrite : Int) : Bytes :=
  if c.Idle then message.drop nwrite.toNat else message

/-- The buffer after the `append` there may be. -/
def Appended (b : Buffer) (data : Bytes) (b' : Buffer) : Prop :=
  data = [] ∧ b' = b ∨ data ≠ [] ∧ b.append data = .ok b'

/-- With the buffer that the `append` leaves, `sendInLoop` does what it does with a queue. -/
theorem sendInLoop_view (hr : b.Represents q) {b' : Buffer}
    (happend : Appended b (unsent (c.withOutput q) message nwrite) b') :
    (c.withOutput q).sendInLoop message nwrite =
      (sendInLoop c b message nwrite >>= fun r => .ok (r.1.withOutput
        (q ++ unsent (c.withOutput q) message nwrite))) ∧
    ∀ r, sendInLoop c b message nwrite = .ok r → r.2 = b' := by
  have hempty : b.readableBytes = 0 ↔ q = [] := by
    rw [hr.readableBytes_eq, List.length_eq_zero_iff]
  by_cases hidle : c.isWriting = false ∧ q = []
  · have hfree : c.isWriting = false ∧ b.readableBytes = 0 := ⟨hidle.1, hempty.mpr hidle.2⟩
    have hunsent : unsent (c.withOutput q) message nwrite = message.drop nwrite.toNat :=
      if_pos hidle
    rw [hunsent] at happend ⊢
    by_cases hn : nwrite ≤ message.length
    · rw [TcpConnection.sendInLoop_idle (c := c.withOutput q) hidle.1 hidle.2 hn,
        sendInLoop_free hfree hn]
      by_cases hpart : nwrite.toNat < message.length
      · have hne : message.drop nwrite.toNat ≠ [] := by
          rw [ne_eq, List.drop_eq_nil_iff]
          omega
        obtain ⟨hnil, -⟩ | ⟨-, hok⟩ := happend
        · exact absurd hnil hne
        · rw [if_pos hpart, if_pos hpart, hok, ok_bind]
          have hview : ((c.withOutput q).wrote message nwrite).appendOutput
              (message.drop nwrite.toNat) =
                (c.wrote message nwrite).withOutput (q ++ message.drop nwrite.toNat) := rfl
          rw [hview, withOutput_enableWriting]
          refine ⟨by cases (c.wrote message nwrite).enableWriting <;> rfl, fun r hres => ?_⟩
          obtain ⟨d, -, hres⟩ := bind_eq_ok.mp hres
          cases hres
          rfl
      · have hnil : message.drop nwrite.toNat = [] :=
          List.drop_eq_nil_iff.mpr (Nat.le_of_not_lt hpart)
        have hb' : b' = b := by
          obtain ⟨-, hb'⟩ | ⟨hne, -⟩ := happend
          · exact hb'
          · exact absurd hnil hne
        rw [if_neg hpart, if_neg hpart, hnil, List.append_nil]
        split
        · refine ⟨?_, fun r hres => by cases hres; exact hb'.symm⟩
          rw [withOutput_wrote, withOutput_queueWriteComplete]
          rfl
        · exact ⟨rfl, fun r hres => by cases hres; exact hb'.symm⟩
    · have hbad : sendInLoop c b message nwrite = .error .notEnabled := by
        rw [sendInLoop, if_pos hfree, write, ensure_of_not hn]
        rfl
      rw [TcpConnection.sendInLoop_impossible (c := c.withOutput q) hidle.1 hidle.2 hn, hbad]
      exact ⟨rfl, fun r hres => by cases hres⟩
  · have hbusy : ¬ (c.isWriting = false ∧ b.readableBytes = 0) := by
      rw [hempty]
      exact hidle
    have hunsent : unsent (c.withOutput q) message nwrite = message := if_neg hidle
    rw [hunsent] at happend ⊢
    rw [TcpConnection.sendInLoop_behind hidle, sendInLoop_busy hbusy]
    obtain ⟨hnil, rfl⟩ | ⟨hne, hok⟩ := happend
    · rw [if_pos hnil, if_pos hnil, hnil, List.append_nil]
      exact ⟨rfl, fun r hres => by cases hres; rfl⟩
    · rw [if_neg hne, if_neg hne, hok, ok_bind]
      have hview : (c.withOutput q).appendOutput message = c.withOutput (q ++ message) := rfl
      rw [hview, withOutput_enableWriting, withOutput_isWriting]
      split
      · refine ⟨by cases c.enableWriting <;> rfl, fun r hres => ?_⟩
        obtain ⟨d, -, hres⟩ := bind_eq_ok.mp hres
        cases hres
        rfl
      · exact ⟨rfl, fun r hres => by cases hres; rfl⟩

/-- `sendInLoop` does what it does with a queue if the buffer takes what is unsent. -/
theorem sendInLoop_takes (hr : b.Represents q)
    (hfits : unsent (c.withOutput q) message nwrite ≠ [] →
      b.Takes (unsent (c.withOutput q) message nwrite)) :
    (c.withOutput q).sendInLoop message nwrite =
      (sendInLoop c b message nwrite >>= fun r => .ok (r.1.withOutput r.2.unread)) ∧
    ∀ r, sendInLoop c b message nwrite = .ok r → ∃ q', r.2.Represents q' := by
  obtain ⟨b', happend, hr'⟩ : ∃ b', Appended b (unsent (c.withOutput q) message nwrite) b' ∧
      b'.Represents (q ++ unsent (c.withOutput q) message nwrite) := by
    by_cases hnil : unsent (c.withOutput q) message nwrite = []
    · rw [hnil, List.append_nil]
      exact ⟨b, .inl ⟨rfl, rfl⟩, hr⟩
    · obtain ⟨b', hok, hr'⟩ := hr.append_of_takes (hfits hnil)
      exact ⟨b', .inr ⟨hnil, hok⟩, hr'⟩
  obtain ⟨hview, hbuffer⟩ := sendInLoop_view hr happend
  refine ⟨?_, fun r hres => ⟨_, (hbuffer r hres).symm ▸ hr'⟩⟩
  rw [hview]
  cases hsend : sendInLoop c b message nwrite with
  | error f => rfl
  | ok r =>
    rw [ok_bind, ok_bind, hbuffer r hsend, hr'.contents]

/-- `handleWrite` does what it does with a queue. -/
theorem handleWrite_view (hr : b.Represents q) (c : TcpConnection T) (nwrite : Int) :
    (c.withOutput q).handleWrite nwrite =
      (handleWrite c b nwrite >>= fun r => .ok (r.1.withOutput r.2.unread)) ∧
    ∀ r, handleWrite c b nwrite = .ok r → ∃ q', r.2.Represents q' := by
  by_cases hw : c.isWriting = true
  · by_cases hn : nwrite ≤ q.length
    · have hideal := TcpConnection.handleWrite_writing (c := c.withOutput q) hw hn
      rw [hideal, handleWrite, if_pos hw, hr.peek, ok_bind, write_of hn, ok_bind]
      have hdrained : (c.withOutput q).drained nwrite =
          (c.wrote q nwrite).withOutput (q.drop nwrite.toNat) := rfl
      rw [hdrained, withOutput_outputBuffer]
      by_cases h0 : 0 < nwrite
      · have htaken : nwrite.toNat ≤ q.length := by omega
        obtain ⟨b', hretrieve, hr'⟩ := hr.retrieve_ok htaken
        have hempty : b'.readableBytes = 0 ↔ q.drop nwrite.toNat = [] := by
          rw [hr'.readableBytes_eq, List.length_eq_zero_iff]
        rw [if_pos h0, hretrieve, ok_bind]
        by_cases hlast : q.drop nwrite.toNat = []
        · rw [if_pos ⟨h0, hlast⟩, if_pos (hempty.mpr hlast), withOutput_disableWriting]
          have hstays (d : TcpConnection T) :
              (if d.state = .kDisconnecting then d.shutdown else d) = d := by
            split
            · rename_i hstate
              exact shutdown_of_ne (by rw [hstate]; decide)
            · rfl
          cases hd : (c.wrote q nwrite).disableWriting with
          | error f => exact ⟨rfl, fun r hres => by cases hres⟩
          | ok d =>
            simp only [ok_bind, hstays]
            refine ⟨?_, fun r hres => ?_⟩
            · rw [withOutput_queueWriteComplete, hr'.contents]
            · cases hres
              exact ⟨_, hr'⟩
        · rw [if_neg fun h => hlast h.2, if_neg (mt hempty.mp hlast), ok_bind]
          refine ⟨?_, fun r hres => ?_⟩
          · rw [hr'.contents]
          · cases hres
            exact ⟨_, hr'⟩
      · have hz : nwrite.toNat = 0 := by omega
        rw [if_neg fun h => h0 h.1, if_neg h0, hz, List.drop_zero, ok_bind, hr.contents]
        refine ⟨rfl, fun r hres => ?_⟩
        cases hres
        exact ⟨_, hr⟩
    · have hbad : handleWrite c b nwrite = .error .notEnabled := by
        rw [handleWrite, if_pos hw, hr.peek, ok_bind, write, ensure_of_not hn]
        rfl
      rw [TcpConnection.handleWrite_impossible (c := c.withOutput q) hw hn, hbad]
      exact ⟨rfl, fun r hres => by cases hres⟩
  · have hnot : c.isWriting = false := eq_false_of_ne_true hw
    rw [TcpConnection.handleWrite_idle (c := c.withOutput q) hnot, handleWrite, if_neg hw, ok_bind,
      hr.contents]
    refine ⟨rfl, fun r hres => ?_⟩
    cases hres
    exact ⟨_, hr⟩

/-- What is unsent goes to the output buffer. -/
theorem sendInLoop_appends (hr : b.Represents q) {r : TcpConnection T × Buffer}
    (hne : unsent (c.withOutput q) message nwrite ≠ [])
    (h : sendInLoop c b message nwrite = .ok r) :
    b.append (unsent (c.withOutput q) message nwrite) = .ok r.2 := by
  have hempty : b.readableBytes = 0 ↔ q = [] := by
    rw [hr.readableBytes_eq, List.length_eq_zero_iff]
  by_cases hidle : c.isWriting = false ∧ q = []
  · have hfree : c.isWriting = false ∧ b.readableBytes = 0 := ⟨hidle.1, hempty.mpr hidle.2⟩
    have hunsent : unsent (c.withOutput q) message nwrite = message.drop nwrite.toNat :=
      if_pos hidle
    rw [hunsent, ne_eq, List.drop_eq_nil_iff] at hne
    rw [sendInLoop_free hfree (by omega), if_pos (by omega)] at h
    obtain ⟨b', happend, h⟩ := bind_eq_ok.mp h
    obtain ⟨d, -, h⟩ := bind_eq_ok.mp h
    cases h
    rw [hunsent, happend]
  · have hbusy : ¬ (c.isWriting = false ∧ b.readableBytes = 0) := by
      rw [hempty]
      exact hidle
    have hunsent : unsent (c.withOutput q) message nwrite = message := if_neg hidle
    rw [hunsent] at hne
    rw [sendInLoop_busy hbusy, if_neg hne] at h
    obtain ⟨b', happend, h⟩ := bind_eq_ok.mp h
    rw [hunsent, happend]
    split at h
    · obtain ⟨d, -, h⟩ := bind_eq_ok.mp h
      cases h
      rfl
    · cases h
      rfl

/-- The queue gets what is unsent. -/
theorem queue_sendInLoop {d : TcpConnection T} (h : c.sendInLoop message nwrite = .ok d) :
    d.outputBuffer = c.outputBuffer ++ unsent c message nwrite := by
  rw [unsent]
  cases sendInLoop_cases h with
  | whole hidle hall hd =>
    rw [if_pos hidle, hd, queueWriteComplete_frame, hall, Int.toNat_natCast, List.drop_length,
      List.append_nil]
    rfl
  | rest hidle _ hd =>
    rw [if_pos hidle, update_ok hd]
    rfl
  | failed hidle _ hempty hd =>
    rw [if_pos hidle, hd, hempty, List.drop_nil, List.append_nil]
    rfl
  | nothing hbusy hempty hd => rw [if_neg hbusy, hd, hempty, List.append_nil]
  | watched hbusy _ hd =>
    rw [if_neg hbusy, update_ok hd]
    rfl
  | appended hbusy _ _ hd =>
    rw [if_neg hbusy, hd]
    rfl

end BufferedSystem

/-! ## Steps -/

namespace ConnectionSystem

variable {T : Type} [DecidableEq T] {s s' : ConnectionSystem T} {a : Action T}

/-- The step calls neither `sendInLoop` nor `handleWrite`. -/
def UsesNoOutput (s : ConnectionSystem T) (a : Action T) : Prop :=
  (∀ argument n, a ≠ .send argument n) ∧
  (∀ n, a = .runFunctor n → ∀ t message fs, s.phase ≠ .running (.sendInLoop t message :: fs)) ∧
  ∀ n, a = .handleEvent n → ∀ fs read, s.phase ≠ .handling (.writeCallback :: fs) read

theorem UsesNoOutput.kept {owner : Owner} {w : Bool} (hlive : s = init owner w ∨ s.Live)
    (h : UsesNoOutput s a) (hstep : step s a = .ok s') :
    s'.conn.outputBuffer = s.conn.outputBuffer := by
  obtain ⟨hsend, hrun, hdrain⟩ := h
  rcases hlive with rfl | hlive
  · rcases first_step hstep with rfl | rfl <;> rfl
  cases moves_of_step hlive.state hstep with
  | passes hp =>
    obtain ⟨loop, revents, phase, rfl⟩ := hp.frame
    rfl
  | close _ _ _ hclose => exact (handleClose_spec hclose).outputBuffer
  | drain _ hphase _ => exact absurd hphase (hdrain _ rfl _ _)
  | destroy _ _ hdestroy =>
    obtain ⟨-, rfl⟩ := connectionDestroyed_ok hlive.state hdestroy
    rfl
  | runSend _ hphase _ => exact absurd hphase (hrun _ rfl _ _ _)
  | runShutdown _ _ => exact (shutdownInLoop_spec s.conn).outputBuffer
  | send _ _ _ => exact absurd rfl (hsend _ _)
  | shutdown _ _ => exact (shutdown_spec s.conn).outputBuffer
  | notify _ | otherSend _ _ | otherSendPush _ | otherShutdown _ _ _ | otherShutdownSet _
  | otherShutdownPush _ | otherFunctor | baseRemove _ _ => rfl

end ConnectionSystem

namespace BufferedSystem

variable {T : Type} [DecidableEq T] {s s' : BufferedSystem T} {a : ConnectionSystem.Action T}

/-- What the step has `sendInLoop` leave for the output buffer. -/
def appended (s : BufferedSystem T) (a : ConnectionSystem.Action T) : Bytes :=
  match a, s.system.phase with
  | .send argument nwrite, _ =>
    if s.system.conn.state = .kConnected then unsent s.view.conn argument.message nwrite else []
  | .runFunctor nwrite, .running (.sendInLoop _ message :: _) =>
    unsent s.view.conn message nwrite
  | _, _ => []

/-- The buffer takes what the step appends. -/
def Fits (s : BufferedSystem T) (a : ConnectionSystem.Action T) : Prop :=
  s.appended a ≠ [] → s.outputBuffer.Takes (s.appended a)

instance (s : BufferedSystem T) (a : ConnectionSystem.Action T) : Decidable (Fits s a) :=
  inferInstanceAs (Decidable (_ → _))

/-- The buffer holds its unread bytes. -/
def Sound (s : BufferedSystem T) : Prop := s.outputBuffer.Represents s.outputBuffer.unread

/-- The three actions that use the buffer, and the others. -/
theorem step_cases (s : BufferedSystem T) (a : ConnectionSystem.Action T) :
    (∃ argument n, a = .send argument n) ∨
    (∃ n t message fs, a = .runFunctor n ∧
      s.system.phase = .running (.sendInLoop t message :: fs)) ∨
    (∃ n fs read, a = .handleEvent n ∧ s.system.phase = .handling (.writeCallback :: fs) read) ∨
    (ConnectionSystem.UsesNoOutput s.view a ∧ step s a = s.other a ∧ s.appended a = []) := by
  have hview : s.view.phase = s.system.phase := rfl
  cases a with
  | send argument n => exact .inl ⟨argument, n, rfl⟩
  | runFunctor n =>
    cases hphase : s.system.phase with
    | running fs =>
      cases fs with
      | nil =>
        refine .inr (.inr (.inr ⟨⟨by simp, ?_, by simp⟩, by simp [step, hphase],
          by simp [appended, hphase]⟩))
        simp [hview, hphase]
      | cons f fs =>
        cases f with
        | sendInLoop t message => exact .inr (.inl ⟨n, t, message, fs, rfl, rfl⟩)
        | _ =>
          refine .inr (.inr (.inr ⟨⟨by simp, ?_, by simp⟩, by simp [step, hphase],
            by simp [appended, hphase]⟩))
          simp [hview, hphase]
    | _ =>
      refine .inr (.inr (.inr ⟨⟨by simp, ?_, by simp⟩, by simp [step, hphase],
        by simp [appended, hphase]⟩))
      simp [hview, hphase]
  | handleEvent n =>
    cases hphase : s.system.phase with
    | handling callbacks read =>
      cases callbacks with
      | nil =>
        refine .inr (.inr (.inr ⟨⟨by simp, by simp, ?_⟩, by simp [step, hphase],
          by simp [appended]⟩))
        simp [hview, hphase]
      | cons callback callbacks =>
        cases callback with
        | writeCallback => exact .inr (.inr (.inl ⟨n, callbacks, read, rfl, rfl⟩))
        | _ =>
          refine .inr (.inr (.inr ⟨⟨by simp, by simp, ?_⟩, by simp [step, hphase],
            by simp [appended]⟩))
          simp [hview, hphase]
    | _ =>
      refine .inr (.inr (.inr ⟨⟨by simp, by simp, ?_⟩, by simp [step, hphase],
        by simp [appended]⟩))
      simp [hview, hphase]
  | _ =>
    exact .inr (.inr (.inr ⟨⟨by simp, by simp, by simp⟩, by simp [step], by simp [appended]⟩))

omit [DecidableEq T] in
theorem sound_of_represents {q : Bytes} (h : s.outputBuffer.Represents q) : Sound s := by
  have hunread := h.contents
  rw [← hunread] at h
  exact h

omit [DecidableEq T] in
/-- A step that uses the buffer: the connection in its state is replaced. -/
theorem bind_view {x : Except Fault (TcpConnection T × Buffer)} {y : Except Fault (TcpConnection T)}
    {k : TcpConnection T → ConnectionSystem T}
    (hk : ∀ c q, (k c).conn = c ∧ k (c.withOutput q) = { k c with conn := c.withOutput q })
    (hxy : y = x >>= fun r => .ok (r.1.withOutput r.2.unread))
    (hr : ∀ r, x = .ok r → ∃ q, r.2.Represents q) :
    (y >>= fun conn => Except.ok (ε := Fault) (k conn)) =
      ((x >>= fun r => Except.ok (BufferedSystem.mk (k r.1) r.2)) >>= fun s' => .ok s'.view) ∧
    ∀ s', (x >>= fun r => Except.ok (BufferedSystem.mk (k r.1) r.2)) = .ok s' → Sound s' := by
  subst hxy
  cases x with
  | error f => exact ⟨rfl, fun s' h => by cases h⟩
  | ok r =>
    refine ⟨?_, fun s' h => ?_⟩
    · obtain ⟨hconn, hwith⟩ := hk r.1 r.2.unread
      simp only [ok_bind, view, hwith, hconn]
    · cases h
      obtain ⟨q, hq⟩ := hr r rfl
      exact sound_of_represents hq

theorem step_view {owner : Owner} {w : Bool} (hsound : Sound s)
    (hlive : s.view = .init owner w ∨ s.view.Live) (hfits : s.Fits a) :
    s.view.step a = (step s a >>= fun s' => .ok s'.view) ∧
      ∀ s', step s a = .ok s' → Sound s' := by
  have hfreeView : s.view.Free ↔ s.system.Free := Iff.rfl
  rcases step_cases s a with ⟨argument, n, rfl⟩ | ⟨n, t, message, fs, rfl, hphase⟩ |
    ⟨n, fs, read, rfl, hphase⟩ | ⟨hno, hstep, -⟩
  · rw [ConnectionSystem.step]
    simp only [step]
    by_cases hfree : s.system.Free
    · rw [ensure_of hfree, ensure_of (hfreeView.mpr hfree), ok_bind, ok_bind]
      by_cases hstate : s.system.conn.state = .kConnected
      · have hunsent : s.appended (.send argument n) =
            unsent (s.system.conn.withOutput s.outputBuffer.unread) argument.message n :=
          if_pos hstate
        rw [Fits, hunsent] at hfits
        obtain ⟨hview, hrep⟩ := sendInLoop_takes hsound hfits
        rw [if_pos hstate, if_pos (show s.view.conn.state = .kConnected from hstate)]
        exact bind_view (k := fun conn => { s.system with
          conn := conn
          sent := s.system.sent ++ [(none, argument.message)]
          executed := s.system.executed ++ [(none, argument.message)] })
          (fun _ _ => ⟨rfl, rfl⟩) hview hrep
      · rw [if_neg hstate, if_neg (show ¬ s.view.conn.state = .kConnected from hstate)]
        exact ⟨rfl, fun s' h => by cases h; exact hsound⟩
    · rw [ensure_of_not hfree, ensure_of_not (mt hfreeView.mp hfree)]
      exact ⟨rfl, fun s' h => by cases h⟩
  · have hphase' : s.view.phase = .running (.sendInLoop t message :: fs) := hphase
    have hunsent : s.appended (.runFunctor n) =
        unsent (s.system.conn.withOutput s.outputBuffer.unread) message n := by
      simp only [appended, hphase]
      rfl
    rw [Fits, hunsent] at hfits
    obtain ⟨hview, hrep⟩ := sendInLoop_takes hsound hfits
    rw [ConnectionSystem.step]
    simp only [step, hphase, hphase']
    by_cases hfree : s.system.Free
    · rw [ensure_of hfree, ensure_of (hfreeView.mpr hfree), ok_bind, ok_bind]
      exact bind_view (k := fun conn => { s.system with
        conn := conn
        phase := .running fs
        executed := s.system.executed ++ [(some t, message)] })
        (fun _ _ => ⟨rfl, rfl⟩) hview hrep
    · rw [ensure_of_not hfree, ensure_of_not (mt hfreeView.mp hfree)]
      exact ⟨rfl, fun s' h => by cases h⟩
  · have hphase' : s.view.phase = .handling (.writeCallback :: fs) read := hphase
    obtain ⟨hview, hrep⟩ := handleWrite_view hsound s.system.conn n
    rw [ConnectionSystem.step]
    simp only [step, hphase, hphase', handleCallback]
    by_cases hfree : s.system.Free
    · rw [ensure_of hfree, ensure_of (hfreeView.mpr hfree), ok_bind, ok_bind]
      exact bind_view (k := fun conn => { s.system with
        conn := conn
        phase := .handling fs read })
        (fun _ _ => ⟨rfl, rfl⟩) hview hrep
    · rw [ensure_of_not hfree, ensure_of_not (mt hfreeView.mp hfree)]
      exact ⟨rfl, fun s' h => by cases h⟩
  · rw [hstep, other]
    cases hideal : s.view.step a with
    | error f => exact ⟨rfl, fun s' h => by cases h⟩
    | ok system =>
      have hkept := hno.kept hlive hideal
      refine ⟨?_, fun s' h => by cases h; exact hsound⟩
      rw [ok_bind, ok_bind, view]
      show _ = Except.ok { system with conn := system.conn.withOutput s.outputBuffer.unread }
      rw [show s.outputBuffer.unread = system.conn.outputBuffer from hkept.symm]
      rfl

/-! ## Runs -/

variable {owner : Owner} {w : Bool} {as : List (ConnectionSystem.Action T)}

omit [DecidableEq T] in
theorem view_init : (init owner w : BufferedSystem T).view = .init owner w := by
  show { ConnectionSystem.init owner w with
    conn := (ConnectionSystem.init owner w).conn.withOutput Buffer.init.unread } = _
  rw [Buffer.represents_init.contents]
  rfl

/-- While the buffer takes what is appended, the runs are the same. -/
theorem run_view (hfits : Along step Fits (init owner w) as) :
    run ConnectionSystem.step (.init owner w) as =
      (run step (init owner w) as >>= fun s => .ok s.view) ∧
    ∀ s, run step (init owner w) as = .ok s → Sound s := by
  induction as using List.reverseRecOn with
  | nil =>
    refine ⟨?_, fun s h => ?_⟩
    · rw [run_nil, run_nil, ok_bind, view_init]
    · cases h
      exact sound_of_represents Buffer.represents_init
  | append_singleton as a ih =>
    obtain ⟨hbefore, hlast⟩ := along_append.mp hfits
    obtain ⟨hview, hsound⟩ := ih hbefore
    rw [run_append, run_append, hview]
    cases hrun : run step (init owner w) as with
    | error f => exact ⟨rfl, fun s h => by cases h⟩
    | ok s =>
      have hideal : run ConnectionSystem.step (.init owner w) as = .ok s.view := by
        rw [hview, hrun]
        rfl
      obtain ⟨hstep, hnext⟩ := step_view (hsound s hrun) (ConnectionSystem.run_live hideal)
        (hlast s hrun).1
      rw [ok_bind, ok_bind, ok_bind, run_singleton, run_singleton]
      exact ⟨hstep, hnext⟩

/-- A step that appended as it should had a buffer that takes the data. -/
theorem fits_of_step (hsound : Sound s) (hstep : step s a = .ok s')
    (hideal : s.view.step a = .ok s'.view) (hvalid : s'.outputBuffer.Valid) : s.Fits a := by
  intro hne
  rcases step_cases s a with ⟨argument, n, rfl⟩ | ⟨n, t, message, fs, rfl, hphase⟩ |
    ⟨n, fs, read, rfl, hphase⟩ | ⟨-, -, hnil⟩
  · have hstate : s.system.conn.state = .kConnected := by
      by_contra hnot
      exact hne (if_neg hnot)
    have hunsent : s.appended (.send argument n) =
        unsent (s.system.conn.withOutput s.outputBuffer.unread) argument.message n := if_pos hstate
    rw [hunsent] at hne ⊢
    simp only [step, if_pos hstate] at hstep
    obtain ⟨_, -, hstep⟩ := bind_eq_ok.mp hstep
    obtain ⟨r, hr, hstep⟩ := bind_eq_ok.mp hstep
    cases hstep
    rw [ConnectionSystem.step] at hideal
    obtain ⟨_, -, hideal⟩ := bind_eq_ok.mp hideal
    rw [if_pos (show s.view.conn.state = .kConnected from hstate)] at hideal
    obtain ⟨d, hd, hideal⟩ := bind_eq_ok.mp hideal
    have hqueue := queue_sendInLoop hd
    have hconn := congrArg ConnectionSystem.conn (Except.ok.inj hideal)
    rw [show d = _ from hconn] at hqueue
    exact hsound.takes_of_append (sendInLoop_appends hsound hne hr) hvalid hqueue
  · have hphase' : s.view.phase = .running (.sendInLoop t message :: fs) := hphase
    have hunsent : s.appended (.runFunctor n) =
        unsent (s.system.conn.withOutput s.outputBuffer.unread) message n := by
      simp only [appended, hphase]
      rfl
    rw [hunsent] at hne ⊢
    simp only [step, hphase] at hstep
    obtain ⟨_, -, hstep⟩ := bind_eq_ok.mp hstep
    obtain ⟨r, hr, hstep⟩ := bind_eq_ok.mp hstep
    cases hstep
    rw [ConnectionSystem.step] at hideal
    simp only [hphase'] at hideal
    obtain ⟨_, -, hideal⟩ := bind_eq_ok.mp hideal
    obtain ⟨d, hd, hideal⟩ := bind_eq_ok.mp hideal
    have hqueue := queue_sendInLoop hd
    have hconn := congrArg ConnectionSystem.conn (Except.ok.inj hideal)
    rw [show d = _ from hconn] at hqueue
    exact hsound.takes_of_append (sendInLoop_appends hsound hne hr) hvalid hqueue
  · exact absurd rfl hne
  · exact absurd hnil hne

/-- The run with the buffer does what the run with the queue does. -/
def KeepsUp (owner : Owner) (w : Bool) (as : List (ConnectionSystem.Action T)) : Prop :=
  ∃ s, run step (init owner w) as = .ok s ∧ s.outputBuffer.Valid ∧
    run ConnectionSystem.step (.init owner w) as = .ok s.view

/-- With its output buffer a connection keeps up with the one that has a queue exactly as long as
the buffer takes what is appended. -/
theorem output_path_exact {t : ConnectionSystem T}
    (hideal : run ConnectionSystem.step (.init owner w) as = .ok t) :
    (∀ pre post, as = pre ++ post → KeepsUp owner w pre) ↔ Along step Fits (init owner w) as := by
  constructor
  · intro h
    induction as using List.reverseRecOn generalizing t with
    | nil => trivial
    | append_singleton as a ih =>
      obtain ⟨u, hu, hlast⟩ := run_append_ok.mp hideal
      have hbefore := ih hu fun pre post hsplit =>
        h pre (post ++ [a]) (by rw [hsplit, List.append_assoc])
      obtain ⟨hview, hsound⟩ := run_view hbefore
      obtain ⟨s', hrun', hvalid, hideal'⟩ := h (as ++ [a]) [] (List.append_nil _).symm
      obtain ⟨s, hrun, hstep⟩ := run_append_ok.mp hrun'
      rw [run_singleton] at hstep
      have hsview : u = s.view := by
        rw [hview, hrun] at hu
        exact (Except.ok.inj hu).symm
      rw [run_append, hu, ok_bind, run_singleton, hsview] at hideal'
      exact (along_concat hrun).mpr
        ⟨hbefore, fits_of_step (hsound s hrun) hstep hideal' hvalid⟩
  · rintro hfits pre post rfl
    obtain ⟨hview, hsound⟩ := run_view (along_append.mp hfits).1
    obtain ⟨u, hu, -⟩ := run_append_ok.mp hideal
    rw [hu] at hview
    cases hrun : run step (init owner w) pre with
    | error f =>
      rw [hrun] at hview
      cases hview
    | ok s =>
      rw [hrun] at hview
      refine ⟨s, hrun, (hsound s hrun).toValid, ?_⟩
      rw [hu, hview]
      rfl

/-- 1023 bytes are queued and written in two parts, and 8 more are queued behind them. -/
theorem output_path_exact_sample :
    KeepsUp .client false ([.connectionEstablished, .connectionCallback,
      .send (.string (List.replicate 1023 1)) (-1), .poll POLLOUT .data, .handleEvent 1000,
      .doPendingFunctor, .endPass, .send (.string (List.replicate 8 2)) 0] :
        List (ConnectionSystem.Action Empty)) := by
  have hend : endsIn ConnectionSystem.step (fun _ => true)
      (.init .client false : ConnectionSystem Empty) [.connectionEstablished, .connectionCallback,
      .send (.string (List.replicate 1023 1)) (-1), .poll POLLOUT .data, .handleEvent 1000,
      .doPendingFunctor, .endPass, .send (.string (List.replicate 8 2)) 0] = true := by
    decide +kernel
  obtain ⟨t, hideal, -⟩ := endsIn_iff.mp hend
  exact (output_path_exact hideal).mpr (by decide +kernel) _ [] (List.append_nil _).symm

/-- 1024 bytes that the kernel does not take are one too many. -/
example : endsIn step (fun _ => true) (init .client false : BufferedSystem Empty)
    [.connectionEstablished, .connectionCallback,
      .send (.string (List.replicate 1024 1)) (-1)] = false := by decide +kernel

end BufferedSystem

end Summer.Net
