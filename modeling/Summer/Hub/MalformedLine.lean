import Summer.Hub.LoopEnds

/-!
# Lines without a space

Parsing stops at a line without a space and leaves it in the input. The client then shuts its
connection down. The hub does nothing: the line stays in front of everything that arrives later.
-/
namespace Summer.Hub

open Summer.Lib

variable {κ : Type} {fresh : Bool} {handle : Strings → List κ} {onError : List κ}
  {m rest : Bytes} {chunks : List Bytes}

/-! ## Deliveries -/

theorem deliver_append_ok {callback : Bytes → Except Fault (List κ × Bytes)} {u v : Bytes}
    {xs ys : List Bytes} {calls : List κ} :
    deliver callback u (xs ++ ys) = .ok (calls, v) ↔ ∃ first w more,
      deliver callback u xs = .ok (first, w) ∧ deliver callback w ys = .ok (more, v) ∧
        calls = first ++ more := by
  induction xs generalizing u calls with
  | nil => simp [deliver, eq_comm]
  | cons x xs ih =>
    rw [List.cons_append]
    constructor
    · intro h
      obtain ⟨⟨made, w⟩, hx, h⟩ := bind_eq_ok.mp h
      obtain ⟨⟨more, v'⟩, hrest, h⟩ := bind_eq_ok.mp h
      cases h
      obtain ⟨first, w', more', hxs, hys, rfl⟩ := ih.mp hrest
      refine ⟨made ++ first, w', more', ?_, hys, by rw [List.append_assoc]⟩
      rw [deliver, hx, ok_bind]
      dsimp only
      rw [hxs]
      rfl
    · rintro ⟨first, w, more, hxs, hys, rfl⟩
      obtain ⟨⟨made, w'⟩, hx, h⟩ := bind_eq_ok.mp hxs
      obtain ⟨⟨first', v'⟩, hrest, h⟩ := bind_eq_ok.mp h
      cases h
      have hmore := ih.mpr ⟨first', w, more, hrest, hys, rfl⟩
      rw [deliver, hx, ok_bind]
      dsimp only
      rw [hmore]
      simp

theorem deliver_singleton {callback : Bytes → Except Fault (List κ × Bytes)} {u c v : Bytes}
    {calls : List κ} : deliver callback u [c] = .ok (calls, v) ↔
      callback (u ++ c) = .ok (calls, v) := by
  cases h : callback (u ++ c) with
  | error f => simp [deliver, h]
  | ok answer => simp [deliver, h]

/-- A callback that returns has parsed complete messages, and made the calls of an error if it
stopped at a line without a space. -/
theorem onMessage_ok {calls : List κ} (h : onMessage fresh handle onError m = .ok (calls, rest)) :
    ∃ n, Messages n m rest ∧
      (¬ HasCRLF rest ∨ (Malformed rest ∧ ∀ call ∈ onError, call ∈ calls)) := by
  obtain ⟨n, tail, hm, ⟨hl, made, hloop⟩ | ⟨hb, made, hloop⟩ | ⟨-, hloop⟩⟩ :=
    messageLoop_ends fresh handle m {}
  · rw [onMessage, hloop] at h
    cases h
    exact ⟨n, hm, .inl hl⟩
  · rw [onMessage, hloop] at h
    cases h
    exact ⟨n, hm, .inr ⟨hb, fun call hcall => by simp [hcall]⟩⟩
  · rw [onMessage, hloop] at h
    cases h

/-- A callback that does not return has reached a `pub` line without its content. -/
theorem onMessage_cases (fresh : Bool) (handle : Strings → List κ) (onError : List κ) (m : Bytes) :
    ReachesCutPub m ∨
    ∃ calls rest, onMessage fresh handle onError m = .ok (calls, rest) := by
  obtain ⟨n, tail, hm, ⟨-, made, hloop⟩ | ⟨-, made, hloop⟩ | ⟨hc, -⟩⟩ :=
    messageLoop_ends fresh handle m {}
  · exact .inr ⟨_, _, by rw [onMessage, hloop]; rfl⟩
  · exact .inr ⟨_, _, by rw [onMessage, hloop]; rfl⟩
  · exact .inl ⟨n, tail, hm, hc⟩

/-- One more chunk behind the deliveries so far. -/
theorem Messages.deliver {n k : Nat} {u c tail : Bytes} (hn : Messages n chunks.flatten u)
    (hk : Messages k (u ++ c) tail) : Messages (n + k) (chunks ++ [c]).flatten tail := by
  rw [List.flatten_append, List.flatten_singleton]
  exact (hn.append c).trans hk

/-- What is unread after some deliveries is what is left of the whole stream. -/
theorem deliver_ok {calls : List κ}
    (h : deliver (onMessage fresh handle onError) [] chunks = .ok (calls, rest)) :
    ∃ n, Messages n chunks.flatten rest ∧
      (¬ HasCRLF rest ∨ (Malformed rest ∧ ∀ call ∈ onError, call ∈ calls)) := by
  induction chunks using List.reverseRecOn generalizing calls rest with
  | nil =>
    cases h
    exact ⟨0, .nil [], .inl (by decide)⟩
  | append_singleton chunks c ih =>
    obtain ⟨first, u, more, hfirst, hc, rfl⟩ := deliver_append_ok.mp h
    rw [deliver_singleton] at hc
    obtain ⟨n, hn, -⟩ := ih hfirst
    obtain ⟨k, hk, hend⟩ := onMessage_ok hc
    refine ⟨n + k, hn.deliver hk, hend.imp_right fun hb => ⟨hb.1, fun call hcall => ?_⟩⟩
    exact List.mem_append_right _ (hb.2 call hcall)

/-- Deliveries that end at no `pub` line without its content all return. -/
theorem deliver_returns (fresh : Bool) (handle : Strings → List κ) (onError : List κ)
    (h : ∀ pre post, chunks = pre ++ post → ¬ ReachesCutPub pre.flatten) :
    ∃ calls rest, deliver (onMessage fresh handle onError) [] chunks = .ok (calls, rest) := by
  induction chunks using List.reverseRecOn with
  | nil => exact ⟨[], [], rfl⟩
  | append_singleton chunks c ih =>
    obtain ⟨first, u, hfirst⟩ := ih fun pre post hsplit =>
      h pre (post ++ [c]) (by rw [hsplit, List.append_assoc])
    obtain ⟨n, hn, -⟩ := deliver_ok hfirst
    rcases onMessage_cases fresh handle onError (u ++ c) with
      ⟨k, tail, hk, hcut⟩ | ⟨more, v, hc⟩
    · exact absurd ⟨n + k, tail, hn.deliver hk, hcut⟩ (h (chunks ++ [c]) [] (by simp))
    · exact ⟨_, _, deliver_append_ok.mpr ⟨first, u, more, hfirst, deliver_singleton.mpr hc, rfl⟩⟩

/-! ## The outcome of a stream is that of its tail -/

theorem not_reachesMalformed_of_noLine {n : Nat} (h : Messages n m rest) (hl : ¬ HasCRLF rest) :
    ¬ ReachesMalformed m := by
  rintro ⟨k, tail, hk, hb⟩
  obtain ⟨made, hloop⟩ := messageLoop_noLine false HubServer.dispatch h hl {}
  obtain ⟨made', hloop'⟩ := messageLoop_malformed false HubServer.dispatch hk hb {}
  cases hloop.symm.trans hloop'

theorem reachesMalformed_of_kError {s : Strings} {made : List κ}
    (h : messageLoop fresh handle m s = .ok (made, .kError, rest)) : ReachesMalformed m := by
  obtain ⟨n, tail, hm, ⟨-, made', hloop⟩ | ⟨hb, -⟩ | ⟨-, hloop⟩⟩ :=
    messageLoop_ends fresh handle m s
  · cases h.symm.trans hloop
  · exact ⟨n, tail, hm, hb⟩
  · cases h.symm.trans hloop

theorem not_reachesCutPub_of_ok {calls : List κ}
    (h : deliver (onMessage fresh handle onError) [] chunks = .ok (calls, rest)) :
    ¬ ReachesCutPub chunks.flatten := by
  rintro ⟨k, tail, hk, hc⟩
  obtain ⟨n, hn, hl | ⟨hb, -⟩⟩ := deliver_ok h
  · obtain ⟨made, hloop⟩ := messageLoop_noLine fresh handle hn hl {}
    rw [messageLoop_cutPub hk hc] at hloop
    cases hloop
  · obtain ⟨made, hloop⟩ := messageLoop_malformed fresh handle hn hb {}
    rw [messageLoop_cutPub hk hc] at hloop
    cases hloop

theorem ReachesMalformed.append (h : ReachesMalformed m) (s : Bytes) :
    ReachesMalformed (m ++ s) := by
  obtain ⟨n, tail, hn, hb⟩ := h
  exact ⟨n, tail ++ s, hn.append s, hb.append s⟩

theorem not_reachesCutPub_of_malformed (h : ReachesMalformed m) : ¬ ReachesCutPub m := by
  rintro ⟨k, tail, hk, hc⟩
  obtain ⟨n, rest, hn, hb⟩ := h
  obtain ⟨made, hloop⟩ := messageLoop_malformed false HubServer.dispatch hn hb {}
  rw [messageLoop_cutPub hk hc] at hloop
  cases hloop

/-- Where a cut `pub` line ends every run before a line without a space is reached, deliveries
that return have not reached one. -/
theorem not_reachesMalformed_of_ok
    (h : ReachesMalformed chunks.flatten →
      ∃ cut post, chunks = cut ++ post ∧ ReachesCutPub cut.flatten)
    {pre post : List Bytes} (hsplit : chunks = pre ++ post) {calls : List κ}
    (hok : deliver (onMessage fresh handle onError) [] pre = .ok (calls, rest)) :
    ¬ ReachesMalformed pre.flatten := by
  intro hb
  obtain ⟨cut, post', hsplit', hcut⟩ := h (by
    rw [hsplit, List.flatten_append]
    exact hb.append _)
  rcases List.append_eq_append_iff.mp (hsplit.symm.trans hsplit') with
    ⟨more, rfl, -⟩ | ⟨more, rfl, -⟩
  · rw [List.flatten_append] at hcut
    exact not_reachesCutPub_of_malformed (hb.append _) hcut
  · obtain ⟨first, u, -, hfirst, -, -⟩ := deliver_append_ok.mp hok
    exact not_reachesCutPub_of_ok hfirst hcut

/-! ## Wedged connections -/

/-- Whatever arrives later leads to no call and stays in the input. -/
def Wedged (callback : Bytes → Except Fault (List κ × Bytes)) (unread : Bytes) : Prop :=
  ∀ later, deliver callback unread later = .ok ([], unread ++ later.flatten)

/-- A callback that makes no call on an error is wedged by a line without a space. -/
theorem wedged_of_malformed (h : Malformed m) : Wedged (onMessage fresh handle []) m := by
  intro later
  induction later generalizing m with
  | nil => simp [deliver]
  | cons c later ih =>
    have hc : onMessage fresh handle [] (m ++ c) = .ok ([], m ++ c) := by
      rw [onMessage, messageLoop_kError ((h.append c).parse _)]
      rfl
    rw [deliver, hc, ok_bind]
    dsimp only
    rw [ih (h.append c)]
    simp

/-- ` `, the end of the line, and `sub ` with the end of its line. -/
def completion : Bytes := [space, CR, LF] ++ (sub ++ [space]) ++ [CR, LF]

/-- Any input without a terminator can be completed to whole messages. -/
theorem messages_completion (h : ¬ HasCRLF m) : ∃ n, Messages n (m ++ completion) [] := by
  have hplain : ¬ HasCRLF (m ++ [space]) := by
    rintro ⟨a, b, hab⟩
    rcases List.eq_nil_or_concat b with rfl | ⟨b, x, rfl⟩
    · have := congrArg List.getLast? hab
      simp [CR, LF, space] at this
    · rw [List.concat_eq_append, ← List.append_assoc] at hab
      exact h ⟨a, b, (List.append_inj' hab rfl).1⟩
  have hfirst : FirstLine (m ++ completion) (m ++ [space]) (sub ++ [space] ++ [CR, LF]) :=
    ⟨by simp [completion], hplain⟩
  have hsub : FirstLine (sub ++ [space] ++ [CR, LF]) (sub ++ [space]) [] := ⟨by simp, by decide⟩
  obtain ⟨cmd, topic, hsplit, hcmd⟩ : ∃ cmd topic, m ++ [space] = cmd ++ space :: topic ∧
      space ∉ cmd := List.eq_append_cons_of_mem (by simp)
  by_cases hp : cmd = pub
  · subst hp
    exact ⟨1, .cons (.pub hfirst ⟨hsplit, hcmd⟩ hsub) (.nil [])⟩
  · exact ⟨2, .cons (.line hfirst ⟨hsplit, hcmd⟩ hp)
      (.cons (.line hsub ⟨rfl, by decide⟩ (by decide)) (.nil []))⟩

theorem not_wedged_of_noLine (h : ¬ HasCRLF m) : ¬ Wedged (onMessage fresh handle onError) m := by
  intro hw
  obtain ⟨n, hn⟩ := messages_completion h
  obtain ⟨made, hloop⟩ := messageLoop_noLine fresh handle hn (by decide) {}
  have hc : onMessage fresh handle onError (m ++ completion) = .ok (made, []) := by
    rw [onMessage, hloop]
    simp
  have hdone := hw [completion]
  rw [deliver_singleton.mpr hc] at hdone
  simp [completion] at hdone

/-! ## What becomes of a line without a space -/

/-- No call of the hub's callback shuts the connection down. -/
def HubCall.ShutsDown : HubCall → Prop := fun _ => False

def ClientCall.ShutsDown : ClientCall → Prop := fun call => call = .shutdown

/-- Whenever parsing stops with an error, the callback shuts the connection down or takes the line
out of the input; and no connection that was not shut down is wedged. -/
structure MalformedHandled (fresh : Bool) (handle : Strings → List κ) (onError : List κ)
    (shutsDown : κ → Prop) (chunks : List Bytes) : Prop where
  dealt : ∀ pre chunk post, chunks = pre ++ chunk :: post → ∀ calls unread,
    deliver (onMessage fresh handle onError) [] pre = .ok (calls, unread) → ∀ made rest,
    messageLoop fresh handle (unread ++ chunk) {} = .ok (made, .kError, rest) →
    (∃ call ∈ onError, shutsDown call) ∨ ∃ n tail line after, Messages n (unread ++ chunk) tail ∧
      FirstLine tail line after ∧ space ∉ line ∧ rest <:+ after
  alive : ∀ pre post, chunks = pre ++ post → ∀ calls unread,
    deliver (onMessage fresh handle onError) [] pre = .ok (calls, unread) →
    (∀ call ∈ calls, ¬ shutsDown call) → ¬ Wedged (onMessage fresh handle onError) unread

/-- In the hub that is so exactly for the streams in which no line without a space stands where a
command should, unless a chunk before it ends behind a `pub` line and ends the run. -/
theorem hub_malformed_handled_iff (chunks : List Bytes) :
    MalformedHandled false HubServer.dispatch [] HubCall.ShutsDown chunks ↔
      (ReachesMalformed chunks.flatten →
        ∃ pre post, chunks = pre ++ post ∧ ReachesCutPub pre.flatten) := by
  constructor
  · intro h hb
    by_contra hcut
    obtain ⟨calls, unread, hok⟩ := deliver_returns false HubServer.dispatch []
      fun pre post hsplit hc => hcut ⟨pre, post, hsplit, hc⟩
    refine h.alive chunks [] (by simp) calls unread hok (fun _ _ => id) ?_
    obtain ⟨n, hn, hl | ⟨hmal, -⟩⟩ := deliver_ok hok
    · exact absurd hb (not_reachesMalformed_of_noLine hn hl)
    · exact wedged_of_malformed hmal
  · intro h
    constructor
    · intro pre chunk post hsplit calls unread hok made rest hloop
      have hc : onMessage false HubServer.dispatch [] (unread ++ chunk) = .ok (made, rest) := by
        rw [onMessage, hloop]
        simp
      have hnext := deliver_append_ok.mpr ⟨_, _, _, hok, deliver_singleton.mpr hc, rfl⟩
      obtain ⟨n, hn, -⟩ := deliver_ok hok
      obtain ⟨k, tail, hk, hb⟩ := reachesMalformed_of_kError hloop
      exact absurd ⟨n + k, tail, hn.deliver hk, hb⟩
        (not_reachesMalformed_of_ok h (hsplit.trans (List.append_cons ..)) hnext)
    · intro pre post hsplit calls unread hok _
      obtain ⟨n, hn, hl | ⟨hb, -⟩⟩ := deliver_ok hok
      · exact not_wedged_of_noLine hl
      · exact absurd ⟨n, unread, hn, hb⟩ (not_reachesMalformed_of_ok h hsplit hok)

/-- The line `x`, and then a publication that nobody hears of. -/
theorem hub_wedged_by_a_line :
    ¬ MalformedHandled false HubServer.dispatch [] HubCall.ShutsDown
        [[120, 13, 10], PubSubClient.publish [116] [99]] ∧
      Wedged HubServer.onMessage [120, 13, 10] := by
  have hfirst : FirstLine [120, 13, 10] [120] [] := ⟨rfl, by decide⟩
  have hb : Malformed [120, 13, 10] := ⟨[120], [], hfirst, by decide⟩
  have hw : Wedged HubServer.onMessage [120, 13, 10] := wedged_of_malformed hb
  refine ⟨fun h => ?_, hw⟩
  obtain ⟨made, hloop⟩ := messageLoop_malformed false HubServer.dispatch (.nil _) hb {}
  have hc : HubServer.onMessage ([] ++ [120, 13, 10]) = .ok (made, [120, 13, 10]) := by
    rw [HubServer.onMessage, onMessage, List.nil_append, hloop]
    simp
  exact h.alive [[120, 13, 10]] [PubSubClient.publish [116] [99]] rfl made [120, 13, 10]
    (deliver_singleton.mpr hc) (fun _ _ => id) hw

/-- The client deals with every such line. -/
theorem client_malformed_handled (subscribeCallback : Bool) (chunks : List Bytes) :
    MalformedHandled true (PubSubClient.dispatch subscribeCallback) [.shutdown]
      ClientCall.ShutsDown chunks where
  dealt := fun _ _ _ _ _ _ _ _ _ _ => .inl ⟨.shutdown, List.mem_singleton_self _, rfl⟩
  alive := by
    intro pre post _ calls unread hok hopen
    obtain ⟨n, hn, hl | ⟨-, hcalls⟩⟩ := deliver_ok hok
    · exact not_wedged_of_noLine hl
    · exact absurd rfl (hopen .shutdown (hcalls _ (List.mem_singleton_self _)))

end Summer.Hub
