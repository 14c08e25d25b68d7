import Summer.Lib.Broker
import Summer.Lib.Run

/-!
# Runs of a broker

The requests and the notices of a client wait in queues of their own, which move in any order. The
log is the order in which the requests were served. In every run it explains what was observed:
the requests of each client in its own order, and the notices of each client, each once.
-/
namespace Summer.Lib

variable {C τ κ : Type*}

/-- What can be seen of a broker: a client makes a request, or is told a notice. -/
inductive Observation (C τ κ : Type*) where
  | request (c : C) (r : Request τ κ)
  | notice (c : C) (n : τ × κ)
  deriving DecidableEq

namespace Observation

variable [DecidableEq C]

def requestOf (c : C) : Observation C τ κ → Option (Request τ κ)
  | request d r => if d = c then some r else none
  | notice _ _ => none

def noticeOf (c : C) : Observation C τ κ → Option (τ × κ)
  | request _ _ => none
  | notice d n => if d = c then some n else none

end Observation

variable [DecidableEq C]

def requestsOf (c : C) (trace : List (Observation C τ κ)) : List (Request τ κ) :=
  trace.filterMap (Observation.requestOf c)

def noticesOf (c : C) (trace : List (Observation C τ κ)) : List (τ × κ) :=
  trace.filterMap (Observation.noticeOf c)

/-- The requests of one client in a log. -/
def ownRequests (c : C) (log : List (C × Request τ κ)) : List (Request τ κ) :=
  log.filterMap fun p => if p.1 = c then some p.2 else none

/-- Every notice repeats what was published before it, to one who had subscribed before it. -/
def Justified (trace : List (Observation C τ κ)) : Prop :=
  ∀ earlier later d topic content, trace = earlier ++ .notice d (topic, content) :: later →
    (∃ c, .request c (.publish topic content) ∈ earlier) ∧ .request d (.subscribe topic) ∈ earlier

omit [DecidableEq C] in
theorem Justified.nil : Justified ([] : List (Observation C τ κ)) :=
  fun _ _ _ _ _ h => by simp at h

omit [DecidableEq C] in
theorem Justified.concat {trace : List (Observation C τ κ)} (h : Justified trace)
    {o : Observation C τ κ} (ho : ∀ d topic content, o = .notice d (topic, content) →
      (∃ c, .request c (.publish topic content) ∈ trace) ∧ .request d (.subscribe topic) ∈ trace) :
    Justified (trace ++ [o]) := by
  intro earlier later d topic content heq
  rcases List.eq_nil_or_concat later with rfl | ⟨later, x, rfl⟩
  · obtain ⟨rfl, hx⟩ := List.append_inj' heq rfl
    exact ho d topic content (by simpa using hx)
  · rw [List.concat_eq_append, ← List.cons_append, ← List.append_assoc] at heq
    obtain ⟨rfl, -⟩ := List.append_inj' heq rfl
    exact h earlier later d topic content rfl

structure Broker (C τ κ : Type*) where
  log : List (C × Request τ κ) := []
  requests : C → List (Request τ κ) := fun _ => []
  notices : C → List (τ × κ) := fun _ => []
  /-- The clients that are told nothing any more. -/
  cut : C → Bool := fun _ => false
  trace : List (Observation C τ κ) := []

namespace Broker

inductive Action (C τ κ : Type*) where
  | request (c : C) (r : Request τ κ)
  /-- The first request of the client is served. -/
  | serve (c : C)
  /-- The first notice of the client reaches it. -/
  | deliver (c : C)
  | cut (c : C)

variable [DecidableEq τ]

def board (s : Broker C τ κ) : Board C τ κ := ({} : Board C τ κ).after s.log

/-- The request `r` of `c` is served, and `rs` are left. -/
def served (s : Broker C τ κ) (c : C) (r : Request τ κ) (rs : List (Request τ κ)) :
    Broker C τ κ :=
  { s with log := s.log ++ [(c, r)],
           requests := Function.update s.requests c rs,
           notices := fun d => s.notices d ++ if s.cut d = true then [] else s.board.tells c r d }

def step (s : Broker C τ κ) : Action C τ κ → Except Unit (Broker C τ κ)
  | .request c r => .ok
    { s with requests := Function.update s.requests c (s.requests c ++ [r]),
             trace := s.trace ++ [.request c r] }
  | .serve c =>
    match s.requests c with
    | [] => .error ()
    | r :: rs => .ok (s.served c r rs)
  | .deliver c =>
    match s.notices c with
    | [] => .error ()
    | n :: ns => .ok
      { s with notices := Function.update s.notices c ns, trace := s.trace ++ [.notice c n] }
  | .cut c => .ok { s with cut := Function.update s.cut c true }

/-- What a step does, with the queue it takes the head of. -/
inductive Moves (s : Broker C τ κ) : Action C τ κ → Broker C τ κ → Prop where
  | request {c r} : Moves s (.request c r)
      { s with requests := Function.update s.requests c (s.requests c ++ [r]),
               trace := s.trace ++ [.request c r] }
  | serve {c r rs} (head : s.requests c = r :: rs) : Moves s (.serve c) (s.served c r rs)
  | deliver {c n ns} (head : s.notices c = n :: ns) : Moves s (.deliver c)
      { s with notices := Function.update s.notices c ns, trace := s.trace ++ [.notice c n] }
  | cut {c} : Moves s (.cut c) { s with cut := Function.update s.cut c true }

variable {s t : Broker C τ κ} {c d : C} {r : Request τ κ} {n : τ × κ}

theorem step_ok_iff {a : Action C τ κ} : step s a = .ok t ↔ Moves s a t := by
  constructor
  · intro h
    cases a with
    | request c r =>
      cases h
      exact .request
    | serve c =>
      rw [step] at h
      split at h
      · cases h
      · rename_i head
        cases h
        exact .serve head
    | deliver c =>
      rw [step] at h
      split at h
      · cases h
      · rename_i head
        cases h
        exact .deliver head
    | cut c =>
      cases h
      exact .cut
  · intro h
    cases h with
    | request => rfl
    | serve head => rw [step, head]
    | deliver head => rw [step, head]
    | cut => rfl

/-! ## The log explains what was observed -/

/-- The requests of each client were served in its order, up to those that wait, and each client
was told what the log says, up to what waits; a client that was cut off, no more than that. -/
structure Serial (s : Broker C τ κ) : Prop where
  requested : ∀ c, requestsOf c s.trace = ownRequests c s.log ++ s.requests c
  informed : ∀ d, s.cut d = false →
    noticesOf d s.trace ++ s.notices d = ({} : Board C τ κ).informs s.log d
  informed_cut : ∀ d, noticesOf d s.trace ++ s.notices d <+: ({} : Board C τ κ).informs s.log d

omit [DecidableEq τ] in
theorem requestsOf_concat (trace : List (Observation C τ κ)) (o : Observation C τ κ) :
    requestsOf c (trace ++ [o]) = requestsOf c trace ++ (o.requestOf c).toList := by
  rw [requestsOf, List.filterMap_append, ← requestsOf]
  cases h : o.requestOf c <;> simp [h]

omit [DecidableEq τ] in
theorem noticesOf_concat (trace : List (Observation C τ κ)) (o : Observation C τ κ) :
    noticesOf c (trace ++ [o]) = noticesOf c trace ++ (o.noticeOf c).toList := by
  rw [noticesOf, List.filterMap_append, ← noticesOf]
  cases h : o.noticeOf c <;> simp [h]

theorem serial_init : Serial ({} : Broker C τ κ) :=
  ⟨fun _ => rfl, fun _ _ => rfl, fun _ => List.nil_prefix⟩

theorem Serial.step (hs : s.Serial) {a : Action C τ κ} (h : Broker.step s a = .ok t) :
    t.Serial := by
  cases step_ok_iff.mp h with
  | request =>
    rename_i c r
    refine ⟨fun e => ?_, fun d hd => ?_, fun d => ?_⟩
    · rw [requestsOf_concat, hs.requested]
      by_cases he : e = c
      · subst he
        simp [Observation.requestOf]
      · simp [Observation.requestOf, he, Ne.symm he]
    · rw [noticesOf_concat]
      simpa [Observation.noticeOf] using hs.informed d hd
    · rw [noticesOf_concat]
      simpa [Observation.noticeOf] using hs.informed_cut d
  | serve head =>
    rename_i c r rs
    refine ⟨fun e => ?_, fun d hd => ?_, fun d => ?_⟩
    · have hold := hs.requested e
      by_cases he : e = c
      · subst he
        simpa [served, ownRequests, List.filterMap_append, head] using hold
      · simpa [served, ownRequests, List.filterMap_append, he, Ne.symm he] using hold
    · have hcut : s.cut d = false := hd
      have hold := hs.informed d hcut
      dsimp only [served]
      rw [Board.informs_concat, ← hold]
      simp [hcut, board]
    · dsimp only [served]
      rw [Board.informs_concat]
      by_cases hcut : s.cut d = true
      · simp only [hcut, ↓reduceIte, List.append_nil]
        exact (hs.informed_cut d).trans (List.prefix_append _ _)
      · have hold := hs.informed d (Bool.eq_false_of_not_eq_true hcut)
        simp only [hcut, Bool.false_eq_true, ↓reduceIte, ← List.append_assoc, hold, board]
        exact List.prefix_rfl
  | deliver head =>
    rename_i c n ns
    have hsame : ∀ d, noticesOf d (s.trace ++ [.notice c n]) ++ Function.update s.notices c ns d =
        noticesOf d s.trace ++ s.notices d := by
      intro d
      rw [noticesOf_concat]
      by_cases hd : d = c
      · subst hd
        simp [Observation.noticeOf, head]
      · simp [Observation.noticeOf, hd, Ne.symm hd]
    refine ⟨fun e => ?_, fun d hd => ?_, fun d => ?_⟩
    · rw [requestsOf_concat]
      simpa [Observation.requestOf] using hs.requested e
    · exact (hsame d).trans (hs.informed d hd)
    · exact (hsame d).symm ▸ hs.informed_cut d
  | cut =>
    rename_i c
    refine ⟨hs.requested, fun d hd => ?_, hs.informed_cut⟩
    by_cases hdc : d = c
    · subst hdc
      simp at hd
    · simp only [Function.update_of_ne hdc] at hd
      exact hs.informed d hd

theorem serial_run {as : List (Action C τ κ)} (h : run step {} as = .ok s) : s.Serial :=
  run_preserves (fun _ _ _ hs => hs.step) serial_init h

/-! ## Nothing is made up -/

/-- What was served was requested. -/
theorem Serial.mem_trace (hs : s.Serial) (h : (c, r) ∈ s.log) : .request c r ∈ s.trace := by
  have hown : r ∈ requestsOf c s.trace := by
    rw [hs.requested c]
    refine List.mem_append_left _ (List.mem_filterMap.mpr ⟨(c, r), h, if_pos rfl⟩)
  obtain ⟨o, ho, hr⟩ := List.mem_filterMap.mp hown
  cases o with
  | request d r' =>
    obtain ⟨rfl, heq⟩ := Option.ite_none_right_eq_some.mp hr
    rw [← Option.some_inj.mp heq]
    exact ho
  | notice _ _ => cases hr

theorem justified_run {as : List (Action C τ κ)} (h : run step {} as = .ok s) :
    Justified s.trace := by
  refine (run_preserves (I := fun s : Broker C τ κ => s.Serial ∧ Justified s.trace)
    (fun s a t hI hstep => ⟨hI.1.step hstep, ?_⟩) ⟨serial_init, Justified.nil⟩ h).2
  obtain ⟨hs, hj⟩ := hI
  cases step_ok_iff.mp hstep with
  | request => exact hj.concat fun d topic content ho => by cases ho
  | serve _ => exact hj
  | deliver head =>
    rename_i e n ns
    refine hj.concat fun d topic content ho => ?_
    obtain ⟨rfl, rfl⟩ := Observation.notice.inj ho
    have hmem : (topic, content) ∈ ({} : Board C τ κ).informs s.log e := by
      refine (hs.informed_cut e).subset (List.mem_append_right _ ?_)
      rw [head]
      exact List.mem_cons_self
    obtain ⟨⟨c, hpub⟩, hsub⟩ := Board.logged_of_informs hmem
    exact ⟨⟨c, hs.mem_trace hpub⟩, hs.mem_trace hsub⟩
  | cut => exact hj

/-! ## Whom nothing waits for -/

/-- A client that is not cut off, for which nothing waits and whose last request about a topic was
a subscription, was told last what is retained. -/
theorem Serial.latest_notice (hs : s.Serial) {topic : τ} (hcut : s.cut d = false)
    (hreq : s.requests d = []) (hnot : s.notices d = [])
    (hsub : latest (Board.interest d topic) ((requestsOf d s.trace).map fun r => (d, r)) =
      some true) :
    latest (Board.about topic) (noticesOf d s.trace) = s.board.retained topic := by
  have hown : (ownRequests d s.log).map (fun r => (d, r)) =
      s.log.filter fun p => decide (p.1 = d) := by
    rw [ownRequests]
    induction s.log with
    | nil => rfl
    | cons p log ih =>
      obtain ⟨c, r⟩ := p
      by_cases hc : c = d
      · subst hc
        simp [ih]
      · simp [hc, ih]
  have hmem : d ∈ s.board.subscribers topic := by
    rw [hs.requested d, hreq, List.append_nil, hown, latest_filter] at hsub
    · exact Board.mem_subscribers.mpr hsub
    · intro p hp
      obtain ⟨c, r⟩ := p
      have hne : c ≠ d := of_decide_eq_false hp
      cases r <;> simp [Board.interest, hne]
  have hinf := hs.informed d hcut
  rw [hnot, List.append_nil] at hinf
  rw [hinf]
  exact (Board.latest_informs s.log d topic).1 hmem

/-! ## Several steps of one kind -/

/-- The first requests of a client are served one after the other. -/
theorem run_serve_cons {rs : List (Request τ κ)} {k : Nat} (h : s.requests c = r :: rs) :
    run step s (List.replicate (k + 1) (.serve c)) =
      run step (s.served c r rs) (List.replicate k (.serve c)) := by
  rw [List.replicate_succ, run_cons, step_ok_iff.mpr (.serve h), ok_bind]

theorem board_served {rs : List (Request τ κ)} : (s.served c r rs).board = s.board.serve c r :=
  Board.after_concat

/-- The first notices of a client reach it one after the other. -/
theorem run_deliver {ns rest : List (τ × κ)} (h : s.notices c = ns ++ rest) :
    run step s (List.replicate ns.length (.deliver c)) =
      .ok { s with notices := Function.update s.notices c rest,
                   trace := s.trace ++ ns.map (.notice c) } := by
  induction ns generalizing s with
  | nil =>
    have hsame : Function.update s.notices c rest = s.notices := by
      rw [← h.trans (List.nil_append rest), Function.update_eq_self]
    simp [hsame]
  | cons n ns ih =>
    have hn : (Function.update s.notices c (ns ++ rest)) c = ns ++ rest := Function.update_self ..
    rw [List.length_cons, List.replicate_succ, run_cons, step_ok_iff.mpr (.deliver h), ok_bind,
      ih hn]
    simp [Function.update_idem]

end Broker

end Summer.Lib
