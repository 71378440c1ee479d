import Wiretap.Proofs.Run
import Wiretap.Scenario.Channel
import Wiretap.Session.Step

/-!
# Closing a connection once

Any number of calls may be made to close a connection, at any time. Each goes on as the channel
answers, which it may do late, badly or never, and can be given up while it waits. What the calls
ask of the channel is written down.

Results:

* `stepStage?_wroteFarewell`, `stepStage?_hungUp`, `stepReceiver?_wroteFarewell`,
  `stepReceiver?_hungUp`: the tasks of a session go on with their calls in this way.
* `run?_of_close`: so does a call to close a scripted channel.
* `closes_next`: what one event does to the calls, and what it adds to the log.
* `first_call_closes`: only the first call reaches the channel. It says farewell, if the agent is
  its own, and then closes the channel once.
-/

namespace Wiretap

namespace Closing

/-- What the channel answers to a call. -/
inductive Reply where
  /-- So many bytes of the farewell were written, or none. -/
  | wrote (r : Except Fault Nat)
  | hungUp (r : Except Fault Unit)

/-- What a call asks of the channel. -/
inductive Demand where
  | write (data : Bytes)
  | hangUp
  deriving DecidableEq, Repr

/-- A call goes on with the answer that it waits for. Whether the farewell could be written does not
matter. -/
def next? : Closing → Reply → Option Closing
  | .farewell, .wrote _ => some .hangUp
  | .hangUp, .hungUp r => some (.done r)
  | _, _ => none

/-- What a call asks for while it waits. -/
def demand? : Closing → Option Demand
  | .farewell => some (.write (Frame.bytes .exit))
  | .hangUp => some .hangUp
  | .done _ => none

end Closing

/-- The farewell fits into a frame, so that there always is one to write. -/
theorem encode_exit : Frame.encode .exit = .ok (Frame.bytes .exit) := rfl

/-! ## The calls that are made -/

namespace Session.State

variable {s : State} {c : Closing}

theorem stepStage?_wroteFarewell (h : s.stage = .closing c) (now : Nat) (r : Except Fault Nat) :
    s.stepStage? now (.wroteFarewell r) =
      (c.next? (.wrote r)).map fun c => { s with stage := stageAfter c } := by
  cases c <;> simp [stepStage?, h, Closing.next?, stageAfter]

theorem stepStage?_hungUp (h : s.stage = .closing c) (now : Nat) (r : Except Fault Unit) :
    s.stepStage? now (.hungUp r) =
      (c.next? (.hungUp r)).map fun c => { s with stage := stageAfter c } := by
  cases c <;> simp [stepStage?, h, Closing.next?, stageAfter]

/-- What a call of the receiver comes to. -/
def afterCall (s : State) : Closing → State
  | .done _ => s.endReceiver .complete
  | c => { s with receiver := .closing c }

theorem stepReceiver?_wroteFarewell (h : s.receiver = .closing c) (r : Except Fault Nat) :
    s.stepReceiver? (.wroteFarewell r) = (c.next? (.wrote r)).map s.afterCall := by
  cases c <;> simp [stepReceiver?, h, Closing.next?, afterCall]

theorem stepReceiver?_hungUp (h : s.receiver = .closing c) (r : Except Fault Unit) :
    s.stepReceiver? (.hungUp r) = (c.next? (.hungUp r)).map s.afterCall := by
  cases c <;> simp [stepReceiver?, h, Closing.next?, afterCall]

end Session.State

namespace Connection

open Closing (Reply Demand)

/-- A connection, and the calls to close it in the order in which they were made. One that was given
up is `none`. -/
structure Closers where
  conn : Connection
  calls : List (Option Closing) := []

/-- Something that happens to the calls. -/
inductive Event where
  | close
  /-- The channel answers that call. -/
  | answer (i : Nat) (r : Reply)
  /-- That call is given up. -/
  | drop (i : Nat)

namespace Closers

/-- Nobody has called yet. -/
def start (owner : Bool) : Closers := ⟨{ owner }, []⟩

/-- Where that call stands. -/
def call? (s : Closers) (i : Nat) : Option Closing := s.calls[i]?.join

/-- The calls after an event, if that can happen now. -/
def act? (s : Closers) : Event → Option Closers
  | .close => some ⟨s.conn.beginClose.1, s.calls ++ [some s.conn.beginClose.2]⟩
  | .answer i r =>
    ((s.call? i).bind (·.next? r)).map fun c => { s with calls := s.calls.set i (some c) }
  | .drop i =>
    ((s.call? i).bind Closing.demand?).map fun _ => { s with calls := s.calls.set i none }

/-- What is asked of the channel, and by which call. -/
def asks (s : Closers) : Event → List (Nat × Demand)
  | .close => (s.conn.beginClose.2.demand?.map (s.calls.length, ·)).toList
  | .answer i r => (((s.call? i).bind (·.next? r)).bind (·.demand?.map (i, ·))).toList
  | .drop _ => []

end Closers

/-- What was asked of the channel, and by which call. -/
def demands (s : Closers) (es : List Event) : List (Nat × Demand) :=
  history Closers.act? Closers.asks s es

/-- What the first call asks for. -/
def parting (owner : Bool) : List (Nat × Demand) :=
  if owner then [(0, .write (Frame.bytes .exit)), (0, .hangUp)] else [(0, .hangUp)]

/-- The answers of the channel. -/
def answers (es : List Event) : List (Nat × Reply) :=
  es.filterMap fun
    | .answer i r => some (i, r)
    | _ => none

variable {owner : Bool} {s s' : Closers} {e : Event} {es : List Event} {as : List (Nat × Reply)}
  {log : List (Nat × Demand)} {first : Option Closing} {c : Closing} {r : Reply} {i n : Nat}

/-- How far the first call is, what it has asked for and what it has been answered. -/
inductive First (owner : Bool) : List (Nat × Reply) → List (Nat × Demand) → Option Closing → Prop
  | farewell (howner : owner = true) :
      First owner [] [(0, .write (Frame.bytes .exit))] (some .farewell)
  | hangUp {as : List (Nat × Reply)} (has : ∀ a ∈ as, ∃ w, a = (0, .wrote w)) :
      First owner as (parting owner) (some .hangUp)
  | done {as : List (Nat × Reply)} {result : Except Fault Unit}
      (has : ∀ a ∈ as, ∃ w, a = (0, .wrote w)) :
      First owner (as ++ [(0, .hungUp result)]) (parting owner) (some (.done result))
  /-- It was given up before it could say farewell. -/
  | unsaid (howner : owner = true) : First owner [] [(0, .write (Frame.bytes .exit))] none
  /-- It was given up after that. -/
  | unheard {as : List (Nat × Reply)} (has : ∀ a ∈ as, ∃ w, a = (0, .wrote w)) :
      First owner as (parting owner) none

/-- What the calls have come to. -/
inductive Closes (owner : Bool) : List (Nat × Reply) → List (Nat × Demand) → Closers → Prop where
  | start : Closes owner [] [] (.start owner)
  /-- All calls but the first one are done at once. -/
  | closed {as : List (Nat × Reply)} {log : List (Nat × Demand)} {first : Option Closing} {n : Nat}
      (hfirst : First owner as log first) :
      Closes owner as log ⟨⟨owner, true⟩, first :: List.replicate n (some (.done (.ok ())))⟩

theorem First.answer (h : First owner as log (some c)) {c' : Closing}
    (hnext : c.next? r = some c') :
    First owner (as ++ [(0, r)]) (log ++ (c'.demand?.map (0, ·)).toList) (some c') := by
  cases h with
  | farewell howner =>
    cases r <;> cases hnext
    subst howner
    exact .hangUp (by simp)
  | hangUp has =>
    cases r <;> cases hnext
    simpa [Closing.demand?] using First.done has
  | done => cases hnext

theorem First.drop (h : First owner as log (some c)) (hwaits : c.demand?.isSome = true) :
    First owner as log none := by
  cases h with
  | farewell howner => exact .unsaid howner
  | hangUp has => exact .unheard has
  | done => cases hwaits

/-- Only the first call may still be waiting. -/
theorem call?_cons {conn : Connection} {result : Except Fault Unit}
    (hcall : Closers.call? ⟨conn, first :: List.replicate n (some (.done result))⟩ i = some c) :
    i = 0 ∧ first = some c ∨ c = .done result := by
  cases i with
  | zero => exact .inl ⟨rfl, by simpa [Closers.call?] using hcall⟩
  | succ i =>
    rw [Closers.call?, List.getElem?_cons_succ, List.getElem?_replicate] at hcall
    split at hcall <;> cases hcall
    exact .inr rfl

/-- **What one event does to the calls**, and what it adds to the log. -/
theorem closes_next (hact : s.act? e = some s') (h : Closes owner as log s) :
    Closes owner (as ++ answers [e]) (log ++ s.asks e) s' := by
  cases h with
  | start =>
    cases e with
    | close =>
      cases hact
      cases owner with
      | true => exact .closed (n := 0) (.farewell rfl)
      | false => exact .closed (n := 0) (.hangUp nofun)
    | answer i r => cases hact
    | drop i => cases hact
  | @closed _ _ first n hfirst =>
    cases e with
    | close =>
      cases hact
      show Closes owner (as ++ []) (log ++ []) _
      rw [List.append_nil, List.append_nil]
      have hdone := Closes.closed (n := n + 1) hfirst
      rw [List.replicate_succ'] at hdone
      exact hdone
    | answer i r =>
      obtain ⟨c', hc', rfl⟩ := Option.map_eq_some_iff.mp hact
      obtain ⟨c, hcall, hnext⟩ := Option.bind_eq_some_iff.mp hc'
      rcases call?_cons hcall with ⟨rfl, rfl⟩ | rfl
      · simp only [Closers.asks, hcall, Option.bind_some, hnext]
        exact .closed (hfirst.answer hnext)
      · cases hnext
    | drop i =>
      obtain ⟨q, hq, rfl⟩ := Option.map_eq_some_iff.mp hact
      obtain ⟨c, hcall, hwaits⟩ := Option.bind_eq_some_iff.mp hq
      rcases call?_cons hcall with ⟨rfl, rfl⟩ | rfl
      · show Closes owner (as ++ []) (log ++ []) _
        rw [List.append_nil, List.append_nil]
        exact .closed (hfirst.drop (Option.isSome_of_eq_some hwaits))
      · cases hwaits

theorem closes_of_run? (hrun : run? Closers.act? (.start owner) es = some s) :
    Closes owner (answers es) (demands (.start owner) es) s := by
  refine run?_invariant (motive := fun es s =>
    Closes owner (answers es) (demands (.start owner) es) s) .start ?_ hrun
  intro past s e s' hrun hcloses he
  have hanswers : answers (past ++ [e]) = answers past ++ answers [e] := List.filterMap_append
  rw [hanswers, demands, history_concat past e hrun]
  exact closes_next he hcloses

theorem mem_answers : (i, r) ∈ answers es ↔ .answer i r ∈ es := by
  simp only [answers, List.mem_filterMap]
  constructor
  · rintro ⟨e, hmem, he⟩
    split at he <;> cases he
    exact hmem
  · intro hmem
    exact ⟨_, hmem, rfl⟩

/-- A closed connection stays closed. -/
theorem closed_of_run? (hclosed : s.conn.closed = true)
    (hrun : run? Closers.act? s es = some s') : s'.conn.closed = true := by
  refine run?_invariant (motive := fun _ s => s.conn.closed = true) hclosed ?_ hrun
  intro past s e s' _ hclosed he
  cases e with
  | close =>
    cases he
    exact closed_beginClose s.conn
  | answer i r =>
    obtain ⟨c, -, rfl⟩ := Option.map_eq_some_iff.mp he
    exact hclosed
  | drop i =>
    obtain ⟨q, -, rfl⟩ := Option.map_eq_some_iff.mp he
    exact hclosed

/-! ## Scripted channels -/

theorem call?_concat (conn : Connection) (calls : List (Option Closing)) (call : Option Closing) :
    Closers.call? ⟨conn, calls ++ [call]⟩ calls.length = call := by
  simp [Closers.call?]

/-- A call that was just made goes on. -/
theorem act?_answer_concat (conn : Connection) (calls : List (Option Closing)) (c : Closing)
    (r : Reply) : Closers.act? ⟨conn, calls ++ [some c]⟩ (.answer calls.length r) =
      (c.next? r).map fun c => ⟨conn, calls ++ [some c]⟩ := by
  rw [Closers.act?, call?_concat, Option.bind_some]
  simp

theorem asks_answer_concat (conn : Connection) (calls : List (Option Closing)) (c : Closing)
    (r : Reply) : Closers.asks ⟨conn, calls ++ [some c]⟩ (.answer calls.length r) =
      ((c.next? r).bind (·.demand?.map (calls.length, ·))).toList := by
  rw [Closers.asks, call?_concat, Option.bind_some]

theorem act?_drop_concat (conn : Connection) (calls : List (Option Closing)) (c : Closing) :
    Closers.act? ⟨conn, calls ++ [some c]⟩ (.drop calls.length) =
      c.demand?.map fun _ => ⟨conn, calls ++ [none]⟩ := by
  rw [Closers.act?, call?_concat, Option.bind_some]
  simp

theorem closes_write? {channel channel' : Scenario.Channel} {data : Bytes} {w : Except Fault Nat}
    (h : channel.write? data = some (w, channel')) : channel'.closes = channel.closes := by
  unfold Scenario.Channel.write? at h
  split at h
  next => cases h
  next =>
    simp only at h
    split at h <;> cases h <;> rfl

/-- How often it is demanded that the channel be closed. -/
def hangUps (log : List (Nat × Demand)) : Nat := log.countP (·.2 = .hangUp)

/-- A call on a scripted channel goes as far as the channel lets it, and is given up where it would
wait. -/
theorem run?_of_proceed (l : Scenario.Line) (calls : List (Option Closing)) (c : Closing) :
    ∃ es, run? Closers.act? ⟨l.conn, calls ++ [some c]⟩ es =
        some ⟨(l.proceed c).2.conn, calls ++ [(l.proceed c).1.map .done]⟩ ∧
      (l.proceed c).2.channel.closes = l.channel.closes + hangUps
        ((c.demand?.map (calls.length, ·)).toList ++ demands ⟨l.conn, calls ++ [some c]⟩ es) := by
  cases c with
  | done result => exact ⟨[], rfl, rfl⟩
  | hangUp =>
    refine ⟨[.answer calls.length (.hungUp l.channel.close.1)], ?_, ?_⟩
    · rw [run?_cons, act?_answer_concat]
      rfl
    · simp only [demands, history, asks_answer_concat, act?_answer_concat]
      rfl
  | farewell =>
    cases hwrite : l.channel.write? (Frame.bytes .exit) with
    | none =>
      have hproceed : l.proceed .farewell = (none, l) := by simp [Scenario.Line.proceed, hwrite]
      rw [hproceed]
      refine ⟨[.drop calls.length], ?_, ?_⟩
      · rw [run?_cons, act?_drop_concat]
        rfl
      · simp only [demands, history, act?_drop_concat]
        rfl
    | some written =>
      obtain ⟨w, channel⟩ := written
      have hproceed : l.proceed .farewell =
          (some channel.close.1, { l with channel := channel.close.2 }) := by
        simp [Scenario.Line.proceed, hwrite]
      have hcloses := closes_write? hwrite
      rw [hproceed]
      refine ⟨[.answer calls.length (.wrote w), .answer calls.length (.hungUp channel.close.1)],
        ?_, ?_⟩
      · simp only [run?_cons, act?_answer_concat, Closing.next?, Option.map_some, Option.bind_some]
        rfl
      · simp only [demands, history, asks_answer_concat, act?_answer_concat, Closing.next?,
          Option.map_some, Option.bind_some]
        rw [← hcloses]
        rfl

/-- **A call to close a scripted channel** is one of any number of calls. -/
theorem run?_of_close (l : Scenario.Line) (calls : List (Option Closing)) :
    ∃ es, run? Closers.act? ⟨l.conn, calls⟩ es =
        some ⟨l.close.2.conn, calls ++ [l.close.1.map .done]⟩ ∧
      l.close.2.channel.closes = l.channel.closes + hangUps (demands ⟨l.conn, calls⟩ es) := by
  obtain ⟨es, hrun, hcloses⟩ :=
    run?_of_proceed { l with conn := l.conn.beginClose.1 } calls l.conn.beginClose.2
  refine ⟨.close :: es, ?_, ?_⟩
  · rw [run?_cons]
    exact hrun
  · exact hcloses

/-! ## Any number of calls -/

/-- What the calls to close a connection have come to. -/
structure ClosedOnce (owner : Bool) (es : List Event) (s : Closers) : Prop where
  /-- Nothing else is asked of the channel, and nothing twice. -/
  isPrefix : demands (.start owner) es <+: parting owner
  /-- Once the farewell is written, or could not be, the channel is closed. -/
  goes_on : ∀ i w, .answer i (.wrote w) ∈ es → demands (.start owner) es = parting owner
  /-- Every call but the first is done at once. -/
  others : ∀ i c, s.calls[i + 1]? = some c → c = some (.done (.ok ()))
  closed_iff : s.conn.closed = true ↔ s.calls ≠ []
  stays_closed : s.conn.closed = true → ∀ es' s', run? Closers.act? s es' = some s' →
    s'.conn.closed = true
  /-- When the first call is done, the channel was closed, and has answered so. -/
  result : ∀ result, s.calls[0]? = some (some (.done result)) →
    demands (.start owner) es = parting owner ∧
      ∀ i result', .answer i (.hungUp result') ∈ es ↔ i = 0 ∧ result' = result

theorem First.isPrefix (h : First owner as log first) : log <+: parting owner := by
  cases h with
  | farewell howner | unsaid howner =>
    subst howner
    exact List.prefix_append [_] [_]
  | hangUp | done | unheard => exact List.prefix_rfl

theorem First.goes_on (h : First owner as log first) {w : Except Fault Nat}
    (hw : (i, .wrote w) ∈ as) : log = parting owner := by
  cases h with
  | farewell | unsaid => cases hw
  | hangUp | done | unheard => rfl

theorem First.result {result : Except Fault Unit}
    (h : First owner as log (some (.done result))) : log = parting owner ∧
      ∀ i result', (i, .hungUp result') ∈ as ↔ i = 0 ∧ result' = result := by
  cases h with
  | done has =>
    refine ⟨rfl, fun i result' => ?_⟩
    rw [List.mem_append, List.mem_singleton]
    constructor
    · rintro (hmem | heq)
      · obtain ⟨w, hw⟩ := has _ hmem
        cases hw
      · cases heq
        exact ⟨rfl, rfl⟩
    · rintro ⟨rfl, rfl⟩
      exact .inr rfl

/-- **Only the first call to close a connection reaches the channel**, and it does all that there is
to do once. -/
theorem first_call_closes (hrun : run? Closers.act? (.start owner) es = some s) :
    ClosedOnce owner es s := by
  have hcloses := closes_of_run? hrun
  have hstays : s.conn.closed = true → ∀ es' s', run? Closers.act? s es' = some s' →
      s'.conn.closed = true := fun hclosed _ _ => closed_of_run? hclosed
  generalize has : answers es = as at hcloses
  generalize hlog : demands (.start owner) es = log at hcloses
  cases hcloses with
  | start =>
    refine ⟨?_, ?_, nofun, by simp [Closers.start], hstays, nofun⟩
    · rw [hlog]
      exact List.nil_prefix
    · intro i w hmem
      rw [← mem_answers, has] at hmem
      cases hmem
  | @closed _ _ first n hfirst =>
    subst has hlog
    refine ⟨hfirst.isPrefix, ?_, ?_, by simp, hstays, ?_⟩
    · intro i w hmem
      exact hfirst.goes_on (mem_answers.mpr hmem)
    · intro i c hc
      rw [List.getElem?_cons_succ, List.getElem?_replicate] at hc
      split at hc <;> cases hc
      rfl
    · intro result hdone
      cases hdone
      obtain ⟨hdemands, hmem_iff⟩ := hfirst.result
      refine ⟨hdemands, fun i result' => ?_⟩
      rw [← mem_answers]
      exact hmem_iff i result'

/-- The farewell cannot be written, and the channel does not close well. Others call meanwhile. -/
theorem first_call_closes_unwritten :
    let f : Fault := ⟨.brokenPipe, ""⟩
    let es : List Event :=
      [.close, .close, .answer 0 (.wrote (.error f)), .close, .answer 0 (.hungUp (.error f)),
        .close]
    ∃ s, run? Closers.act? (.start true) es = some s ∧
      s.calls = [some (.done (.error f)), some (.done (.ok ())), some (.done (.ok ())),
        some (.done (.ok ()))] ∧
      demands (.start true) es = [(0, .write [9, 0, 0, 0, 2, 0, 0, 0, 0]), (0, .hangUp)] ∧
      ClosedOnce true es s :=
  ⟨_, rfl, rfl, rfl, first_call_closes rfl⟩

end Connection
end Wiretap
