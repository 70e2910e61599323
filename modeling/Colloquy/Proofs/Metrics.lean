import Colloquy.Metrics
import Colloquy.Proofs.Timeline
/-!
# Calls that share their metrics

Operations are timed on the same metrics, any number of them at once: each starts,
and later completes or is dropped. `Shared` has the calls that are under way
beside the metrics, and `Metrics.instrument` is one of them from its start to its
end (`instrument_eq`). What the metrics say is what has happened (`Tally`), and
the window of response times is the end of the whole history (`record_window`).
-/

namespace Colloquy

namespace Metrics

variable {ε α : Type}

/-! ## The window -/

/-- The latest response times of a history, as many as are kept. -/
def window (history : List Float) : List Float :=
  history.drop (history.length - windowSize)

theorem length_window (history : List Float) :
    (window history).length = min windowSize history.length := by
  rw [window, List.length_drop]
  omega

/-- **A window stays the end of the history** with every response time. -/
theorem record_window {m : Metrics} {history : List Float} (h : m.times = window history)
    (ms : Float) : (m.record ms).times = window (history ++ [ms]) := by
  have hlength := length_window history
  have hsize : 0 < windowSize := by decide
  have hnext : window (history ++ [ms]) =
      history.drop (history.length + 1 - windowSize) ++ [ms] := by
    rw [window, List.length_append, List.length_singleton,
      List.drop_append_of_le_length (by omega)]
  rw [hnext]
  simp only [record, h]
  split
  · rename_i hfull
    rw [window, List.drop_drop]
    congr 2
    omega
  · rename_i hroom
    rw [window]
    congr 2
    omega

/-! ## One operation more -/

/-- One response time more: it stands behind those that are kept, of which the
oldest makes room for it once they are a hundred. -/
def OneMore (before after : List Float) : Prop :=
  ∃ ms, after = (if before.length = 100 then before.tail else before) ++ [ms]

/-- **One request more**, whose operation is under way. -/
structure Begun (before after : Metrics) : Prop where
  requests : after.requests = before.requests + 1
  errors : after.errors = before.errors
  times : after.times = before.times

/-- **One request more**, whose operation is over: it has a response time, and
counts among the errors if it failed. -/
structure Measured (before after : Metrics) (errors : Nat) : Prop where
  requests : after.requests = before.requests + 1
  errors : after.errors = before.errors + errors
  times : OneMore before.times after.times

theorem begun_start (m : Metrics) : m.Begun m.start := ⟨rfl, rfl, rfl⟩

theorem begun_of_eq {before m : Metrics} (h : m = before) : before.Begun m.start :=
  h ▸ begun_start m

theorem oneMore_record (m : Metrics) (ms : Float) : OneMore m.times (m.record ms).times := by
  refine ⟨ms, ?_⟩
  rw [← List.drop_one]
  rfl

/-- An operation that is over has been timed, and counted if it failed. -/
theorem Begun.finish {before m : Metrics} (h : before.Begun m) (ms : Nat) (failed : Bool) :
    before.Measured (m.finish ms failed) failed.toNat := by
  obtain ⟨hrequests, herrors, htimes⟩ := h
  have hmore := oneMore_record m (elapsed ms)
  rw [htimes] at hmore
  cases failed with
  | true => exact ⟨hrequests, congrArg (· + 1) herrors, hmore⟩
  | false => exact ⟨hrequests, herrors, hmore⟩

/-! ## The calls -/

/-- What happens to the calls. One starts, of an operation that would come to a
result; or one that is under way, told by its number, completes or is dropped. -/
inductive Event (ε α : Type) where
  | start (result : Except ε α)
  | complete (call : Nat)
  | drop (call : Nat)

/-- A call that is over: how long it took, and what it returned unless it was
dropped. -/
structure Ended (ε α : Type) where
  call : Nat
  took : Nat
  returned : Option (Except ε α)

/-- Whether it returned an error. -/
def Ended.failed (e : Ended ε α) : Bool :=
  match e.returned with
  | some (.error _) => true
  | _ => false

/-- Metrics, and the calls timed on them. Each has the instant of its start and the
result of its operation, for as long as it is under way. -/
structure Shared (ε α : Type) where
  metrics : Metrics
  calls : List (Option (Nat × Except ε α))

namespace Shared

/-- No call yet. -/
def empty : Shared ε α := ⟨Metrics.empty, []⟩

/-- How many calls are under way. -/
def inFlight (s : Shared ε α) : Nat := s.calls.countP Option.isSome

/-- A call under way is over. Its response time is recorded either way. -/
def close (s : Shared ε α) (now call : Nat) (completes : Bool) :
    Option (Ended ε α) × Shared ε α :=
  match s.calls[call]? with
  | some (some (since, result)) =>
    let e : Ended ε α := ⟨call, now - since, if completes then some result else none⟩
    (some e, ⟨s.metrics.finish e.took e.failed, s.calls.set call none⟩)
  | _ => (none, s)

/-- One event, and the call that is over with it. -/
def step (s : Shared ε α) (c : Timed (Event ε α)) : Option (Ended ε α) × Shared ε α :=
  match c.call with
  | .start result => (none, ⟨s.metrics.start, s.calls ++ [some (c.instant, result)]⟩)
  | .complete call => s.close c.instant call true
  | .drop call => s.close c.instant call false

end Shared

/-- **A timed operation is a call from its start to its end**, with nothing in
between: it completes, or is dropped at its deadline. -/
theorem instrument_eq (m : Metrics) (now takes : Nat) (timeout : Option Nat)
    (result : Except ε α) :
    let deadline := timeout.map (Clock.wake now)
    let ended := Clock.wake now takes
    let last : Timed (Event ε α) :=
      if Clock.isPast deadline ended then ⟨deadline.getD ended, .drop 0⟩
      else ⟨ended, .complete 0⟩
    let started := (Shared.step ⟨m, []⟩ ⟨now, .start result⟩).2
    ∃ e, (started.step last).1 = some e ∧ m.instrument now takes timeout result =
      ((started.step last).2.metrics, e.took, e.returned) := by
  intro deadline ended last started
  by_cases hpast : Clock.isPast deadline ended
  · have hlast : last = ⟨deadline.getD ended, .drop 0⟩ := if_pos hpast
    refine ⟨⟨0, deadline.getD ended - now, none⟩, by rw [hlast]; rfl, ?_⟩
    rw [hlast]
    exact if_pos hpast
  · have hlast : last = ⟨ended, .complete 0⟩ := if_neg hpast
    refine ⟨⟨0, ended - now, some result⟩, by rw [hlast]; rfl, ?_⟩
    rw [hlast]
    refine (if_neg hpast).trans ?_
    cases result <;> rfl

/-! ## The tally -/

/-- A log of events, each with the call that is over with it. -/
abbrev Log (ε α : Type) := List (Timed (Event ε α) × Option (Ended ε α))

/-- The start of a call: its instant, and the result of the operation. -/
def started? (c : Timed (Event ε α)) : Option (Nat × Except ε α) :=
  match c.call with
  | .start result => some (c.instant, result)
  | _ => none

/-- The calls that have started, in order. -/
def Log.starts (log : Log ε α) : List (Nat × Except ε α) := log.filterMap fun x => started? x.1

/-- The calls that are over, in the order of their ends. -/
def Log.ends (log : Log ε α) : List (Ended ε α) := log.filterMap Prod.snd

/-- The response times of the calls that are over. -/
def Log.recorded (log : Log ε α) : List Float := log.ends.map fun e => elapsed e.took

/-- A call ends as its start decides: it took the time since, and returned the
result of its operation, or it was dropped. -/
def Ended.Faithful (starts : List (Nat × Except ε α)) (c : Timed (Event ε α)) (e : Ended ε α) :
    Prop :=
  ∃ since result, starts[e.call]? = some (since, result) ∧ e.took = c.instant - since ∧
    (c.call = .complete e.call ∧ e.returned = some result ∨
      c.call = .drop e.call ∧ e.returned = none)

/-- **What shared metrics say is what has happened.** A call is under way from its
start until it is over, and it is over once. -/
structure Tally (log : Log ε α) (s : Shared ε α) : Prop where
  requests : s.metrics.requests = log.starts.length
  errors : s.metrics.errors = log.ends.countP Ended.failed
  times : s.metrics.times = window log.recorded
  balance : log.ends.length + s.inFlight = log.starts.length
  calls : s.calls = log.starts.mapIdx fun i call =>
    if i ∈ log.ends.map Ended.call then none else some call
  once : (log.ends.map Ended.call).Nodup
  faithful : ∀ c e, (c, some e) ∈ log → e.Faithful log.starts c

variable {log : Log ε α} {s : Shared ε α} {c : Timed (Event ε α)} {e : Ended ε α}

theorem Log.starts_concat (log : Log ε α) (c : Timed (Event ε α)) (e : Option (Ended ε α)) :
    Log.starts (log ++ [(c, e)]) = log.starts ++ (started? c).toList := by
  cases h : started? c <;> simp [starts, h]

theorem Log.ends_concat (log : Log ε α) (c : Timed (Event ε α)) (e : Option (Ended ε α)) :
    Log.ends (log ++ [(c, e)]) = log.ends ++ e.toList := by
  cases e <;> simp [ends]

/-- What a call did is not changed by a start that comes later. -/
theorem Ended.Faithful.append {starts : List (Nat × Except ε α)} (h : e.Faithful starts c)
    (later : List (Nat × Except ε α)) : e.Faithful (starts ++ later) c := by
  obtain ⟨since, result, hstart, hrest⟩ := h
  have hlt := (List.getElem?_eq_some_iff.1 hstart).1
  exact ⟨since, result, (List.getElem?_append_left hlt).trans hstart, hrest⟩

/-- A call that is over has started. -/
theorem Tally.lt_of_over (h : Tally log s) {i : Nat} (hi : i ∈ log.ends.map Ended.call) :
    i < log.starts.length := by
  obtain ⟨e, he, rfl⟩ := List.mem_map.1 hi
  obtain ⟨⟨c, e'⟩, hmem, rfl⟩ := List.mem_filterMap.1 he
  obtain ⟨since, result, hstart, -⟩ := h.faithful c e hmem
  exact (List.getElem?_eq_some_iff.1 hstart).1

/-- **A call is under way** if it has started and is not over. -/
theorem Tally.underWay_iff (h : Tally log s) {i : Nat} {call : Nat × Except ε α} :
    s.calls[i]? = some (some call) ↔
      log.starts[i]? = some call ∧ i ∉ log.ends.map Ended.call := by
  rw [h.calls, List.getElem?_mapIdx]
  cases log.starts[i]? with
  | none => simp
  | some call' =>
    by_cases hover : i ∈ log.ends.map Ended.call
    · simp [hover]
    · simp [hover]

/-! ## What an event does -/

theorem finish_requests (m : Metrics) (ms : Nat) (failed : Bool) :
    (m.finish ms failed).requests = m.requests := by
  cases failed <;> rfl

theorem finish_errors (m : Metrics) (ms : Nat) (failed : Bool) :
    (m.finish ms failed).errors = m.errors + failed.toNat := by
  cases failed <;> rfl

theorem finish_window {m : Metrics} {history : List Float} (h : m.times = window history)
    (ms : Nat) (failed : Bool) :
    (m.finish ms failed).times = window (history ++ [elapsed ms]) := by
  cases failed with
  | true => exact record_window (m := m.fail) h _
  | false => exact record_window h _

/-- A call starts. -/
theorem Tally.start (h : Tally log s) (instant : Nat) (result : Except ε α) :
    Tally (log ++ [(⟨instant, .start result⟩, none)])
      ⟨s.metrics.start, s.calls ++ [some (instant, result)]⟩ := by
  have hstarts := log.starts_concat ⟨instant, .start result⟩ none
  have hends := log.ends_concat ⟨instant, .start result⟩ none
  rw [Option.toList_none, List.append_nil] at hends
  have hrecorded : Log.recorded (log ++ [(⟨instant, .start result⟩, none)]) = log.recorded := by
    rw [Log.recorded, hends, Log.recorded]
  refine ⟨?_, ?_, ?_, ?_, ?_, ?_, fun c e he => ?_⟩
  · rw [hstarts, List.length_append]
    exact congrArg (· + 1) h.requests
  · rw [hends]
    exact h.errors
  · rw [hrecorded]
    exact h.times
  · rw [hends, hstarts, List.length_append, ← h.balance, Shared.inFlight, List.countP_append]
    rfl
  · -- the new call is not among those that are over
    have hnew : log.starts.length ∉ log.ends.map Ended.call :=
      fun hover => Nat.lt_irrefl _ (h.lt_of_over hover)
    rw [hends, hstarts]
    simp only [started?, Option.toList_some, List.mapIdx_concat, if_neg hnew, h.calls]
  · rw [hends]
    exact h.once
  · rw [hstarts]
    rcases List.mem_append.1 he with hlog | hlast
    · exact (h.faithful c e hlog).append _
    · cases List.mem_singleton.1 hlast

/-- Nothing happens to a call that is not under way. -/
theorem Tally.idle (h : Tally log s) (hc : started? c = none) : Tally (log ++ [(c, none)]) s := by
  have hstarts := log.starts_concat c none
  have hends := log.ends_concat c none
  rw [hc, Option.toList_none, List.append_nil] at hstarts
  rw [Option.toList_none, List.append_nil] at hends
  obtain ⟨hrequests, herrors, htimes, hbalance, hcalls, honce, hfaithful⟩ := h
  refine ⟨?_, ?_, ?_, ?_, ?_, ?_, fun c e he => ?_⟩
  · rwa [hstarts]
  · rwa [hends]
  · rwa [Log.recorded, hends]
  · rwa [hends, hstarts]
  · rwa [hends, hstarts]
  · rwa [hends]
  · rw [hstarts]
    rcases List.mem_append.1 he with hlog | hlast
    · exact hfaithful c e hlog
    · cases List.mem_singleton.1 hlast

/-- A call under way is over. -/
theorem Tally.close (h : Tally log s) {call : Nat × Except ε α} (hc : started? c = none)
    (hunder : s.calls[e.call]? = some (some call)) (he : e.Faithful log.starts c) :
    Tally (log ++ [(c, some e)])
      ⟨s.metrics.finish e.took e.failed, s.calls.set e.call none⟩ := by
  have hstarts := log.starts_concat c (some e)
  have hends := log.ends_concat c (some e)
  rw [hc, Option.toList_none, List.append_nil] at hstarts
  rw [Option.toList_some] at hends
  have hrecorded : Log.recorded (log ++ [(c, some e)]) = log.recorded ++ [elapsed e.took] := by
    rw [Log.recorded, hends, List.map_append]
    rfl
  obtain ⟨hlt, hcall⟩ := List.getElem?_eq_some_iff.1 hunder
  refine ⟨?_, ?_, ?_, ?_, ?_, ?_, fun c' e' he' => ?_⟩
  · rw [finish_requests, hstarts]
    exact h.requests
  · rw [finish_errors, hends, List.countP_append, ← h.errors]
    cases hfailed : e.failed <;> simp [hfailed]
  · rw [hrecorded]
    exact finish_window h.times e.took e.failed
  · -- one call fewer is under way
    have hpos : 0 < s.calls.countP Option.isSome :=
      List.countP_pos_iff.2 ⟨_, List.mem_of_getElem? hunder, rfl⟩
    have hbalance := h.balance
    rw [Shared.inFlight] at hbalance
    rw [hends, hstarts, ← hbalance, List.length_append, Shared.inFlight,
      List.countP_set hlt, hcall]
    simp only [List.length_singleton, Option.isSome_some, Option.isSome_none, if_true,
      Bool.false_eq_true, if_false]
    omega
  · refine List.ext_getElem? fun i => ?_
    rw [hends, hstarts, List.getElem?_set, List.getElem?_mapIdx, List.map_append]
    by_cases hi : e.call = i
    · obtain ⟨hstarted, -⟩ := h.underWay_iff.1 hunder
      subst hi
      simp [hlt, hstarted]
    · rw [if_neg hi, h.calls, List.getElem?_mapIdx]
      simp [Ne.symm hi]
  · rw [hends, List.map_append]
    obtain ⟨-, hnot⟩ := h.underWay_iff.1 hunder
    refine List.nodup_append.2 ⟨h.once, by simp, fun call hcall last hlast => ?_⟩
    rw [List.mem_singleton.1 hlast]
    exact fun heq => hnot (heq ▸ hcall)
  · rw [hstarts]
    rcases List.mem_append.1 he' with hlog | hlast
    · exact h.faithful c' e' hlog
    · cases List.mem_singleton.1 hlast
      exact he

/-- **Every event leaves the tally right.** -/
theorem Tally.step (h : Tally log s) (c : Timed (Event ε α)) :
    Tally (log ++ [(c, (s.step c).1)]) (s.step c).2 := by
  obtain ⟨instant, event⟩ := c
  have hclose : ∀ call completes, started? ⟨instant, event⟩ = none →
      (event = if completes then .complete call else .drop call) →
      Tally (log ++ [(⟨instant, event⟩, (s.close instant call completes).1)])
        (s.close instant call completes).2 := by
    intro call completes hstarts hevent
    rw [Shared.close]
    split
    · rename_i since result hunder
      refine h.close hstarts hunder ⟨since, result, (h.underWay_iff.1 hunder).1, rfl, ?_⟩
      cases completes with
      | true => exact .inl ⟨hevent, rfl⟩
      | false => exact .inr ⟨hevent, rfl⟩
    · exact h.idle hstarts
  cases event with
  | start result => exact h.start instant result
  | complete call => exact hclose call true rfl rfl
  | drop call => exact hclose call false rfl rfl

end Metrics

end Colloquy
