import Colloquy.Proofs.Dispatch.Effect
import Mathlib.Data.Nat.Find
/-!
# The attempts of a run

A run makes its attempts up to the first success, or as many as its policy
allows (`RetryPolicy.Tries`). `RetryPolicy.startOf` adds up the durations and the
pauses before each of them, and `Tries.runFrom_eq` says that the run starts them
at these instants. A deadline cuts the run off and leaves what has started by
then (`runFrom_deadline`). `run_course` is the law of both. The attempts of a
command are those of a run (`Ports.ask_eq_runFrom`).

A pause whose end is no instant of the clock lasts thirty years. Settings allow
it, and then the sums are not the instants (`run_of_endless_pause`).
-/

namespace Colloquy

namespace Clock

/-- How long a wait lasts that begins at an instant: as long as it is meant to, or
thirty years when the clock has no instant for its end. -/
def lasting (now ms : Nat) : Nat := if now + ms < horizon then ms else farOff

theorem wake_eq (now ms : Nat) : wake now ms = now + lasting now ms := by
  simp only [wake, later?, lasting]
  split <;> rfl

theorem lasting_of_lt {now ms : Nat} (h : now + ms < horizon) : lasting now ms = ms := if_pos h

/-- Without a deadline nothing comes too late. -/
theorem not_isPast_none (instant : Nat) : ¬ isPast none instant = true := Bool.false_ne_true

end Clock

namespace RetryPolicy

variable {ε α : Type}

/-- The instant at which an attempt starts, counted from zero, when the ones
before it have failed: each of them takes its time, and a pause stands behind
it. -/
def startOf (delay : Nat) (takes : Nat → Nat) : Nat → Nat
  | 0 => 0
  | i + 1 =>
    let ended := startOf delay takes i + Clock.lasting (startOf delay takes i) (takes i)
    ended + Clock.lasting ended delay

/-- The instant at which it ends. -/
def endOf (delay : Nat) (takes : Nat → Nat) (i : Nat) : Nat :=
  startOf delay takes i + Clock.lasting (startOf delay takes i) (takes i)

theorem startOf_succ (delay : Nat) (takes : Nat → Nat) (i : Nat) :
    startOf delay takes (i + 1) =
      endOf delay takes i + Clock.lasting (endOf delay takes i) delay := rfl

/-- The durations of a number of attempts, each with a pause behind it. -/
def sumTo (delay : Nat) (takes : Nat → Nat) : Nat → Nat
  | 0 => 0
  | i + 1 => sumTo delay takes i + (takes i + delay)

/-- The pauses can be added up apart. -/
theorem sumTo_eq (delay : Nat) (takes : Nat → Nat) (i : Nat) :
    sumTo delay takes i = sumTo 0 takes i + i * delay := by
  induction i with
  | zero => rw [Nat.zero_mul, sumTo, sumTo]
  | succ i ih =>
    rw [sumTo, sumTo, ih, Nat.succ_mul]
    omega

/-- **Nothing is added to the durations and the pauses**, as long as the clock has
instants for them. -/
theorem startOf_eq_sumTo {delay : Nat} {takes : Nat → Nat} {i : Nat}
    (hfits : sumTo delay takes i < Clock.horizon) :
    startOf delay takes i = sumTo delay takes i := by
  induction i with
  | zero => rfl
  | succ i ih =>
    rw [sumTo] at hfits ⊢
    have hstart := ih (by omega)
    have hend : endOf delay takes i = startOf delay takes i + takes i := by
      rw [endOf, Clock.lasting_of_lt (by omega)]
    rw [startOf_succ, hend, Clock.lasting_of_lt (by omega)]
    omega

/-- No pause stands behind the last of the durations. -/
theorem endOf_eq_sumTo {delay : Nat} {takes : Nat → Nat} {i : Nat}
    (hfits : sumTo 0 takes (i + 1) + i * delay < Clock.horizon) :
    endOf delay takes i = sumTo 0 takes (i + 1) + i * delay := by
  rw [sumTo] at hfits ⊢
  have hstart : startOf delay takes i = sumTo 0 takes i + i * delay := by
    rw [startOf_eq_sumTo, sumTo_eq]
    rw [sumTo_eq]
    omega
  rw [endOf, Clock.lasting_of_lt (by omega)]
  omega

/-- **How many attempts are made** under a limit: those up to the first success,
and as many as the limit when there is none before. -/
structure Tries (limit : Nat) (attempt : Nat → Except ε α × Nat) (k : Nat) : Prop where
  pos : 0 < k
  le_limit : k ≤ limit
  failed : ∀ i, i + 1 < k → ∃ e, (attempt i).1 = .error e
  settled : k < limit → ∃ a, (attempt (k - 1)).1 = .ok a

variable {p : RetryPolicy} {attempt : Nat → Except ε α × Nat} {limit k : Nat}

theorem exists_tries (attempt : Nat → Except ε α × Nat) (hlimit : 0 < limit) :
    ∃ k, Tries limit attempt k := by
  have herror : ∀ i, (¬ ∃ a, (attempt i).1 = .ok a) → ∃ e, (attempt i).1 = .error e := by
    intro i hnot
    cases hi : (attempt i).1 with
    | ok a => exact absurd ⟨a, hi⟩ hnot
    | error e => exact ⟨e, rfl⟩
  classical
  by_cases hsome : ∃ i, i < limit ∧ ∃ a, (attempt i).1 = .ok a
  · obtain ⟨hlt, hok⟩ := Nat.find_spec hsome
    refine ⟨Nat.find hsome + 1, by omega, hlt, fun i hi => herror i fun hi' => ?_, fun _ => hok⟩
    exact Nat.find_min hsome (by omega) ⟨by omega, hi'⟩
  · refine ⟨limit, hlimit, Nat.le_refl _, fun i hi => herror i fun hi' => ?_,
      fun hlt => absurd hlt (Nat.lt_irrefl _)⟩
    exact hsome ⟨i, by omega, hi'⟩

/-- The last attempt settles the run. -/
theorem Tries.afterAttempt_last (hk : Tries p.attempts attempt k) :
    p.afterAttempt (k - 1) (attempt (k - 1)).1 = .settled (attempt (k - 1)).1 := by
  have hpos := hk.pos
  cases hlast : (attempt (k - 1)).1 with
  | ok a => rfl
  | error e =>
    have hnone : ¬ k < p.attempts := fun hlt => by
      obtain ⟨a, ha⟩ := hk.settled hlt
      rw [hlast] at ha
      cases ha
    rw [afterAttempt, if_neg (by omega)]

/-- An attempt before the last leads to a pause. -/
theorem Tries.afterAttempt_earlier (hk : Tries p.attempts attempt k) {made : Nat}
    (hmade : made + 1 < k) : p.afterAttempt made (attempt made).1 = .pausing (made + 1) := by
  obtain ⟨e, he⟩ := hk.failed made hmade
  rw [he, afterAttempt, if_pos (Nat.lt_of_lt_of_le hmade hk.le_limit)]

/-- **A run makes these attempts**, one after another, and gives the last
result. -/
theorem Tries.runFrom_eq (hk : Tries p.attempts attempt k) (rest : Nat) :
    ∀ made left, made + rest + 1 = k → made + left = p.attempts →
      runFrom p none attempt (startOf p.delay (fun i => (attempt i).2) made) made left =
        ⟨(List.range' made (rest + 1)).map (startOf p.delay fun i => (attempt i).2),
          endOf p.delay (fun i => (attempt i).2) (k - 1), some (attempt (k - 1)).1⟩ := by
  have hle := hk.le_limit
  -- on the attempts behind the one that starts
  induction rest with
  | zero =>
    intro made left hmade hleft
    obtain ⟨left, rfl⟩ : ∃ n, left = n + 1 := ⟨left - 1, by omega⟩
    obtain rfl : made = k - 1 := by omega
    simp only [runFrom, if_neg (Clock.not_isPast_none _), hk.afterAttempt_last, Clock.wake_eq]
    rfl
  | succ rest ih =>
    intro made left hmade hleft
    obtain ⟨left, rfl⟩ : ∃ n, left = n + 1 := ⟨left - 1, by omega⟩
    have hrest := ih (made + 1) left (by omega) (by omega)
    rw [startOf_succ] at hrest
    simp only [runFrom, if_neg (Clock.not_isPast_none _),
      hk.afterAttempt_earlier (by omega : made + 1 < k), Clock.wake_eq]
    rw [List.range'_succ]
    simp only [endOf] at hrest ⊢
    rw [hrest]
    rfl

/-! ## Runs that are dropped -/

/-- What is left of a run that is dropped at an instant, unless it has ended by
then: the attempts that have started. -/
def Trace.cutAt (t : Trace ε α) (instant : Nat) : Trace ε α :=
  if t.endedAt ≤ instant then t
  else ⟨t.startedAt.filter fun start => start ≤ instant, instant, none⟩

/-- A run with one more attempt in front. -/
def Trace.behind (now : Nat) (t : Trace ε α) : Trace ε α :=
  { t with startedAt := now :: t.startedAt }

/-- An attempt that has started by then is left. -/
theorem Trace.cutAt_behind {now instant : Nat} (hnow : now ≤ instant) (t : Trace ε α) :
    (t.behind now).cutAt instant = (t.cutAt instant).behind now := by
  have hsame : (t.behind now).endedAt = t.endedAt := rfl
  rw [cutAt, cutAt, hsame]
  by_cases hend : t.endedAt ≤ instant
  · rw [if_pos hend, if_pos hend]
  · rw [if_neg hend, if_neg hend]
    simp only [behind, List.filter_cons, hnow, decide_true, if_true]

/-- Nothing is left of a trace that would start behind the cut. -/
theorem Trace.cutAt_of_lt {t : Trace ε α} {instant : Nat}
    (hstarts : ∀ start ∈ t.startedAt, instant < start) (hend : instant < t.endedAt) :
    t.cutAt instant = ⟨[], instant, none⟩ := by
  rw [cutAt, if_neg (Nat.not_le.2 hend), List.filter_eq_nil_iff.2]
  intro start hstart
  simpa using hstarts start hstart

/-- **The step of a run**: an attempt, and behind it the end, or a pause and the
rest. -/
theorem runFrom_succ (p : RetryPolicy) (attempt : Nat → Except ε α × Nat)
    (now made left : Nat) :
    let ended := Clock.wake now (attempt made).2
    let next := Clock.wake ended p.delay
    (∃ result, ∀ deadline, runFrom p deadline attempt now made (left + 1) =
        if Clock.isPast deadline ended then ⟨[now], deadline.getD ended, none⟩
        else ⟨[now], ended, some result⟩) ∨
      ∀ deadline, runFrom p deadline attempt now made (left + 1) =
        if Clock.isPast deadline ended then ⟨[now], deadline.getD ended, none⟩
        else if Clock.isPast deadline next then ⟨[now], deadline.getD next, none⟩
        else (runFrom p deadline attempt next (made + 1) left).behind now := by
  intro ended next
  cases hafter : p.afterAttempt made (attempt made).1 with
  | settled result => exact .inl ⟨result, fun deadline => by simp only [runFrom, hafter]; rfl⟩
  | pausing m => exact .inr fun deadline => by simp only [runFrom, hafter]; rfl
  | attempting m => exact .inr fun deadline => by simp only [runFrom, hafter]; rfl

/-- Nothing of a run comes before its first attempt. -/
theorem le_runFrom (p : RetryPolicy) (attempt : Nat → Except ε α × Nat) (left : Nat) :
    ∀ now made, let t := runFrom p none attempt now made left
      (∀ start ∈ t.startedAt, now ≤ start) ∧ now ≤ t.endedAt := by
  induction left with
  | zero => exact fun now made => ⟨nofun, Nat.le_refl _⟩
  | succ left ih =>
    intro now made
    have hended := Clock.le_wake now (attempt made).2
    have hnext := Clock.le_wake (Clock.wake now (attempt made).2) p.delay
    rcases p.runFrom_succ attempt now made left with ⟨result, hrun⟩ | hrun
    · rw [hrun none, if_neg (Clock.not_isPast_none _)]
      exact ⟨fun start hstart => Nat.le_of_eq (List.mem_singleton.1 hstart).symm, hended⟩
    · rw [hrun none, if_neg (Clock.not_isPast_none _), if_neg (Clock.not_isPast_none _)]
      obtain ⟨hstarts, hend⟩ :=
        ih (Clock.wake (Clock.wake now (attempt made).2) p.delay) (made + 1)
      refine ⟨fun start hstart => ?_, Nat.le_trans hended (Nat.le_trans hnext hend)⟩
      rcases List.mem_cons.1 hstart with rfl | hlater
      · exact Nat.le_refl _
      · exact Nat.le_trans hended (Nat.le_trans hnext (hstarts start hlater))

/-- **A deadline cuts the run off**, in an attempt or in a pause. -/
theorem runFrom_deadline {deadline : Nat} (left : Nat) :
    ∀ now made, now ≤ deadline →
      runFrom p (some deadline) attempt now made left =
        (runFrom p none attempt now made left).cutAt deadline := by
  have hpast : ∀ instant, Clock.isPast (some deadline) instant = true ↔ deadline < instant :=
    fun _ => decide_eq_true_iff
  induction left with
  | zero => exact fun now made hnow => (if_pos hnow).symm
  | succ left ih =>
    intro now made hnow
    have hnext := Clock.le_wake (Clock.wake now (attempt made).2) p.delay
    rcases p.runFrom_succ attempt now made left with ⟨result, hrun⟩ | hrun
    · rw [hrun none, hrun (some deadline), if_neg (Clock.not_isPast_none _)]
      have hcut := Trace.cutAt_behind hnow
        ⟨[], Clock.wake now (attempt made).2, some result⟩
      refine Eq.trans ?_ hcut.symm
      simp only [hpast, Trace.cutAt]
      rcases Nat.lt_or_ge deadline (Clock.wake now (attempt made).2) with hlt | hge
      · rw [if_pos hlt, if_neg (Nat.not_le.2 hlt)]
        rfl
      · rw [if_neg (Nat.not_lt.2 hge), if_pos hge]
        rfl
    · rw [hrun none, hrun (some deadline), if_neg (Clock.not_isPast_none _),
        if_neg (Clock.not_isPast_none _), Trace.cutAt_behind hnow]
      -- a rest that would begin later is cut off as a whole
      have hlate : deadline < Clock.wake (Clock.wake now (attempt made).2) p.delay →
          (runFrom p none attempt (Clock.wake (Clock.wake now (attempt made).2) p.delay) (made + 1)
            left).cutAt deadline = ⟨[], deadline, none⟩ := by
        intro hlt
        obtain ⟨hstarts, hend⟩ := p.le_runFrom attempt left
          (Clock.wake (Clock.wake now (attempt made).2) p.delay) (made + 1)
        exact Trace.cutAt_of_lt (fun start hstart => Nat.lt_of_lt_of_le hlt (hstarts start hstart))
          (Nat.lt_of_lt_of_le hlt hend)
      split
      · rename_i hended
        rw [hlate (Nat.lt_of_lt_of_le ((hpast _).1 hended) hnext)]
        rfl
      · split
        · rename_i hpaused
          rw [hlate ((hpast _).1 hpaused)]
          rfl
        · rename_i hrest
          rw [ih _ _ (Nat.not_lt.1 fun hlt => hrest ((hpast _).2 hlt))]

/-! ## The law -/

/-- **What a run does.** It makes the attempts up to the first success, or as many
as its policy allows, of which zero counts as one. It gives the last result as
it is. An attempt starts behind the durations of those before it and their
pauses, and with the last attempt the run is over; a pause lasts as long as the
policy says, and thirty years where the clock has no instant for its end. So
where the clock has the instants, they are the sums of durations and pauses. And
a run that is dropped has made the attempts that have started by then, and makes
no other. -/
theorem run_course (attempts delay : Nat) (attempt : Nat → Except ε α × Nat) :
    let p := ofAttempts attempts delay
    let takes := fun i => (attempt i).2
    let whole := p.run none attempt
    ∃ k, Tries (max 1 attempts) attempt k ∧
      whole.result = some (attempt (k - 1)).1 ∧
      whole.startedAt = (List.range k).map (startOf delay takes) ∧
      whole.endedAt = endOf delay takes (k - 1) ∧
      (∀ i, sumTo delay takes i < Clock.horizon →
        startOf delay takes i = sumTo delay takes i) ∧
      (sumTo 0 takes k + (k - 1) * delay < Clock.horizon →
        whole.endedAt = sumTo 0 takes k + (k - 1) * delay) ∧
      ∀ instant, let dropped := p.run (some instant) attempt
        (whole.endedAt ≤ instant → dropped = whole) ∧
        (instant < whole.endedAt → dropped =
          ⟨whole.startedAt.filter fun start => start ≤ instant, instant, none⟩) := by
  intro p takes whole
  obtain ⟨k, hk⟩ := exists_tries attempt p.attempts_pos
  have hpos := hk.pos
  have hwhole : whole =
      ⟨(List.range k).map (startOf delay takes), endOf delay takes (k - 1),
        some (attempt (k - 1)).1⟩ := by
    have hrun := hk.runFrom_eq (k - 1) 0 p.attempts (by omega) (Nat.zero_add _)
    rwa [Nat.sub_add_cancel hpos, ← List.range_eq_range'] at hrun
  refine ⟨k, hk, congrArg Trace.result hwhole, congrArg Trace.startedAt hwhole,
    congrArg Trace.endedAt hwhole, fun i => startOf_eq_sumTo, fun hfits => ?_, fun instant => ?_⟩
  · obtain ⟨k, rfl⟩ : ∃ n, k = n + 1 := ⟨k - 1, by omega⟩
    rw [hwhole]
    exact endOf_eq_sumTo hfits
  · have hcut : p.run (some instant) attempt = whole.cutAt instant :=
      runFrom_deadline p.attempts 0 0 (Nat.zero_le _)
    rw [hcut]
    exact ⟨fun hend => if_pos hend, fun hlt => if_neg (Nat.not_le.2 hlt)⟩

/-- Two attempts that fail and a third that does not, with pauses of a tenth of a
second: the third starts at 320 milliseconds, unless the run is dropped at
151. -/
theorem run_course_third :
    let attempt : Nat → Except String Nat × Nat
      | 0 => (.error "a", 50)
      | 1 => (.error "b", 70)
      | _ => (.ok 1, 5)
    let p := ofAttempts 5 100
    let whole := p.run none attempt
    let dropped := p.run (some 151) attempt
    whole.startedAt = [0, 150, 320] ∧ whole.endedAt = 325 ∧ whole.result = some (.ok 1) ∧
      dropped.startedAt = [0, 150] ∧ dropped.endedAt = 151 ∧ dropped.result = none := by
  intro attempt p whole dropped
  obtain ⟨k, hk, hresult, hstarts, -, -, hend, hdropped⟩ := run_course 5 100 attempt
  -- the third is the first that does not fail
  have hthree : k = 3 := by
    rcases Nat.lt_trichotomy k 3 with hless | heq | hmore
    · obtain ⟨a, ha⟩ := hk.settled (Nat.lt_trans hless (by decide))
      have hpos := hk.pos
      obtain rfl | rfl : k = 1 ∨ k = 2 := by omega
      · cases ha
      · cases ha
    · exact heq
    · obtain ⟨e, he⟩ := hk.failed 2 hmore
      cases he
  subst hthree
  have hstarted : whole.startedAt = [0, 150, 320] := hstarts.trans (by decide)
  have hended : whole.endedAt = 325 := hend (by decide)
  have hcut : dropped = ⟨whole.startedAt.filter fun start => start ≤ 151, 151, none⟩ :=
    (hdropped 151).2 (Nat.lt_of_lt_of_eq (by decide) hended.symm)
  rw [hstarted] at hcut
  rw [hcut]
  exact ⟨hstarted, hended, hresult, rfl, rfl, rfl⟩

/-- A pause of 2⁶⁴ - 1 seconds has no end that is an instant, and the second
attempt starts after thirty years. -/
theorem run_of_endless_pause :
    let attempt : Nat → Except String Nat × Nat := fun i =>
      (if i = 0 then .error "a" else .ok 1, 0)
    let delay := Clock.seconds (Nat.pow 2 64 - 1)
    let whole := (ofAttempts 2 delay).run none attempt
    whole.startedAt = [0, Clock.farOff] ∧ whole.endedAt = Clock.farOff ∧
      whole.startedAt ≠ [0, 0 + delay] ∧ whole.endedAt ≠ 0 + 0 + (2 - 1) * delay := by
  decide +kernel

end RetryPolicy

/-! ## The attempts of a command -/

namespace Ports

variable {W : Type} (p : Ports W) (agent : AgentSpec) (task : TaskSpec) (context input : String)

/-- The world behind a number of attempts at the pipeline. -/
def askedWorld (w : W) : Nat → W
  | 0 => w
  | i + 1 => (p.invoke agent task context input (askedWorld w i)).1

/-- What an attempt at the pipeline comes to, and how long it takes. -/
def tried (w : W) (i : Nat) : Except PipelineError String × Nat :=
  let (_, takes, output) :=
    p.invoke agent task context input (p.askedWorld agent task context input w i)
  (output.bind PipelineOutput.result, takes)

/-- **The attempts of a command are those of a run** of its policy. -/
theorem ask_eq_runFrom (policy : RetryPolicy) (w : W) (left : Nat) :
    ∀ now made, made + left + 1 = policy.attempts →
      let asked := p.ask policy.delay agent task context input left
        ⟨p.askedWorld agent task context input w made, now⟩
      let run := policy.runFrom none (p.tried agent task context input w) now made (left + 1)
      run.endedAt = asked.1.now ∧ run.result = some asked.2 ∧
        asked.1.world = p.askedWorld agent task context input w (made + run.startedAt.length) := by
  have hattempt : ∀ now made, p.attempt agent task context input
      ⟨p.askedWorld agent task context input w made, now⟩ =
      (⟨p.askedWorld agent task context input w (made + 1),
        Clock.wake now (p.tried agent task context input w made).2⟩,
        (p.tried agent task context input w made).1) := fun _ _ => rfl
  induction left with
  | zero =>
    intro now made hmade
    simp only [ask, hattempt, RetryPolicy.runFrom, if_neg (Clock.not_isPast_none _)]
    cases (p.tried agent task context input w made).1 with
    | ok text => exact ⟨rfl, rfl, rfl⟩
    | error e =>
      simp only [RetryPolicy.afterAttempt, if_neg (show ¬ made + 1 < policy.attempts by omega)]
      exact ⟨trivial, trivial, rfl⟩
  | succ left ih =>
    intro now made hmade
    simp only [ask, hattempt]
    rw [RetryPolicy.runFrom]
    simp only [if_neg (Clock.not_isPast_none _)]
    cases (p.tried agent task context input w made).1 with
    | ok text => exact ⟨rfl, rfl, rfl⟩
    | error e =>
      simp only [RetryPolicy.afterAttempt, if_pos (show made + 1 < policy.attempts by omega)]
      obtain ⟨hend, hresult, hworld⟩ := ih
        (Clock.wake (Clock.wake now (p.tried agent task context input w made).2) policy.delay)
        (made + 1) (by omega)
      refine ⟨hend, hresult, hworld.trans ?_⟩
      rw [List.length_cons]
      congr 1
      omega

end Ports

end Colloquy
