import Colloquy.Proofs.Dispatch.Uses
import Colloquy.Proofs.Metrics
import Colloquy.Proofs.Named
import Colloquy.Proofs.Session
/-!
# What a reply says about the command behind it

The source of a reply determines what the command has changed and what it
has asked of its ports. `Effect` is that law, one case for each source, and
`effect_of_reply` says that every command that ends in a reply obeys it. Two
kinds of failure share a source and are told apart by their cause: behind a
failure of the registry the pipeline was never asked, behind one of the
pipeline it was asked as often as it may be.

What a command changes at the desk is said by the values that are found there
afterwards: the counts, the response times, the session of the pair and the
entry under the key (`Desk.Refused`, `Desk.Asked`, `Desk.Recorded`).
-/

namespace Colloquy

/-- The records of all rooms, with more behind those of one. -/
def shelve (records : String → List (List UInt8)) (room : String) (more : List (List UInt8)) :
    String → List (List UInt8) :=
  fun q => if q = room then records q ++ more else records q

theorem shelve_nil (records : String → List (List UInt8)) (room : String) :
    shelve records room [] = records := by
  funext q
  simp [shelve]

/-- A view of the records of every room that only writes change: a write that
succeeds puts its record behind those of its room, one that fails changes
nothing. -/
structure Ports.Shelves {W : Type} (p : Ports W) (records : W → String → List (List UInt8)) :
    Prop where
  read : ∀ w u, u.isWrite = false → records (p.after w u) = records w
  written : ∀ w room record, (p.appendRecord room record w).2 = .ok () →
    records (p.appendRecord room record w).1 = shelve (records w) room [record]
  unwritten : ∀ w room record e, (p.appendRecord room record w).2 = .error e →
    records (p.appendRecord room record w).1 = records w

/-- A wait ends no earlier than it began. -/
theorem Clock.le_wake (now ms : Nat) : now ≤ Clock.wake now ms := by
  simp only [Clock.wake, Clock.later?]
  split <;> exact Nat.le_add_right now _

/-- A wait of no time ends at once, at an instant. -/
theorem Clock.wake_zero {now : Nat} (hnow : now < horizon) : wake now 0 = now := by
  simp only [wake, later?, Nat.add_zero, if_pos hnow, Option.getD_some]

namespace Rehearsal

theorem recordsOf_push (w : Rehearsal) (room : String) (record : List UInt8) :
    (w.push room record).recordsOf = shelve w.recordsOf room [record] := by
  funext q
  simp only [push, recordsOf, shelve, Table.get?_put]
  by_cases hq : room = q
  · subst hq
    simp
  · rw [if_neg hq, if_neg (Ne.symm hq)]

/-- The rehearsed ports keep their records on such shelves. -/
theorem shelves (real : Bool) : (ports real).Shelves recordsOf where
  read w u hu := by
    cases u with
    | appendRecord room record => cases hu
    | deleteRecords room => cases hu
    | encrypt key plaintext =>
      simp only [Ports.after, ports, encrypt]
      split
      · rfl
      · split <;> rfl
    | invoke agent task context input =>
      simp only [Ports.after, ports, invoke]
      split <;> rfl
    | lookupKey room => rfl
    | listRecords room limit => rfl
    | reconnect => rfl
    | summarize history => rfl
  written w room record hw := by
    simp only [ports, appendRecord] at hw ⊢
    split at hw
    · cases hw
    · exact recordsOf_push _ room record
    · exact recordsOf_push _ room record
  unwritten w room record e hw := by
    simp only [ports, appendRecord] at hw ⊢
    split at hw
    · rfl
    · cases hw
    · cases hw

end Rehearsal

/-! ## What changes at the desk -/

namespace Desk

/-- What a turn writes into a context: the turns are counted up, in 64 bits, a value
that is no count being zero; the agent and the task are named; every other value
stays. -/
structure Turned (c : ChatCommand) (before after : Context) : Prop where
  turns : Named.find? "turns" after =
    some (.nat ((((Named.find? "turns" before).bind Json.nat?).getD 0 + 1) % Nat.pow 2 64))
  agent : Named.find? "last_agent" after = some (.text c.agent)
  task : Named.find? "last_task" after = some (.text c.task)
  others : ∀ name, name ≠ "turns" → name ≠ "last_agent" → name ≠ "last_task" →
    Named.find? name after = Named.find? name before

/-- A command has come no further than the registry: besides the limiter, only an
expired entry of its key is gone. -/
structure Refused (before after : Desk) (now : Nat) (r : Request) : Prop where
  same : after = { before with limiter := after.limiter, cache := after.cache }
  cache : before.cache.Lapsed after.cache now (cacheKey r)

/-- The pipeline has been asked: the session of the pair is live since an instant,
with nothing written to it, and one request more is counted and timed. -/
structure Asked (before after : Desk) (now since : Nat) (r : Request) (errors : Nat) : Prop where
  same : after = { before with
    limiter := after.limiter
    cache := after.cache
    sessions := after.sessions
    metrics := after.metrics }
  cache : before.cache.Lapsed after.cache now (cacheKey r)
  sessions : before.sessions.Touched after.sessions since (r.user, r.room) Eq
  metrics : before.metrics.Measured after.metrics errors

/-- The turn of a command is recorded: its session counts it and names the agent and
the task, and its text is kept under its key. -/
structure Recorded (before after : Desk) (now : Nat) (r : Request) (text : String) : Prop where
  same : after = { before with cache := after.cache, sessions := after.sessions }
  sessions : before.sessions.Touched after.sessions now (r.user, r.room) (Turned r.command)
  cache : before.cache.Keeps after.cache now (cacheKey r) text

variable {d : Desk} {now : Nat} {r : Request}

/-- A turn is recorded behind the count of its request. -/
theorem Recorded.metrics {before after : Desk} {text : String}
    (h : Recorded before after now r text) : after.metrics = before.metrics := by
  rw [h.same]

theorem refused_checked (h : d.cache.live? now (cacheKey r) = none) :
    d.Refused (d.checked now r) now r :=
  ⟨rfl, ResponseCache.lapsed_dropExpired h⟩

theorem asked_consulted (h : d.cache.live? now (cacheKey r) = none) (since ms : Nat)
    (failed : Bool) :
    d.Asked (d.consulted now r since (d.metrics.start.finish ms failed)) now since r
      failed.toNat where
  same := rfl
  cache := ResponseCache.lapsed_dropExpired h
  sessions := d.sessions.touched_visit since r.user r.room
    (fun session => (session, session.context)) fun _ => rfl
  metrics := (Metrics.begun_start d.metrics).finish ms failed

/-- The values that a turn writes are found. -/
theorem turned_insert (c : ChatCommand) (context : Context) :
    Turned c context (Named.insert "last_task" (.text c.task)
      (Named.insert "last_agent" (.text c.agent) (SessionStore.countUp "turns" context))) := by
  constructor
  · rw [Named.find?_insert_of_ne (by decide), Named.find?_insert_of_ne (by decide),
      SessionStore.countUp, Named.find?_insert_self, SessionStore.count_eq]
  · rw [Named.find?_insert_of_ne (by decide), Named.find?_insert_self]
  · rw [Named.find?_insert_self]
  · intro name hturns hagent htask
    rw [Named.find?_insert_of_ne (Ne.symm htask), Named.find?_insert_of_ne (Ne.symm hagent),
      SessionStore.countUp, Named.find?_insert_of_ne (Ne.symm hturns)]

/-- A turn counts one more. -/
theorem Turned.count {c : ChatCommand} {before after : Context} (h : Turned c before after) :
    SessionStore.count "turns" after = (SessionStore.count "turns" before + 1) % Nat.pow 2 64 := by
  rw [SessionStore.count_eq, SessionStore.count_eq, h.turns]
  rfl

theorem recorded_recordTurn (d : Desk) (now : Nat) (r : Request) (text : String) :
    d.Recorded (d.recordTurn now r text) now r text where
  same := rfl
  sessions := d.sessions.touched_visit now r.user r.room
    (fun session => ((), Named.insert "last_task" (.text r.command.task)
      (Named.insert "last_agent" (.text r.command.agent)
        (SessionStore.countUp "turns" session.context))))
    fun session => turned_insert r.command session.context
  cache := d.cache.keeps_set now (cacheKey r) text

end Desk

namespace Hall

variable {W : Type} {p : Ports W} {s : Settings} {catalog : Catalog} {h : Hall W} {r : Request}

/-! ## The halls that commands lead to -/

/-- The halls that the steps of commands lead to, of any number of commands
under way. In between time may pass, the world may change on its own, and
expired state may be swept. -/
inductive Reachable (p : Ports W) (s : Settings) (catalog : Catalog) : Hall W → Prop
  /-- The desk at the start of the process. -/
  | start (w : W) (now : Nat) : Reachable p s catalog ⟨Desk.ofSettings s catalog, w, now⟩
  /-- A command takes its first step. -/
  | begun {h : Hall W} (r : Request) : Reachable p s catalog h →
      Reachable p s catalog ⟨(Stage.start h.desk h.now r).1, h.world, h.now⟩
  /-- A command takes its step behind an answer. -/
  | resumed {h : Hall W} (r : Request) (stage : Stage) (answer : Answer) :
      Reachable p s catalog h →
      Reachable p s catalog ⟨(stage.resume p h.desk h.world h.now r answer).1,
        (stage.resume p h.desk h.world h.now r answer).2.1, h.now⟩
  /-- A command is dropped. -/
  | dropped {h : Hall W} (stage : Stage) :
      Reachable p s catalog h → Reachable p s catalog (h.drop h.now stage)
  /-- Time passes. -/
  | elapsed {h : Hall W} (w : W) (ms : Nat) :
      Reachable p s catalog h → Reachable p s catalog ⟨h.desk, w, h.now + ms⟩
  /-- Expired state is removed. -/
  | swept {h : Hall W} :
      Reachable p s catalog h → Reachable p s catalog ⟨h.desk.sweep h.now, h.world, h.now⟩

/-- A later instant, at which the world is another one. -/
theorem Reachable.later (hh : Reachable p s catalog h) (w : W) {now : Nat} (hnow : h.now ≤ now) :
    Reachable p s catalog ⟨h.desk, w, now⟩ := by
  obtain ⟨ms, rfl⟩ := Nat.exists_eq_add_of_le hnow
  exact hh.elapsed w ms

/-- **A run stays among them**, whether it is dropped or not. A deadline is
never behind the instant the run has come to. -/
theorem Reachable.runFrom {deadline : Option Nat} (n : Nat) :
    ∀ (h : Hall W) (stage : Stage), Reachable p s catalog h → h.now ≤ deadline.getD h.now →
      Reachable p s catalog (runFrom p deadline r h stage n).1 := by
  induction n with
  | zero => intro h stage hh _; exact hh
  | succ n ih =>
    intro h stage hh hnow
    cases hc : stage.call? h.desk r with
    | none => cases stage <;> simp_all [Hall.runFrom]
    | some call =>
      have hwait := Clock.le_wake h.now (p.serve h.world call).2.1
      rw [runFrom_call_deadline hc]
      simp only
      cases deadline with
      | none =>
        rw [if_neg (by simp [Clock.isPast])]
        exact ih _ _ ((hh.later _ hwait).resumed r stage _) (Nat.le_refl _)
      | some d =>
        split
        · exact (hh.later _ hnow).dropped stage
        · rename_i hpast
          refine ih _ _ ((hh.later _ hwait).resumed r stage _) ?_
          simpa [Clock.isPast] using hpast

/-- A command leads from one reachable hall to another. -/
theorem Reachable.command (hh : Reachable p s catalog h) (r : Request) (timeout : Option Nat) :
    Reachable p s catalog (h.command p r timeout).1 := by
  refine (hh.begun r).runFrom _ _ _ ?_
  cases timeout with
  | none => exact Nat.le_refl _
  | some ms => exact Clock.le_wake h.now ms

/-- **The rules stay**: no step changes the catalog, the memory settings or the
retry policy. -/
theorem Reachable.rules (hh : Reachable p s catalog h) :
    h.desk.catalog = catalog ∧ h.desk.memory = s.memory ∧
      h.desk.retry = RetryPolicy.ofSettings s := by
  induction hh with
  | start w now => exact ⟨rfl, rfl, rfl⟩
  | begun r _ ih =>
    rw [start_eq]
    split <;> try exact ih
    split <;> exact ih
  | resumed r stage answer _ ih =>
    simp only [Stage.resume]
    split <;> try exact ih
    · simp only [Stage.afterLoad]; split <;> exact ih
    · simp only [Stage.afterAttempt]; split <;> exact ih
    · simp only [Stage.afterSave]; split <;> exact ih
    · simp only [Stage.afterSave]; split <;> exact ih
    · simp only [Stage.afterSave]; split <;> exact ih
  | dropped stage _ ih => cases stage <;> exact ih
  | elapsed w ms _ ih => exact ih
  | swept _ ih => exact ih

/-! ## The law -/

/-- The uses of a command that gets to the pipeline, up to its last attempt:
the room key, the records, perhaps a summary, and the attempts. -/
def askingUses (limit : Nat) (r : Request) (summaries : List String) (calls : Nat)
    (agent : AgentSpec) (task : TaskSpec) (context : String) : List PortUse :=
  .lookupKey r.room :: .listRecords r.room limit ::
    (summaries.map .summarize ++
      List.replicate calls (.invoke agent task context r.command.content))

/-- **What a command has done**, by the reply it ended in: the desk it leaves at the
instant of the reply, and its uses of the ports. -/
def Effect (s : Settings) (h : Hall W) (r : Request) (reply : Reply) (desk : Desk) (ended : Nat)
    (uses : List PortUse) : Prop :=
  desk.limiter = (h.desk.limiter.allow h.now r.user).2 ∧
  match reply.source with
  -- nothing but the limiter's count
  | .rateLimited => desk = { h.desk with limiter := desk.limiter } ∧ uses = []
  | .cache => desk = { h.desk with limiter := desk.limiter } ∧ uses = []
  -- at most the room key was asked for
  | .rejected => h.desk.Refused desk h.now r ∧ (uses = [] ∨ uses = [.lookupKey r.room])
  | .failed =>
    (∃ e, reply = (Refusal.registry e).reply ∧ h.desk.Refused desk h.now r ∧
      uses = [.lookupKey r.room]) ∨
    -- every attempt was made, and an error is counted
    (∃ e, reply = (Refusal.pipeline e).reply ∧
      h.desk.Asked desk h.now (Clock.wake h.now 0) r 1 ∧
      ∃ summaries agent task context, summaries.length ≤ 1 ∧
        uses = askingUses s.memory.maxRecords r summaries (max 1 s.retry.maxAttempts)
          agent task context)
  -- the exchange is filed before the turn is recorded
  | .pipeline =>
    (∃ asked : Desk, h.desk.Asked asked h.now (Clock.wake h.now 0) r 0 ∧
      asked.Recorded desk ended r reply.text) ∧
    ∃ summaries calls agent task context key record,
      summaries.length ≤ 1 ∧ 1 ≤ calls ∧ calls ≤ max 1 s.retry.maxAttempts ∧
      ∃ writes ∈ Ports.fileUses r.room record,
        uses = askingUses s.memory.maxRecords r summaries calls agent task context ++
          .encrypt key (Text.Utf8.encode (Memory.exchange r.command.content reply.text)) :: writes

/-- What a command has stored, by the reply it ended in: an answer of the
pipeline puts at most one record behind those of its room. -/
def Stored (r : Request) (reply : Reply) (before after : String → List (List UInt8)) : Prop :=
  match reply.source with
  | .pipeline => ∃ more : List (List UInt8), more.length ≤ 1 ∧ after = shelve before r.room more
  | _ => after = before

/-- A command asks for the key of its room first. -/
theorem uses_of_fetchKey {w : W} {now : Nat} {room : String} {s₁ : Scene (W × List PortUse)}
    {found : Except StorageError (Option RoomKey)}
    (hkey : p.noted.fetchKey room ⟨(w, []), now⟩ = (s₁, found)) :
    s₁.world.2 = [.lookupKey room] := by
  obtain ⟨rfl, -⟩ := Prod.mk.inj hkey
  rfl

/-- **The uses of a command that has asked the pipeline**: the phases add up. -/
theorem uses_of_ask {w : W} {now : Nat} {m : MemorySettings} {retry : RetryPolicy} {key : RoomKey}
    {agent : AgentSpec} {task : TaskSpec} {window : ConversationWindow}
    {found : Except StorageError (Option RoomKey)} {result : Except PipelineError String}
    {s₁ s₂ s₃ : Scene (W × List PortUse)}
    (hkey : p.noted.fetchKey r.room ⟨(w, []), now⟩ = (s₁, found))
    (hwindow : p.noted.fetchWindow m r.room key s₁ = (s₂, window))
    (hask : p.noted.ask retry.delay agent task window.text r.command.content
      (retry.attempts - 1) s₂ = (s₃, result)) :
    ∃ summaries calls, summaries.length ≤ 1 ∧ 1 ≤ calls ∧ calls ≤ retry.attempts ∧
      (∀ e, result = .error e → calls = retry.attempts) ∧
      s₃.world.2 = askingUses m.maxRecords r summaries calls agent task window.text := by
  have hpos := retry.attempts_pos
  obtain ⟨summaries, hlength, hloaded⟩ := Ports.fetchWindow_uses (p := p) m r.room key s₁
  obtain ⟨calls, hone, hle, hall, hasked⟩ := Ports.ask_uses (p := p) retry.delay agent
    task window.text r.command.content (retry.attempts - 1) s₂
  rw [hwindow, uses_of_fetchKey hkey] at hloaded
  rw [hask] at hall hasked
  dsimp only at hloaded hasked
  refine ⟨summaries, calls, hlength, hone, by omega, fun e he => ?_, ?_⟩
  · rw [hall e he]
    omega
  · rw [hasked, hloaded]
    simp only [askingUses, List.cons_append, List.nil_append]

/-- Each course obeys the law. -/
theorem Course.effect {reply : Reply} {out : Hall (W × List PortUse) × Outcome}
    (hmemory : h.desk.memory = s.memory) (hretry : h.desk.retry = RetryPolicy.ofSettings s)
    (hc : Course p.noted h.noting r out) (hr : out.2 = .replied reply) :
    Effect s h r reply out.1.desk out.1.now out.1.world.2 := by
  have hattempts : h.desk.retry.attempts = max 1 s.retry.maxAttempts := by rw [hretry]; rfl
  refine ⟨hc.limiter, ?_⟩
  cases hc with
  | overflow => cases hr
  | limited => cases hr; exact ⟨rfl, rfl⟩
  | cached => cases hr; exact ⟨rfl, rfl⟩
  | unknown _ hmissed hwhy =>
    cases hr
    rcases hwhy with ⟨-, rfl⟩ | ⟨-, -, rfl⟩
    · exact ⟨Desk.refused_checked hmissed, .inl rfl⟩
    · exact ⟨Desk.refused_checked hmissed, .inl rfl⟩
  | registryFailed hin hkey =>
    cases hr
    exact .inl ⟨_, rfl, Desk.refused_checked hin.missed, uses_of_fetchKey hkey⟩
  | unregistered hin hkey =>
    cases hr
    exact ⟨Desk.refused_checked hin.missed, .inr (uses_of_fetchKey hkey)⟩
  | @failed agent task key s₁ s₂ s₃ window e hin hkey hwindow hask =>
    cases hr
    obtain ⟨summaries, calls, hlength, -, -, hall, huses⟩ := uses_of_ask hkey hwindow hask
    have hinstant : Clock.wake h.now 0 = s₁.now := congrArg (fun found => found.1.now) hkey
    refine .inr ⟨e, rfl, ?_, summaries, agent, task, window.text, hlength, ?_⟩
    · rw [hinstant]
      exact Desk.asked_consulted hin.missed s₁.now (s₃.now - s₂.now) true
    · rw [← hattempts, ← hmemory]
      exact hall e rfl ▸ huses
  | @answered agent task key s₁ s₂ s₃ s₄ window text hin hkey hwindow hask hkeep =>
    cases hr
    obtain ⟨summaries, calls, hlength, hone, hle, -, huses⟩ := uses_of_ask hkey hwindow hask
    obtain ⟨record, writes, hwrites, hkept⟩ :=
      Ports.keep_uses (p := p) r.room key (Memory.exchange r.command.content text) s₃
    have hinstant : Clock.wake h.now 0 = s₁.now := congrArg (fun found => found.1.now) hkey
    refine ⟨⟨_, ?_, Desk.recorded_recordTurn _ s₄.now r text⟩, summaries, calls, agent, task,
      window.text, key, record, hlength, hone, hattempts ▸ hle, writes, hwrites, ?_⟩
    · rw [hinstant]
      exact Desk.asked_consulted hin.missed s₁.now (s₃.now - s₂.now) false
    · rw [hkeep, huses] at hkept
      rw [← hmemory]
      exact hkept

/-! ## What is stored -/

/-- Reading leaves the records as they are. -/
theorem records_of_ask {records : W → String → List (List UInt8)} (hp : p.Shelves records)
    {m : MemorySettings} {delay left : Nat} {key : RoomKey} {agent : AgentSpec} {task : TaskSpec}
    {window : ConversationWindow} {input : String}
    {found : Except StorageError (Option RoomKey)} {result : Except PipelineError String}
    {s₀ s₁ s₂ s₃ : Scene W} (hkey : p.fetchKey r.room s₀ = (s₁, found))
    (hwindow : p.fetchWindow m r.room key s₁ = (s₂, window))
    (hask : p.ask delay agent task window.text input left s₂ = (s₃, result)) :
    records s₃.world = records s₀.world := by
  have hread : ∀ w u, u.isWrite = false → records w = records s₀.world →
      records (p.after w u) = records s₀.world := fun w u hu hw => (hp.read w u hu).trans hw
  exact Ports.asked_keeps (I := fun w => records w = records s₀.world) hread hkey hwindow hask rfl

/-- A save leaves at most one record, however many writes it takes. -/
theorem records_of_file {records : W → String → List (List UInt8)} (hp : p.Shelves records)
    (room : String) (record : List UInt8) (s : Scene W) :
    ∃ more : List (List UInt8), more.length ≤ 1 ∧
      records (p.file room record s).world = shelve (records s.world) room more := by
  have once : ∀ w, ∃ more : List (List UInt8), more.length ≤ 1 ∧
      records (p.appendRecord room record w).1 = shelve (records w) room more := by
    intro w
    cases hwrite : (p.appendRecord room record w).2 with
    | ok _ => exact ⟨[record], Nat.le_refl 1, hp.written w room record hwrite⟩
    | error e =>
      exact ⟨[], Nat.zero_le 1, by rw [shelve_nil, hp.unwritten w room record e hwrite]⟩
  simp only [Ports.file, Ports.write]
  cases hwrite : (p.appendRecord room record s.world).2 with
  | ok _ => exact once s.world
  | error e =>
    -- a write that fails stores nothing, nor does the new connection, so the
    -- second write meets the records as they were
    have hfirst := hp.unwritten s.world room record e hwrite
    have hagain := hp.read (p.appendRecord room record s.world).1 .reconnect rfl
    simp only [Ports.after, hfirst] at hagain
    dsimp only
    cases (p.reconnect (p.appendRecord room record s.world).1).2 with
    | error e' => exact ⟨[], Nat.zero_le 1, by rw [shelve_nil]; exact hagain⟩
    | ok _ =>
      rw [← hagain]
      exact once _

/-- Each course stores what its reply says. -/
theorem Course.stored {records : W → String → List (List UInt8)} (hp : p.Shelves records)
    {reply : Reply} {out : Hall W × Outcome} (hc : Course p h r out)
    (hr : out.2 = .replied reply) :
    Stored r reply (records h.world) (records out.1.world) := by
  cases hc with
  | overflow => cases hr
  | limited => cases hr; exact rfl
  | cached => cases hr; exact rfl
  | unknown _ _ hwhy =>
    cases hr
    rcases hwhy with ⟨-, rfl⟩ | ⟨-, -, rfl⟩
    · exact rfl
    · exact rfl
  | registryFailed _ hkey =>
    cases hr
    obtain ⟨rfl, -⟩ := Prod.mk.inj hkey
    exact hp.read h.world (.lookupKey r.room) rfl
  | unregistered _ hkey =>
    cases hr
    obtain ⟨rfl, -⟩ := Prod.mk.inj hkey
    exact hp.read h.world (.lookupKey r.room) rfl
  | failed _ hkey hwindow hask =>
    cases hr
    exact records_of_ask hp hkey hwindow hask
  | @answered agent task key s₁ s₂ s₃ s₄ window text _ hkey hwindow hask hkeep =>
    cases hr
    have hasked := records_of_ask hp hkey hwindow hask
    have hsealed := hp.read s₃.world
      (.encrypt key (Text.Utf8.encode (Memory.exchange r.command.content text))) rfl
    obtain ⟨more, hlength, hmore⟩ := records_of_file hp r.room
      (Saving.recordOf (Memory.exchange r.command.content text) _) ⟨_, s₃.now⟩
    refine ⟨more, hlength, ?_⟩
    rw [← hasked, ← hsealed, ← hkeep]
    exact hmore

/-! ## Every command obeys it -/

/-- **The source of a reply determines what its command has done.** The desk
and the uses of the ports are those of `Effect`, nothing but the uses has
moved the world, and the stored records are those of `Stored`. -/
theorem effect_of_reply {timeout : Option Nat} {reply : Reply} (hh : Reachable p s catalog h)
    (hr : (h.command p r timeout).2 = .replied reply) :
    Effect s h r reply (h.command p r timeout).1.desk (h.command p r timeout).1.now
        (h.usesOf p r timeout) ∧
      (h.command p r timeout).1.world = (h.usesOf p r timeout).foldl p.after h.world ∧
      ∀ records, p.Shelves records →
        Stored r reply (records h.world) (records (h.command p r timeout).1.world) := by
  obtain ⟨-, hmemory, hretry⟩ := hh.rules
  have hnoted := command_noted (p := p) h r timeout
  have hr' : (h.noting.command p.noted r timeout).2 = .replied reply := by
    rw [← hr, ← hnoted]
  have hdesk : (h.noting.command p.noted r timeout).1.desk = (h.command p r timeout).1.desk := by
    rw [← hnoted]
    rfl
  have hnow : (h.noting.command p.noted r timeout).1.now = (h.command p r timeout).1.now := by
    rw [← hnoted]
    rfl
  refine ⟨?_, world_eq_foldl_uses p h r timeout, fun records hp => ?_⟩
  · rw [← hdesk, ← hnow]
    exact (command_course hr').effect hmemory hretry hr'
  · exact (command_course hr).stored hp hr

/-- The first answer of a rehearsed world: one request is counted and timed, the first
turn is in a new session, and the reply is in the cache. -/
theorem effect_of_first_answer :
    let r := Request.poem "lobby" "rain"
    let out := (small .twoRooms).command (Rehearsal.ports false) r none
    out.2 = .replied ⟨"writer: rain", .pipeline⟩ ∧
      out.1.desk.metrics.requests = 1 ∧ out.1.desk.metrics.errors = 0 ∧
      out.1.desk.metrics.times.length = 1 ∧
      (∃ context, out.1.desk.sessions.sessions.get? ("alice", "lobby") = some ⟨0, context, 0⟩ ∧
        Named.find? "turns" context = some (.nat 1) ∧
        Named.find? "last_agent" context = some (.text "writer") ∧
        Named.find? "last_task" context = some (.text "poem")) ∧
      out.1.desk.cache.entries.get? (Desk.cacheKey r) = some ⟨"writer: rain", 0⟩ ∧
      (out.1.world.recordsOf "lobby").length = 1 ∧ out.1.world.recordsOf "attic" = [] := by
  intro r out
  have hreply : out.2 = .replied ⟨"writer: rain", .pipeline⟩ := rfl
  have hended : out.1.now = 0 := rfl
  have hstart : Reachable (Rehearsal.ports false) {} .small (small .twoRooms) := .start _ _
  obtain ⟨⟨-, ⟨asked, hasked, hrecorded⟩, -⟩, -, hstored⟩ := effect_of_reply hstart hreply
  -- the session is opened for the pipeline, and the turn finds it live
  obtain ⟨-, opened, hopened, hlive⟩ := hasked.sessions.fresh nofun
  obtain ⟨-, context, hcontext, hsession⟩ := hrecorded.sessions.kept _ hlive (Nat.zero_le _)
  subst hopened
  obtain ⟨ms, htimes⟩ := hasked.metrics.times
  have hsame := hrecorded.metrics
  have hsize : asked.cache.maxSize ≠ 0 := by
    rw [hasked.cache.maxSize]
    decide
  obtain ⟨more, -, hrecords⟩ := hstored _ (Rehearsal.shelves false)
  refine ⟨hreply, ?_, ?_, ?_, ⟨context, ?_, hcontext.turns, hcontext.agent, hcontext.task⟩, ?_,
    rfl, ?_⟩
  · rw [hsame]
    exact hasked.metrics.requests
  · rw [hsame]
    exact hasked.metrics.errors
  · rw [hsame, htimes]
    rfl
  · exact hsession
  · exact hrecorded.cache.own.trans (if_neg hsize)
  · rw [hrecords]
    rfl

end Hall

end Colloquy
