import Colloquy.Proofs.Dispatch.Duration
/-!
# Two runs whose memories fail differently

Memory is what a command reads and files of a conversation: the records of a
room, their cipher and their summary. `Ports.Parallel` relates two ports that
agree on room keys and on what the pipeline gives, whatever context it sees,
and of whose memories nothing is asked. Played on one clock the two do the
same (`played_alike`): each branch that a failure of memory takes leads back
to the same reply, the same desk and the same calls of the pipeline. The clock
is one when no summary takes time (`sameClock_of_atOnce`).
-/

namespace Colloquy

/-- Whether a use is one of memory. The others are the room keys and the
pipeline. -/
def PortUse.isOfMemory : PortUse → Bool
  | .lookupKey _ => false
  | .invoke _ _ _ _ => false
  | _ => true

/-- What a use asks of the pipeline, but for the context. -/
def PortUse.asked? : PortUse → Option (AgentSpec × TaskSpec × String)
  | .invoke agent task _ input => some (agent, task, input)
  | _ => none

theorem PortUse.asked?_of_isOfMemory {u : PortUse} (hu : u.isOfMemory = true) :
    u.asked? = none := by
  cases u with
  | invoke agent task context input => cases hu
  | lookupKey room => rfl
  | listRecords room limit => rfl
  | appendRecord room record => rfl
  | deleteRecords room => rfl
  | reconnect => rfl
  | encrypt key plaintext => rfl
  | summarize history => rfl

/-- Two ports that differ in their memories alone. Worlds that are the same but
for memory give the same room keys and, in whatever context, the same results
of the pipeline after the same time; a use of memory may end in any way, and
leaves the worlds the same but for memory. -/
structure Ports.Parallel {W W' : Type} (p : Ports W) (p' : Ports W') (same : W → W' → Prop) :
    Prop where
  keyed : ∀ {w w'}, same w w' → ∀ room,
    (p.lookupKey room w).2 = (p'.lookupKey room w').2 ∧
      same (p.lookupKey room w).1 (p'.lookupKey room w').1
  answered : ∀ {w w'}, same w w' → ∀ agent task context context' input,
    (p.invoke agent task context input w).2 = (p'.invoke agent task context' input w').2 ∧
      same (p.invoke agent task context input w).1 (p'.invoke agent task context' input w').1
  left : ∀ {w w'}, same w w' → ∀ u : PortUse, u.isOfMemory = true → same (p.after w u) w'
  right : ∀ {w w'}, same w w' → ∀ u : PortUse, u.isOfMemory = true → same w (p'.after w' u)

namespace Ports

variable {W W' : Type} {p : Ports W} {p' : Ports W'} {same : W → W' → Prop}

/-! ## The phases of one run -/

/-- A load uses memory alone. -/
theorem fetchWindow_memory {I : W → Prop}
    (hI : ∀ w, I w → ∀ u : PortUse, u.isOfMemory = true → I (p.after w u)) (m : MemorySettings)
    (room : String) (key : RoomKey) {s : Scene W} (hs : I s.world) :
    I (p.fetchWindow m room key s).1.world := by
  have hread : I (p.listRecords room m.maxRecords s.world).1 :=
    hI _ hs (.listRecords room m.maxRecords) rfl
  simp only [fetchWindow]
  cases Loading.afterRead m (p.readable key) (p.listRecords room m.maxRecords s.world).2 with
  | reading => exact hread
  | loaded window => exact hread
  | summarizing records skipped => exact hI _ hread (.summarize (Memory.joined records)) rfl

/-- A save keeps what the uses of the memory keep, whichever of its steps fail. -/
theorem keep_memory {I : W → Prop}
    (hI : ∀ w, I w → ∀ u : PortUse, u.isOfMemory = true → I (p.after w u)) (room : String)
    (key : RoomKey) (plaintext : String) {s : Scene W} (hs : I s.world) :
    I (p.keep room key plaintext s).world := by
  have hsealed := hI _ hs (.encrypt key (Text.Utf8.encode plaintext)) rfl
  have hwritten := fun record => hI _ hsealed (.appendRecord room record) rfl
  have hopened := fun record => hI _ (hwritten record) .reconnect rfl
  have hagain := fun record => hI _ (hopened record) (.appendRecord room record) rfl
  simp only [keep, file, write]
  split
  · rename_i hwrite
    obtain ⟨rfl, -⟩ := Prod.mk.inj hwrite
    exact hwritten _
  · rename_i hwrite
    obtain ⟨rfl, -⟩ := Prod.mk.inj hwrite
    split
    · exact hagain _
    · exact hopened _

namespace Parallel

/-! ## The phases of two runs -/

/-- **The attempts end alike**, in whatever contexts, and take the same time. The
induction is on the attempts that are left. -/
theorem ask (hp : p.Parallel p' same) (delay : Nat) (agent : AgentSpec) (task : TaskSpec)
    (context context' input : String) (left : Nat) :
    ∀ (s : Scene W) (s' : Scene W'), same s.world s'.world →
      let asked := p.ask delay agent task context input left s
      let asked' := p'.ask delay agent task context' input left s'
      asked.2 = asked'.2 ∧ same asked.1.world asked'.1.world ∧
        (s.now = s'.now → asked.1.now = asked'.1.now) := by
  have hattempt : ∀ (s : Scene W) (s' : Scene W'), same s.world s'.world →
      let tried := p.attempt agent task context input s
      let tried' := p'.attempt agent task context' input s'
      tried.2 = tried'.2 ∧ same tried.1.world tried'.1.world ∧
        (s.now = s'.now → tried.1.now = tried'.1.now) := by
    intro s s' hs
    obtain ⟨hout, hworld⟩ := hp.answered hs agent task context context' input
    exact ⟨by simp only [attempt, hout], hworld, fun hnow => by simp only [attempt, hout, hnow]⟩
  induction left with
  | zero => exact hattempt
  | succ left ih =>
    intro s s' hs
    obtain ⟨hout, hworld, hnow⟩ := hattempt s s' hs
    simp only [Ports.ask]
    generalize p.attempt agent task context input s = tried at hout hworld hnow ⊢
    generalize p'.attempt agent task context' input s' = tried' at hout hworld hnow ⊢
    obtain ⟨s₁, result⟩ := tried
    obtain ⟨s₁', result'⟩ := tried'
    obtain rfl : result = result' := hout
    cases result with
    | ok text => exact ⟨rfl, hworld, hnow⟩
    | error e =>
      obtain ⟨hrest, hworld', hnow'⟩ := ih ⟨s₁.world, Clock.wake s₁.now delay⟩
        ⟨s₁'.world, Clock.wake s₁'.now delay⟩ hworld
      exact ⟨hrest, hworld', fun hstart => hnow' (congrArg (Clock.wake · delay) (hnow hstart))⟩

/-- Two loads leave the worlds the same but for memory, whatever they read. -/
theorem fetchWindow (hp : p.Parallel p' same) (m : MemorySettings) (room : String)
    (key : RoomKey) {s : Scene W} {s' : Scene W'} (hs : same s.world s'.world) :
    same (p.fetchWindow m room key s).1.world (p'.fetchWindow m room key s').1.world :=
  have hleft := fetchWindow_memory (p := p) (I := fun w => same w s'.world)
    (fun _ hw => hp.left hw) m room key hs
  fetchWindow_memory (p := p') (fun _ hw => hp.right hw) m room key hleft

/-- Two saves leave the worlds the same but for their memories. -/
theorem keep (hp : p.Parallel p' same) (room : String) (key : RoomKey) (plaintext : String)
    {s : Scene W} {s' : Scene W'} (hs : same s.world s'.world) :
    same (p.keep room key plaintext s).world (p'.keep room key plaintext s').world :=
  have hleft := keep_memory (p := p) (I := fun w => same w s'.world)
    (fun _ hw => hp.left hw) room key plaintext hs
  keep_memory (p := p') (fun _ hw => hp.right hw) room key plaintext hleft

/-- Worlds that list their uses and are the same but for memory: the lists ask
the same of the pipeline. -/
def SameCalls (same : W → W' → Prop) (w : W × List PortUse) (w' : W' × List PortUse) : Prop :=
  same w.1 w'.1 ∧ w.2.filterMap PortUse.asked? = w'.2.filterMap PortUse.asked?

/-- Ports that list their uses are as parallel as they were. -/
theorem noted (hp : p.Parallel p' same) : p.noted.Parallel p'.noted (SameCalls same) where
  keyed hw room := by
    obtain ⟨hfound, hworld⟩ := hp.keyed hw.1 room
    refine ⟨hfound, hworld, ?_⟩
    simp only [Ports.noted, note, List.filterMap_append, hw.2]
  answered hw agent task context context' input := by
    obtain ⟨hout, hworld⟩ := hp.answered hw.1 agent task context context' input
    refine ⟨hout, hworld, ?_⟩
    simp only [Ports.noted, note, List.filterMap_append, hw.2]
    rfl
  left hw u hu := by
    rw [after_noted]
    refine ⟨hp.left hw.1 u hu, ?_⟩
    rw [note, List.filterMap_append, List.filterMap_cons_none (PortUse.asked?_of_isOfMemory hu),
      List.filterMap_nil, List.append_nil, hw.2]
  right hw u hu := by
    rw [after_noted]
    refine ⟨hp.right hw.1 u hu, ?_⟩
    rw [note, List.filterMap_append, List.filterMap_cons_none (PortUse.asked?_of_isOfMemory hu),
      List.filterMap_nil, List.append_nil, hw.2]

end Parallel

end Ports

/-! ## Desks but for response times -/

/-- Metrics without the response times: how many requests, errors and times. -/
def Metrics.untimed (m : Metrics) : Metrics := { m with times := m.times.map fun _ => 0 }

/-- A desk without the response times. -/
def Desk.untimed (d : Desk) : Desk := { d with metrics := d.metrics.untimed }

theorem Metrics.untimed_record (m : Metrics) (ms : Float) :
    (m.record ms).untimed = m.untimed.record 0 := by
  simp only [record, untimed, List.length_map]
  split
  · simp only [List.map_append, List.map_drop, List.map_cons, List.map_nil]
  · simp only [List.map_append, List.map_cons, List.map_nil]

/-- A timed operation counts the same however long it took. -/
theorem Metrics.untimed_finish {m m' : Metrics} (hm : m.untimed = m'.untimed) (ms ms' : Nat)
    (failed : Bool) : (m.finish ms failed).untimed = (m'.finish ms' failed).untimed := by
  have hfail : m.fail.untimed = m'.fail.untimed := congrArg Metrics.fail hm
  simp only [finish, untimed_record]
  cases failed with
  | true => exact congrArg (Metrics.record · 0) hfail
  | false => exact congrArg (Metrics.record · 0) hm

/-- The checks at the front leave the metrics alone. -/
theorem Stage.start_untimed (d : Desk) (now : Nat) (r : Request) :
    start d.untimed now r = ((start d now r).1.untimed, (start d now r).2) := by
  have hcatalog : ofCatalog d.untimed = ofCatalog d := rfl
  simp only [Hall.start_eq]
  cases hv : (d.limiter.allow now r.user).1 with
  | overflow => simp only [Desk.untimed, hv]; rfl
  | denied => simp only [Desk.untimed, hv]; rfl
  | allowed =>
    cases hlive : d.cache.live? now (Desk.cacheKey r) with
    | some text => simp only [Desk.untimed, hv, hlive]; rfl
    | none => simp only [Desk.untimed, hv, hlive]; rfl

namespace Hall

variable {W W' : Type} {p : Ports W} {p' : Ports W'} {same : W → W' → Prop}

/-! ## Commands in two runs -/

/-- Two halls that differ in memory and in response times alone. -/
structure Level (same : W → W' → Prop) (h : Hall W) (h' : Hall W') : Prop where
  desk : h.desk.untimed = h'.desk.untimed
  world : same h.world h'.world
  now : h.now = h'.now

/-- The two ends of a command in such halls: the same outcome, and level again
if they come at one instant. So they do before the horizon of the clock, if
summaries take no time. -/
structure EndsAlike (p : Ports W) (p' : Ports W') (same : W → W' → Prop) (out : Hall W × Outcome)
    (out' : Hall W' × Outcome) : Prop where
  outcome : out.2 = out'.2
  level : out.1.now = out'.1.now → Level same out.1 out'.1
  clock : p.SummarizesAtOnce → p'.SummarizesAtOnce → out.1.now < Clock.horizon →
    out.1.now = out'.1.now

variable {d d' : Desk} {r : Request}

/-- Behind the pipeline: the same refusal, or the same text kept. -/
theorem conclude_alike (hp : p.Parallel p' same) (hd : d.untimed = d'.untimed) (key : RoomKey)
    (since since' : Nat) {s : Scene W} {s' : Scene W'} (hs : same s.world s'.world)
    (hnow : p.SummarizesAtOnce → p'.SummarizesAtOnce → s.now < Clock.horizon → s.now = s'.now)
    (result : Except PipelineError String) :
    EndsAlike p p' same (conclude p d r key since (s, result))
      (conclude p' d' r key since' (s', result)) := by
  have hmetrics : d.metrics.untimed = d'.metrics.untimed := congrArg Desk.metrics hd
  have hdesk : ∀ ms ms' failed,
      ({ d with metrics := d.metrics.finish ms failed } : Desk).untimed =
        ({ d' with metrics := d'.metrics.finish ms' failed } : Desk).untimed := by
    intro ms ms' failed
    have hfinish := Metrics.untimed_finish hmetrics ms ms' failed
    exact congrArg₂ (fun (d : Desk) (m : Metrics) => { d with metrics := m }) hd hfinish
  cases result with
  | error e => exact ⟨rfl, fun hend => ⟨hdesk _ _ true, hs, hend⟩, hnow⟩
  | ok text =>
    refine ⟨rfl, fun hend => ⟨?_, hp.keep r.room key _ hs, hend⟩, fun ha ha' hend => ?_⟩
    · -- the turn is recorded at the instant that ends the command
      have hturn := congrArg
        (Desk.recordTurn · (conclude p d r key since (s, .ok text)).1.now r text)
        (hdesk (s.now - since) (s'.now - since') false)
      exact hturn.trans (by rw [hend]; rfl)
    · have hle := p.now_le_keep r.room key (Memory.exchange r.command.content text) s
      have hbefore : s.now < Clock.horizon := Nat.lt_of_le_of_lt hle hend
      have hsame := hnow ha ha' hbefore
      have hleft := p.keep_now hbefore r.room key (Memory.exchange r.command.content text)
      have hright := p'.keep_now (hsame ▸ hbefore) r.room key
        (Memory.exchange r.command.content text)
      exact hleft.trans (hsame.trans hright.symm)

/-- Behind the window: whatever the two windows show, the pipeline is asked the
same and gives the same. -/
theorem consult_alike (hp : p.Parallel p' same) (hd : d.untimed = d'.untimed) (agent : AgentSpec)
    (task : TaskSpec) (key : RoomKey) {s : Scene W} {s' : Scene W'} (hs : same s.world s'.world)
    (hnow : p.SummarizesAtOnce → p'.SummarizesAtOnce → s.now < Clock.horizon → s.now = s'.now)
    (window window' : ConversationWindow) :
    EndsAlike p p' same (consult p d r agent task key (s, window))
      (consult p' d' r agent task key (s', window')) := by
  have hretry : d.retry = d'.retry := show d.untimed.retry = d'.untimed.retry by rw [hd]
  have hstarted : ({ d with metrics := d.metrics.start } : Desk).untimed =
      ({ d' with metrics := d'.metrics.start } : Desk).untimed :=
    show ({ d.untimed with metrics := d.untimed.metrics.start } : Desk) =
      { d'.untimed with metrics := d'.untimed.metrics.start } by rw [hd]
  obtain ⟨hresult, hasked, hclock⟩ := hp.ask d.retry.delay agent task window.text window'.text
    r.command.content (d.retry.attempts - 1) s s' hs
  have hle := p.now_le_ask d.retry.delay agent task window.text r.command.content
    (d.retry.attempts - 1) s
  simp only [consult, ← hretry]
  generalize p.ask _ agent task window.text r.command.content _ s = asked
    at hresult hasked hclock hle ⊢
  generalize p'.ask _ agent task window'.text r.command.content _ s' = asked'
    at hresult hasked hclock ⊢
  obtain ⟨s₁, result⟩ := asked
  obtain ⟨s₁', result'⟩ := asked'
  obtain rfl : result = result' := hresult
  exact conclude_alike hp (by simpa only [hretry] using hstarted) key _ _ hasked
    (fun ha ha' hend => hclock (hnow ha ha' (Nat.lt_of_le_of_lt hle hend))) result

/-- Behind the room key: whatever the two loads give. -/
theorem enter_alike (hp : p.Parallel p' same) (hd : d.untimed = d'.untimed) (agent : AgentSpec)
    (task : TaskSpec) {s : Scene W} {s' : Scene W'} (hs : same s.world s'.world)
    (hnow : s.now = s'.now) (found : Except StorageError (Option RoomKey)) :
    EndsAlike p p' same (enter p d r agent task (s, found))
      (enter p' d' r agent task (s', found)) := by
  have hmemory : d.memory = d'.memory :=
    show d.untimed.memory = d'.untimed.memory by rw [hd]
  have hopened : (opened d s.now r).untimed = (opened d' s'.now r).untimed :=
    show opened d.untimed s.now r = opened d'.untimed s'.now r by rw [hd, hnow]
  rcases found with e | _ | key
  · exact ⟨rfl, fun hend => ⟨hd, hs, hend⟩, fun _ _ _ => hnow⟩
  · exact ⟨rfl, fun hend => ⟨hd, hs, hend⟩, fun _ _ _ => hnow⟩
  · simp only [enter, ← hmemory]
    refine consult_alike hp hopened agent task key (hp.fetchWindow d.memory r.room key hs) ?_ _ _
    intro ha ha' hend
    have hle := p.now_le_fetchWindow d.memory r.room key s
    have hbefore : s.now < Clock.horizon := Nat.lt_of_le_of_lt hle hend
    rw [p.fetchWindow_now ha hbefore, p'.fetchWindow_now ha' (hnow ▸ hbefore), hnow]

/-- **A command ends alike** whatever fails in the two memories. -/
theorem command_alike (hp : p.Parallel p' same) {h : Hall W} {h' : Hall W'}
    (hh : Level same h h') (r : Request) :
    EndsAlike p p' same (h.command p r none) (h'.command p' r none) := by
  obtain ⟨hd, hw, hnow⟩ := hh
  have hstart := Stage.start_untimed h.desk h.now r
  have hstart' := Stage.start_untimed h'.desk h'.now r
  rw [hd, hnow, hstart'] at hstart
  obtain ⟨hdesk, hstage⟩ := Prod.mk.inj hstart
  rw [command_eq_serve, command_eq_serve]
  simp only [serve, ← hnow] at hdesk hstage ⊢
  generalize Stage.start h.desk h.now r = front at hdesk hstage ⊢
  generalize Stage.start h'.desk h.now r = front' at hdesk hstage ⊢
  obtain ⟨d, stage⟩ := front
  obtain ⟨d', stage'⟩ := front'
  obtain rfl : stage' = stage := hstage
  have hquiet : ∀ outcome, EndsAlike p p' same (⟨d, h.world, h.now⟩, outcome)
      (⟨d', h'.world, h.now⟩, outcome) :=
    fun outcome => ⟨rfl, fun _ => ⟨hdesk.symm, hw, rfl⟩, fun _ _ _ => rfl⟩
  cases stage' with
  | lookup agent task =>
    obtain ⟨hfound, hworld⟩ := hp.keyed hw r.room
    simp only [Ports.fetchKey, ← hfound]
    exact enter_alike hp hdesk.symm agent task hworld rfl _
  | finished reply => exact hquiet (.replied reply)
  | broken => exact hquiet .broken
  | loading agent task key load => exact hquiet .broken
  | asking agent task key context since run => exact hquiet .broken
  | saving text save => exact hquiet .broken

/-! ## Two runs -/

/-- The commands of a log, with their instants and how they ended. -/
def commandsOf (log : List Entry) : List Entry :=
  log.filter fun
    | .command _ _ _ _ => true
    | _ => false

/-- Two runs whose clocks agree behind every act. -/
def SameClock (p : Ports W) (p' : Ports W') (h : Hall W) (h' : Hall W') (acts : List Act) : Prop :=
  ∀ before, before <+: acts → (play p h before).1.now = (play p' h' before).1.now

/-- **An act keeps two runs level**, if it ends at one instant in both. -/
theorem perform_alike (hp : p.Parallel p' same) {h : Hall W} {h' : Hall W'}
    (hh : Level same h h') (a : Act)
    (hend : (h.perform p a).1.now = (h'.perform p' a).1.now) :
    Level same (h.perform p a).1 (h'.perform p' a).1 ∧
      commandsOf [(h.perform p a).2] = commandsOf [(h'.perform p' a).2] := by
  cases a with
  | command r =>
    obtain ⟨houtcome, hlevel, -⟩ := command_alike hp hh r
    refine ⟨hlevel hend, ?_⟩
    simp only [perform] at hend ⊢
    rw [hend, hh.now, houtcome]
  | forget room =>
    have hleft := hp.left hh.world (.deleteRecords room) rfl
    exact ⟨⟨hh.desk, hp.right hleft (.deleteRecords room) rfl, hh.now⟩, rfl⟩
  | wait ms => exact ⟨⟨hh.desk, hh.world, hend⟩, rfl⟩

/-- Two runs on one clock stay level. -/
theorem play_alike (hp : p.Parallel p' same) {h : Hall W} {h' : Hall W'} (hh : Level same h h')
    (acts : List Act) (hclock : SameClock p p' h h' acts) :
    Level same (play p h acts).1 (play p' h' acts).1 ∧
      commandsOf (play p h acts).2 = commandsOf (play p' h' acts).2 := by
  induction acts using List.reverseRecOn with
  | nil => exact ⟨hh, rfl⟩
  | append_singleton acts a ih =>
    have hbefore : SameClock p p' h h' acts := fun before hb =>
      hclock before (hb.trans (List.prefix_append acts [a]))
    have hend := hclock (acts ++ [a]) (List.prefix_refl _)
    obtain ⟨hlevel, hcommands⟩ := ih hbefore
    rw [play_concat, play_concat] at hend ⊢
    obtain ⟨hlevel', hentry⟩ := perform_alike hp hlevel a hend
    refine ⟨hlevel', ?_⟩
    simp only [logged, commandsOf, List.filter_append] at hcommands hentry ⊢
    rw [hcommands, hentry]

/-- **What is on one clock**: two runs that end before the horizon, over
memories that take no time. -/
theorem sameClock_of_atOnce (hp : p.Parallel p' same) (ha : p.SummarizesAtOnce)
    (ha' : p'.SummarizesAtOnce) {h : Hall W} {h' : Hall W'} (hh : Level same h h')
    (acts : List Act) (hend : (play p h acts).1.now < Clock.horizon) :
    SameClock p p' h h' acts := by
  induction acts using List.reverseRecOn with
  | nil =>
    intro before hb
    rw [List.prefix_nil.1 hb]
    exact hh.now
  | append_singleton acts a ih =>
    have hbefore := now_le_play (p := p) (h := h) (List.prefix_append acts [a])
    have hclock := ih (Nat.lt_of_le_of_lt hbefore hend)
    have hlevel := (play_alike hp hh acts hclock).1
    intro before hb
    rcases List.prefix_concat_iff.1 hb with rfl | hb
    · rw [play_concat, play_concat] at *
      cases a with
      | command r => exact (command_alike hp hlevel r).clock ha ha' hend
      | forget room => exact hlevel.now
      | wait ms => exact congrArg (· + ms) hlevel.now
    · exact hclock before hb

/-! ## What two runs ask of the pipeline -/

/-- A run over a world that lists its uses is the run. -/
theorem play_noted (p : Ports W) (h : Hall (W × List PortUse)) (acts : List Act) :
    ((play p.noted h acts).1.plain, (play p.noted h acts).2) = play p h.plain acts := by
  have hact : ∀ (h : Hall (W × List PortUse)) (a : Act),
      ((perform p.noted h a).1.plain, (perform p.noted h a).2) = perform p h.plain a := by
    intro h a
    cases a with
    | command r =>
      have hcommand : ((h.command p.noted r none).1.plain, (h.command p.noted r none).2) =
          h.plain.command p r none := runFrom_noted _ _ _ _ _
      simp only [perform, ← hcommand]
      rfl
    | forget room => rfl
    | wait ms => rfl
  induction acts using List.reverseRecOn with
  | nil => rfl
  | append_singleton acts a ih =>
    rw [play_concat, play_concat, ← ih]
    simp only [logged, ← hact]

/-- What a run uses of its ports, in order. -/
def usesIn (p : Ports W) (h : Hall W) (acts : List Act) : List PortUse :=
  (play p.noted h.noting acts).1.world.2

/-- **Failures of memory do not reach the chat.** Take two halls that differ in
memory alone, over ports that do, and play the same acts in both on one clock.
Every command has the same reply, the desks end the same but for response
times, and the pipeline is asked the same but for contexts. -/
theorem played_alike (hp : p.Parallel p' same) {h : Hall W} {h' : Hall W'}
    (hh : Level same h h') {acts : List Act} (hclock : SameClock p p' h h' acts) :
    commandsOf (play p h acts).2 = commandsOf (play p' h' acts).2 ∧
      (play p h acts).1.desk.untimed = (play p' h' acts).1.desk.untimed ∧
      (usesIn p h acts).filterMap PortUse.asked? =
        (usesIn p' h' acts).filterMap PortUse.asked? := by
  -- runs that list their uses stand on the same clock
  have hclock' : SameClock p.noted p'.noted h.noting h'.noting acts := by
    intro before hb
    have hleft := congrArg (fun run => run.1.now) (play_noted p h.noting before)
    have hright := congrArg (fun run => run.1.now) (play_noted p' h'.noting before)
    exact hleft.trans ((hclock before hb).trans hright.symm)
  have hstart : Level (Ports.Parallel.SameCalls same) h.noting h'.noting :=
    ⟨hh.desk, ⟨hh.world, rfl⟩, hh.now⟩
  obtain ⟨hlevel, hcommands⟩ := play_alike hp.noted hstart acts hclock'
  have hleft : _ = play p h acts := play_noted p h.noting acts
  have hright : _ = play p' h' acts := play_noted p' h'.noting acts
  rw [← hleft, ← hright]
  exact ⟨hcommands, hlevel.desk, hlevel.world.2⟩

end Hall

/-! ## A memory in which everything fails -/

namespace Rehearsal

/-- Rehearsed ports whose summaries take no time. -/
def atOnce : Ports Rehearsal :=
  { ports false with summarize := fun history w => ((summarize history w).1, 0, w.summary) }

/-- Rehearsed worlds with the same keys, the same registry and the same script
to come. -/
def SameScript (w w' : Rehearsal) : Prop :=
  w.keys = w'.keys ∧ w.failures.registry = w'.failures.registry ∧ w.script = w'.script

/-- A use of memory leaves keys, registry and script alone. -/
theorem sameScript_after (w : Rehearsal) {u : PortUse} (hu : u.isOfMemory = true) :
    SameScript (atOnce.after w u) w := by
  cases u with
  | lookupKey room => cases hu
  | invoke agent task context input => cases hu
  | listRecords room limit => exact ⟨rfl, rfl, rfl⟩
  | reconnect => exact ⟨rfl, rfl, rfl⟩
  | summarize history => exact ⟨rfl, rfl, rfl⟩
  | appendRecord room record =>
    simp only [Ports.after, atOnce, ports, appendRecord]
    split <;> exact ⟨rfl, rfl, rfl⟩
  | deleteRecords room =>
    simp only [Ports.after, atOnce, ports, deleteRecords]
    split <;> exact ⟨rfl, rfl, rfl⟩
  | encrypt key plaintext =>
    simp only [Ports.after, atOnce, ports, encrypt]
    split <;> exact ⟨rfl, rfl, rfl⟩

/-- The rehearsed pipeline does not look at its context. -/
theorem atOnce_parallel : atOnce.Parallel atOnce SameScript where
  keyed := by
    rintro w w' ⟨hkeys, hregistry, hscript⟩ room
    refine ⟨?_, hkeys, hregistry, hscript⟩
    simp only [atOnce, ports, lookupKey, hkeys, hregistry]
  answered := by
    rintro w w' ⟨hkeys, hregistry, hscript⟩ agent task context context' input
    simp only [atOnce, ports, invoke, hscript]
    cases w'.script with
    | nil => exact ⟨rfl, hkeys, hregistry, rfl⟩
    | cons out rest => exact ⟨rfl, hkeys, hregistry, rfl⟩
  left := by
    rintro w w' ⟨hkeys, hregistry, hscript⟩ u hu
    obtain ⟨hkeys', hregistry', hscript'⟩ := sameScript_after w hu
    exact ⟨hkeys'.trans hkeys, hregistry'.trans hregistry, hscript'.trans hscript⟩
  right := by
    rintro w w' ⟨hkeys, hregistry, hscript⟩ u hu
    obtain ⟨hkeys', hregistry', hscript'⟩ := sameScript_after w' hu
    exact ⟨hkeys.trans hkeys'.symm, hregistry.trans hregistry'.symm, hscript.trans hscript'.symm⟩

/-- Two rooms and a memory that works, over a pipeline that is busy at first. -/
def sound : Rehearsal := { twoRooms with script := [⟨.error (.request "busy"), 5⟩] }

/-- The rooms and the pipeline of `sound`, with a memory that does not work. -/
def failing : Rehearsal where
  keys := sound.keys
  script := sound.script
  summary := .error (.request "silent")
  failures := {
    appends := [some .connection, some .connection]
    reads := some .connection
    encrypt := true }

end Rehearsal

namespace Hall

/-- Three commands, of which the last repeats the first in the other room. -/
def threeCommands : List Act :=
  [.command (.poem "lobby" "rain"), .wait 1000, .command (.poem "lobby" "snow"),
    .command (.poem "attic" "rain")]

/-- A memory that works and one that does not, by the law. -/
theorem played_alike_failing :
    let sound := play Rehearsal.atOnce (small .sound) threeCommands
    let failing := play Rehearsal.atOnce (small .failing) threeCommands
    sound.1.world.recordsOf "lobby" ≠ failing.1.world.recordsOf "lobby" ∧
      commandsOf sound.2 = commandsOf failing.2 ∧
      sound.1.desk.untimed = failing.1.desk.untimed ∧
      (usesIn Rehearsal.atOnce (small .sound) threeCommands).filterMap PortUse.asked? =
        (usesIn Rehearsal.atOnce (small .failing) threeCommands).filterMap PortUse.asked? := by
  have hlevel : Level Rehearsal.SameScript (small .sound) (small .failing) :=
    ⟨rfl, ⟨rfl, rfl, rfl⟩, rfl⟩
  have hend : (play Rehearsal.atOnce (small .sound) threeCommands).1.now < Clock.horizon := by
    decide +kernel
  have hclock := sameClock_of_atOnce Rehearsal.atOnce_parallel (fun _ _ => rfl) (fun _ _ => rfl)
    hlevel threeCommands hend
  have hrecords : (play Rehearsal.atOnce (small .sound) threeCommands).1.world.recordsOf "lobby" ≠
      (play Rehearsal.atOnce (small .failing) threeCommands).1.world.recordsOf "lobby" := by
    decide +kernel
  exact ⟨hrecords, played_alike Rehearsal.atOnce_parallel hlevel hclock⟩

end Hall

end Colloquy
