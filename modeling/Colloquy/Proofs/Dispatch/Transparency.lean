import Colloquy.Proofs.Dispatch.Lockstep
import Colloquy.Proofs.Dispatch.Provenance
import Colloquy.Proofs.RateLimiter
/-!
# The cache is not heard

Take a pipeline whose result is a function of agent, task and input
(`Ports.Settled`). A run with a cache and the same run without one drift apart
in their sessions, metrics and records, but they are asked at the same
instants and count the same requests, and whatever the cache repeats the
pipeline would say again. So their replies have the same texts
(`texts_of_uncached`). What makes a hit right is that key texts tell commands
apart, which they do when no agent or task has a colon in its name
(`keyText_injective`).
-/

namespace Colloquy

/-- Ports whose answers are settled by agent, task and input. In good worlds,
which every use keeps, some rooms have their keys and the pipeline gives the
same result to the same agent, task and input at once; summaries take no time
either. -/
structure Ports.Settled {W : Type} (p : Ports W) (good : W → Prop) (rooms : String → Prop)
    (answer : AgentSpec → TaskSpec → String → Except PipelineError PipelineOutput) : Prop where
  stays : ∀ w u, good w → good (p.after w u)
  keyed : ∀ w room, good w → rooms room → ∃ key, (p.lookupKey room w).2 = .ok (some key)
  summarized : p.SummarizesAtOnce
  answered : ∀ w agent task context input, good w →
    (p.invoke agent task context input w).2 = (0, answer agent task input)

/-- The instant at which attempts end that all fail at once, with a pause
before each of those that are left. -/
def Clock.lastFailure (delay : Nat) : Nat → Nat → Nat
  | 0, now => wake now 0
  | left + 1, now => lastFailure delay left (wake (wake now 0) delay)

namespace Ports.Settled

variable {W : Type} {p : Ports W} {good : W → Prop} {rooms : String → Prop}
  {answer : AgentSpec → TaskSpec → String → Except PipelineError PipelineOutput}

/-- A load leaves the world good, as every use does. -/
theorem good_fetchWindow (hp : p.Settled good rooms answer) (m : MemorySettings) (room : String)
    (key : RoomKey) {s : Scene W} (hs : good s.world) :
    good (p.fetchWindow m room key s).1.world :=
  fetchWindow_keeps (fun w u _ => hp.stays w u) m room key hs

/-- One attempt gives the answer at once. -/
theorem attempt (hp : p.Settled good rooms answer) (agent : AgentSpec) (task : TaskSpec)
    (context input : String) {s : Scene W} (hs : good s.world) :
    p.attempt agent task context input s =
      (⟨(p.invoke agent task context input s.world).1, Clock.wake s.now 0⟩,
        (answer agent task input).bind PipelineOutput.result) := by
  simp only [Ports.attempt, hp.answered s.world agent task context input hs]

/-- **An answer that is a text is given at once.** -/
theorem ask_ok (hp : p.Settled good rooms answer) (delay : Nat) {agent : AgentSpec}
    {task : TaskSpec} (context : String) {input text : String}
    (htext : (answer agent task input).bind PipelineOutput.result = .ok text) (left : Nat)
    {s : Scene W} (hs : good s.world) :
    p.ask delay agent task context input left s =
      (⟨(p.invoke agent task context input s.world).1, Clock.wake s.now 0⟩, .ok text) := by
  have hfirst := hp.attempt agent task context input hs
  rw [htext] at hfirst
  cases left with
  | zero => exact hfirst
  | succ left => simp only [ask, hfirst]

/-- **An answer that is an error is given in the end**, when every attempt has
had it. -/
theorem ask_error (hp : p.Settled good rooms answer) (delay : Nat) {agent : AgentSpec}
    {task : TaskSpec} (context : String) {input : String} {e : PipelineError}
    (herror : (answer agent task input).bind PipelineOutput.result = .error e) (left : Nat) :
    ∀ {s : Scene W}, good s.world →
      (p.ask delay agent task context input left s).2 = .error e ∧
        (p.ask delay agent task context input left s).1.now =
          Clock.lastFailure delay left s.now := by
  induction left with
  | zero =>
    intro s hs
    have hfirst := hp.attempt agent task context input hs
    rw [herror] at hfirst
    rw [ask, hfirst]
    exact ⟨rfl, rfl⟩
  | succ left ih =>
    intro s hs
    have hfirst := hp.attempt agent task context input hs
    rw [herror] at hfirst
    simp only [ask, hfirst]
    exact ih (hp.stays _ (.invoke agent task context input) hs)

end Ports.Settled

namespace Hall

variable {W : Type} {p : Ports W} {good : W → Prop} {rooms : String → Prop}
  {answer : AgentSpec → TaskSpec → String → Except PipelineError PipelineOutput}

/-! ## A command that gets to the pipeline -/

/-- The instant at which a command ends that gets to the pipeline, and what it
ends in. -/
def verdictOf (retry : RetryPolicy) (now : Nat) : Except PipelineError String → Nat × Outcome
  | .ok text => (now, .replied ⟨text, .pipeline⟩)
  | .error e =>
    (Clock.lastFailure retry.delay (retry.attempts - 1) now, .replied (Refusal.pipeline e).reply)

/-- **A command that is let in ends as its answer says**, whatever the worlds
hold and the desk has seen. -/
theorem command_settled (hp : p.Settled good rooms answer) {h : Hall W} {r : Request}
    {agent : AgentSpec} {task : TaskSpec} (hin : LetIn h r agent task) (hw : good h.world)
    (hroom : rooms r.room) (hnow : h.now < Clock.horizon) :
    ((h.command p r none).1.now, (h.command p r none).2) =
      verdictOf h.desk.retry h.now
        ((answer agent task r.command.content).bind PipelineOutput.result) := by
  obtain ⟨key, hkey⟩ := hp.keyed h.world r.room hw hroom
  have hwake := Clock.wake_zero hnow
  have hfetch : p.fetchKey r.room ⟨h.world, h.now⟩ =
      (⟨(p.lookupKey r.room h.world).1, h.now⟩, .ok (some key)) := by
    simp only [Ports.fetchKey, hkey, hwake]
  rw [command_eq_serve, serve_of_letIn hin, hfetch]
  simp only [enter]
  have hgood := hp.good_fetchWindow h.desk.memory r.room key
    (s := ⟨(p.lookupKey r.room h.world).1, h.now⟩) (hp.stays _ (.lookupKey r.room) hw)
  have hloaded := p.fetchWindow_now hp.summarized
    (s := ⟨(p.lookupKey r.room h.world).1, h.now⟩) hnow h.desk.memory r.room key
  simp only [Desk.checked, Desk.counted] at *
  generalize p.fetchWindow h.desk.memory r.room key _ = loaded at hgood hloaded ⊢
  obtain ⟨⟨w, now⟩, window⟩ := loaded
  obtain rfl : now = h.now := hloaded
  simp only [consult, opened]
  cases hanswer : (answer agent task r.command.content).bind PipelineOutput.result with
  | ok text =>
    have hask := hp.ask_ok h.desk.retry.delay window.text hanswer (h.desk.retry.attempts - 1)
      (s := ⟨w, h.now⟩) hgood
    simp only [hask, hwake, conclude, verdictOf]
    rw [p.keep_now (s := ⟨_, h.now⟩) hnow]
  | error e =>
    obtain ⟨hresult, hend⟩ := hp.ask_error h.desk.retry.delay window.text hanswer
      (h.desk.retry.attempts - 1) (s := ⟨w, h.now⟩) hgood
    generalize p.ask _ agent task window.text r.command.content _ _ = asked at hresult hend ⊢
    obtain ⟨s, result⟩ := asked
    obtain rfl : result = _ := hresult
    simp only [conclude, verdictOf]
    rw [hend]

/-! ## Names without colons -/

/-- A text up to its first colon is told from what follows. -/
theorem append_colon_inj {a a' rest rest' : List Char} (ha : ':' ∉ a) (ha' : ':' ∉ a')
    (h : a ++ ':' :: rest = a' ++ ':' :: rest') : a = a' ∧ rest = rest' := by
  induction a generalizing a' with
  | nil =>
    cases a' with
    | nil => exact ⟨rfl, (List.cons.inj h).2⟩
    | cons y a' =>
      obtain ⟨rfl, -⟩ := List.cons.inj h
      exact absurd List.mem_cons_self ha'
  | cons x a ih =>
    cases a' with
    | nil =>
      obtain ⟨rfl, -⟩ := List.cons.inj h
      exact absurd List.mem_cons_self ha
    | cons y a' =>
      obtain ⟨rfl, hrest⟩ := List.cons.inj h
      obtain ⟨rfl, hsame⟩ := ih (fun hx => ha (.tail _ hx)) (fun hx => ha' (.tail _ hx)) hrest
      exact ⟨rfl, hsame⟩

/-- A command with no colon in the names of its agent and its task. -/
def Plain (c : ChatCommand) : Prop := ':' ∉ c.agent.toList ∧ ':' ∉ c.task.toList

/-- **Key texts tell such commands apart**: agent and task end at the first two
colons. -/
theorem keyText_injective {c c' : ChatCommand} (hc : Plain c) (hc' : Plain c')
    (h : keyText c = keyText c') : c = c' := by
  have hchars : ∀ c : ChatCommand, (keyText c).toList =
      c.agent.toList ++ ':' :: (c.task.toList ++ ':' :: c.content.toList) := fun c => by
    have hcolon : (":" : String).toList = [':'] := by decide
    simp only [keyText, ResponseCache.keyText, String.toList_append, hcolon, List.append_assoc,
      List.cons_append, List.nil_append]
  have hlists := congrArg String.toList h
  rw [hchars, hchars] at hlists
  obtain ⟨hagent, hrest⟩ := append_colon_inj hc.1 hc'.1 hlists
  obtain ⟨htask, hcontent⟩ := append_colon_inj hc.2 hc'.2 hrest
  obtain ⟨agent, task, content⟩ := c
  obtain ⟨agent', task', content'⟩ := c'
  simp only [ChatCommand.mk.injEq]
  exact ⟨String.toList_inj.1 hagent, String.toList_inj.1 htask, String.toList_inj.1 hcontent⟩

/-! ## A run with a cache beside one without -/

/-- The text of the reply that a command ends in, if it ends in one. -/
def textOf : Outcome → Option String
  | .replied reply => some reply.text
  | _ => none

/-- The texts that the commands of a log were answered with, in order. -/
def textsOf (log : List Entry) : List (Option String) :=
  log.filterMap fun
    | .command _ _ _ outcome => some (textOf outcome)
    | _ => none

theorem textsOf_append (log log' : List Entry) :
    textsOf (log ++ log') = textsOf log ++ textsOf log' :=
  List.filterMap_append

/-- Whether a text is the answer to a request, by a catalog. -/
def Answers (catalog : Catalog)
    (answer : AgentSpec → TaskSpec → String → Except PipelineError PipelineOutput) (r : Request)
    (text : String) : Prop :=
  ∃ agent task, catalog.agent? r.command.agent = some agent ∧
    catalog.task? r.command.task = some task ∧
    (answer agent task r.command.content).bind PipelineOutput.result = .ok text

end Hall

/-- Settings under which the cache keeps nothing. -/
def Settings.uncached (s : Settings) : Settings := { s with cache := { s.cache with maxSize := 0 } }

namespace Hall

variable {W : Type} {p : Ports W} {good : W → Prop} {rooms : String → Prop}
  {answer : AgentSpec → TaskSpec → String → Except PipelineError PipelineOutput}
  {s : Settings} {catalog : Catalog} {h h' : Hall W} {log log' : List Entry} {r : Request}

/-- A run so far, and beside it the same run over a cache that keeps nothing:
asked at the same instants, with the same count of requests, and with the same
texts. -/
structure Matched (p : Ports W) (good : W → Prop) (s : Settings) (catalog : Catalog)
    (answer : AgentSpec → TaskSpec → String → Except PipelineError PipelineOutput)
    (h h' : Hall W) (log log' : List Entry) : Prop where
  left : Reachable p s catalog h ∧ Sourced s catalog h log ∧ good h.world
  right : Reachable p s.uncached catalog h' ∧ Sourced s.uncached catalog h' log' ∧ good h'.world
  now : h.now = h'.now
  limiter : h.desk.limiter = h'.desk.limiter
  bounded : h.desk.limiter.Bounded
  uncached : h'.desk.cache.maxSize = 0
  answers : ∀ r asked ended text,
    .command r asked ended (.replied ⟨text, .pipeline⟩) ∈ log → Answers catalog answer r text
  texts : textsOf log = textsOf log'

/-- A command does not change how much the cache may hold. -/
theorem Course.maxSize {out : Hall W × Outcome} (hc : Course p h r out) :
    out.1.desk.cache.maxSize = h.desk.cache.maxSize := by
  have hdrop := (h.desk.cache.dropExpired_within h.now (Desk.cacheKey r)).maxSize
  cases hc with
  | overflow => rfl
  | limited => rfl
  | cached => rfl
  | unknown => exact hdrop
  | registryFailed => exact hdrop
  | unregistered => exact hdrop
  | failed => exact hdrop
  | answered => exact (ResponseCache.set_maxSize _ _ _ _).trans hdrop

/-- A cache that keeps nothing has no live text. -/
theorem live?_of_zero {c : ResponseCache} (hc : c.EmptyAtZero) (hzero : c.maxSize = 0) (now : Nat)
    (key : String) : c.live? now key = none := by
  simp only [ResponseCache.live?, hc hzero key, Option.filter_none, Option.map_none]

/-- A text that the pipeline gives to a command is the answer to it. -/
theorem answers_of_pipeline (hp : p.Settled good rooms answer) (hw : good h.world)
    (hbounded : h.desk.limiter.Bounded) (hcatalog : h.desk.catalog = catalog)
    (hroom : rooms r.room) {text : String}
    (hr : (h.command p r none).2 = .replied ⟨text, .pipeline⟩) :
    Answers catalog answer r text := by
  obtain ⟨agent, task, key, s₁, s₂, s₃, s₄, window, hin, -⟩ :=
    (command_course_none p h r).of_pipeline hr
  have hverdict := congrArg Prod.snd
    (command_settled hp hin hw hroom (hbounded.now_lt hin.allowed))
  rw [hr] at hverdict
  refine ⟨agent, task, hcatalog ▸ hin.knownAgent, hcatalog ▸ hin.knownTask, ?_⟩
  cases hanswer : (answer agent task r.command.content).bind PipelineOutput.result with
  | ok text' =>
    rw [hanswer] at hverdict
    cases hverdict
    rfl
  | error e =>
    rw [hanswer] at hverdict
    cases hverdict

/-- Two commands end at the same instant with the same text. -/
def SameEnd (out out' : Hall W × Outcome) : Prop :=
  out.1.now = out'.1.now ∧ textOf out.2 = textOf out'.2

/-- **What the cache gives to a command is what the pipeline gives to it** in the
other run: the cached text was the answer to this very command. -/
theorem Matched.command_cached (hp : p.Settled good rooms answer)
    (hm : Matched p good s catalog answer h h' log log') (hroom : rooms r.room)
    (hsame : ∀ q asked ended outcome, .command q asked ended outcome ∈ log →
      Desk.cacheKey q = Desk.cacheKey r → q.command = r.command)
    (hv : (h.desk.limiter.allow h.now r.user).1 = .allowed) {text : String}
    (hlive : h.desk.cache.live? h.now (Desk.cacheKey r) = some text) :
    SameEnd (h.command p r none) (h'.command p r none) := by
  obtain ⟨-, hsourced, -⟩ := hm.left
  obtain ⟨hreached', hsourced', hw'⟩ := hm.right
  obtain ⟨given, hgiven, rfl, -⟩ := hsourced.of_live hlive
  obtain ⟨asked, hmem⟩ := mem_of_latest? log hgiven
  have hcommand := hsame _ _ _ _ hmem (of_decide_eq_true (same_of_latest? log hgiven))
  obtain ⟨agent, task, hagent, htask, hanswer⟩ := hm.answers _ _ _ _ hmem
  rw [hcommand] at hagent htask hanswer
  have hcatalog' := hreached'.rules.1
  have hin : LetIn h' r agent task :=
    ⟨by rw [← hm.now, ← hm.limiter, hv],
      live?_of_zero hsourced'.emptyAtZero hm.uncached h'.now (Desk.cacheKey r),
      hcatalog' ▸ hagent, hcatalog' ▸ htask⟩
  have hsettled := command_settled hp hin hw' hroom (hm.now ▸ hm.bounded.now_lt hv)
  rw [hanswer] at hsettled
  obtain ⟨hend, hreply⟩ := Prod.mk.inj hsettled
  rw [SameEnd, command_eq_serve p h, serve_of_live hv hlive, hend, hreply]
  exact ⟨hm.now, rfl⟩

/-- Where the cache has nothing, both runs do the same. -/
theorem Matched.command_missed (hp : p.Settled good rooms answer)
    (hm : Matched p good s catalog answer h h' log log') (hroom : rooms r.room)
    (hv : (h.desk.limiter.allow h.now r.user).1 = .allowed)
    (hmissed : h.desk.cache.live? h.now (Desk.cacheKey r) = none) :
    SameEnd (h.command p r none) (h'.command p r none) := by
  obtain ⟨hreached, -, hw⟩ := hm.left
  obtain ⟨hreached', hsourced', hw'⟩ := hm.right
  obtain ⟨hcatalog, -, hretry⟩ := hreached.rules
  obtain ⟨hcatalog', -, hretry'⟩ := hreached'.rules
  have hv' : (h'.desk.limiter.allow h'.now r.user).1 = .allowed := by
    rw [← hm.now, ← hm.limiter, hv]
  have hmissed' := live?_of_zero hsourced'.emptyAtZero hm.uncached h'.now (Desk.cacheKey r)
  have hlisted := Stage.ofCatalog_listed h.desk r.command
  have hstage' : Stage.ofCatalog h'.desk r.command = Stage.ofCatalog h.desk r.command := by
    simp only [Stage.ofCatalog, hcatalog, hcatalog']
  generalize hstage : Stage.ofCatalog h.desk r.command = stage at hlisted hstage'
  have hrefused : ∀ refusal, stage = Stage.refused refusal →
      SameEnd (h.command p r none) (h'.command p r none) := by
    rintro refusal rfl
    rw [command_eq_serve, command_eq_serve, serve_of_refused hv hmissed hstage,
      serve_of_refused hv' hmissed' hstage']
    exact ⟨hm.now, rfl⟩
  cases hlisted with
  | noAgent => exact hrefused _ rfl
  | noTask => exact hrefused _ rfl
  | known hagent htask =>
    have hsame : h'.desk.catalog = h.desk.catalog := hcatalog'.trans hcatalog.symm
    have hpolicy : h'.desk.retry = h.desk.retry := hretry'.trans hretry.symm
    have hnow := hm.bounded.now_lt hv
    have hleft := command_settled hp ⟨hv, hmissed, hagent, htask⟩ hw hroom hnow
    have hright := command_settled hp ⟨hv', hmissed', hsame ▸ hagent, hsame ▸ htask⟩ hw' hroom
      (hm.now ▸ hnow)
    rw [hpolicy, ← hm.now, ← hleft] at hright
    obtain ⟨hend, hreply⟩ := Prod.mk.inj hright
    exact ⟨hend.symm, congrArg textOf hreply.symm⟩

/-- **A command has the same text in both runs**, at the same instant. -/
theorem Matched.command (hp : p.Settled good rooms answer)
    (hm : Matched p good s catalog answer h h' log log') (hroom : rooms r.room)
    (hsame : ∀ q asked ended outcome, .command q asked ended outcome ∈ log →
      Desk.cacheKey q = Desk.cacheKey r → q.command = r.command) :
    SameEnd (h.command p r none) (h'.command p r none) := by
  cases hv : (h.desk.limiter.allow h.now r.user).1 with
  | overflow =>
    rw [command_eq_serve, command_eq_serve]
    simp only [SameEnd, serve, start_eq, ← hm.now, ← hm.limiter, hv, and_self]
  | denied =>
    rw [command_eq_serve, command_eq_serve]
    simp only [SameEnd, serve, start_eq, ← hm.now, ← hm.limiter, hv, Stage.refused, and_self]
  | allowed =>
    cases hlive : h.desk.cache.live? h.now (Desk.cacheKey r) with
    | some text => exact hm.command_cached hp hroom hsame hv hlive
    | none => exact hm.command_missed hp hroom hv hlive

/-- **Every act keeps two runs matched.** -/
theorem Matched.perform (hp : p.Settled good rooms answer)
    (hm : Matched p good s catalog answer h h' log log') (a : Act)
    (hroom : ∀ r, a = .command r → rooms r.room)
    (hsame : ∀ r, a = .command r → ∀ q asked ended outcome,
      .command q asked ended outcome ∈ log →
        Desk.cacheKey q = Desk.cacheKey r → q.command = r.command) :
    Matched p good s catalog answer (h.perform p a).1 (h'.perform p a).1
      (log ++ [(h.perform p a).2]) (log' ++ [(h'.perform p a).2]) := by
  obtain ⟨hreached, hsourced, hw⟩ := hm.left
  obtain ⟨hreached', hsourced', hw'⟩ := hm.right
  have hreach := hreached.perform a
  have hreach' := hreached'.perform a
  have hsource := hsourced.perform (p := p) hreached.rules.1 a
  have hsource' := hsourced'.perform (p := p) hreached'.rules.1 a
  cases a with
  | command r =>
    obtain ⟨hend, htext⟩ := hm.command hp (hroom r rfl) (hsame r rfl)
    have hcourse := command_course_none p h r
    have hcourse' := command_course_none p h' r
    refine ⟨⟨hreach, hsource, command_keeps hp.stays hw⟩,
      ⟨hreach', hsource', command_keeps hp.stays hw'⟩, hend, ?_, ?_,
      hcourse'.maxSize.trans hm.uncached, ?_, ?_⟩
    · simp only [Hall.perform, hcourse.limiter, hcourse'.limiter, hm.now, hm.limiter]
    · simp only [Hall.perform, hcourse.limiter]
      exact hm.bounded.allow h.now r.user
    · intro q asked ended text hmem
      rcases List.mem_append.1 hmem with hmem | hmem
      · exact hm.answers q asked ended text hmem
      · rw [List.mem_singleton] at hmem
        simp only [Hall.perform, Entry.command.injEq] at hmem
        obtain ⟨rfl, -, -, hr⟩ := hmem
        exact answers_of_pipeline hp hw hm.bounded hreached.rules.1 (hroom q rfl) hr.symm
    · rw [textsOf_append, textsOf_append, hm.texts]
      simp only [Hall.perform, textsOf, List.filterMap_cons, htext]
  | forget room =>
    refine ⟨⟨hreach, hsource, hp.stays _ (.deleteRecords room) hw⟩,
      ⟨hreach', hsource', hp.stays _ (.deleteRecords room) hw'⟩, hm.now, hm.limiter, hm.bounded,
      hm.uncached, fun q asked ended text hmem => ?_, ?_⟩
    · exact hm.answers q asked ended text (by simpa [Hall.perform] using hmem)
    · rw [textsOf_append, textsOf_append, hm.texts]
      rfl
  | wait ms =>
    refine ⟨⟨hreach, hsource, hw⟩, ⟨hreach', hsource', hw'⟩, congrArg (· + ms) hm.now, hm.limiter,
      hm.bounded, hm.uncached, fun q asked ended text hmem => ?_, ?_⟩
    · exact hm.answers q asked ended text (by simpa [Hall.perform] using hmem)
    · rw [textsOf_append, textsOf_append, hm.texts]
      rfl

/-- **The cache is not heard.** Over a pipeline whose result is a function of
agent, task and input, a run has the same texts as the same run over a cache
that keeps nothing, however much the cache holds and for however long. -/
theorem texts_of_uncached (hp : p.Settled good rooms answer) {w w' : W} (hw : good w)
    (hw' : good w') (s : Settings) (catalog : Catalog) (now : Nat) {acts : List Act}
    (hrooms : ∀ q, .command q ∈ acts → rooms q.room)
    (hplain : ∀ q, .command q ∈ acts → Plain q.command)
    (hdigest : ∀ q r, .command q ∈ acts → .command r ∈ acts →
      Sha256.hexDigest (keyText q.command) = Sha256.hexDigest (keyText r.command) →
        keyText q.command = keyText r.command) :
    textsOf (play p ⟨.ofSettings s catalog, w, now⟩ acts).2 =
      textsOf (play p ⟨.ofSettings s.uncached catalog, w', now⟩ acts).2 := by
  -- by induction on what has been played, all of it among the acts
  have hmatched : ∀ played : List Act, (∀ a ∈ played, a ∈ acts) →
      Matched p good s catalog answer (play p ⟨.ofSettings s catalog, w, now⟩ played).1
        (play p ⟨.ofSettings s.uncached catalog, w', now⟩ played).1
        (play p ⟨.ofSettings s catalog, w, now⟩ played).2
        (play p ⟨.ofSettings s.uncached catalog, w', now⟩ played).2 := by
    intro played
    induction played using List.reverseRecOn with
    | nil =>
      intro _
      exact ⟨⟨.start w now, sourced_play p s catalog w now [], hw⟩,
        ⟨.start w' now, sourced_play p s.uncached catalog w' now [], hw'⟩, rfl, rfl,
        RateLimiter.empty_bounded _ _, rfl, (fun _ _ _ _ hmem => nomatch hmem), rfl⟩
    | append_singleton played a ih =>
      intro hall
      have hbefore := ih fun b hb => hall b (List.mem_append_left _ hb)
      have ha := hall a (List.mem_append_right _ (.head _))
      rw [play_concat, play_concat]
      refine hbefore.perform hp a (fun r hr => hrooms r (hr ▸ ha)) ?_
      intro r hr q asked ended outcome hmem hkey
      have hq := hall _ (List.mem_append_left _ (act_of_logged _ played q asked ended outcome hmem))
      exact keyText_injective (hplain q hq) (hplain r (hr ▸ ha)) (hdigest q r hq (hr ▸ ha) hkey)
  exact (hmatched acts fun _ ha => ha).texts

end Hall

/-! ## A pipeline that repeats its input -/

namespace Rehearsal

/-- Rehearsed worlds with two rooms, whose registry works and whose script is
over. -/
def Scriptless (w : Rehearsal) : Prop :=
  w.keys = twoRooms.keys ∧ w.failures.registry = none ∧ w.script = []

/-- Behind its script the rehearsed pipeline repeats its input. -/
theorem atOnce_settled :
    atOnce.Settled Scriptless (fun room => room = "lobby" ∨ room = "attic")
      (fun agent _ input => .ok (.answer (agent.name ++ ": " ++ input))) where
  stays := by
    rintro w u ⟨hkeys, hregistry, hscript⟩
    cases hu : u.isOfMemory with
    | true =>
      obtain ⟨hkeys', hregistry', hscript'⟩ := sameScript_after w hu
      exact ⟨hkeys'.trans hkeys, hregistry'.trans hregistry, hscript'.trans hscript⟩
    | false =>
      cases u with
      | lookupKey room => exact ⟨hkeys, hregistry, hscript⟩
      | invoke agent task context input =>
        simp only [Ports.after, atOnce, ports, invoke, hscript]
        exact ⟨hkeys, hregistry, rfl⟩
      | _ => cases hu
  keyed := by
    rintro w room ⟨hkeys, hregistry, -⟩ hroom
    have hfound : ∃ key, twoRooms.keys.get? room = some key := by
      rcases hroom with rfl | rfl
      · exact ⟨_, rfl⟩
      · exact ⟨_, rfl⟩
    obtain ⟨key, hkey⟩ := hfound
    refine ⟨key, ?_⟩
    simp only [atOnce, ports, lookupKey, orFail, hkeys, hregistry, hkey]
  summarized := fun _ _ => rfl
  answered := by
    rintro w agent task context input ⟨-, -, hscript⟩
    simp only [atOnce, ports, invoke, hscript]

end Rehearsal

namespace Hall

/-- Three commands, of which the last is answered from the cache: without one it
has the same text, by the law. -/
theorem texts_of_uncached_repeated :
    ((play Rehearsal.atOnce (small .twoRooms) (threeCommands.take 3)).1.command Rehearsal.atOnce
        (.poem "attic" "rain") none).2 = .replied ⟨"writer: rain", .cache⟩ ∧
      textsOf (play Rehearsal.atOnce (small .twoRooms) threeCommands).2 =
        textsOf (play Rehearsal.atOnce ⟨.ofSettings (Settings.uncached {}) .small, .twoRooms, 0⟩
          threeCommands).2 := by
  have hcommands : ∀ q, .command q ∈ threeCommands →
      q ∈ [Request.poem "lobby" "rain", .poem "lobby" "snow", .poem "attic" "rain"] := by
    intro q hq
    simpa [threeCommands] using hq
  have hrooms : ∀ q ∈ [Request.poem "lobby" "rain", .poem "lobby" "snow", .poem "attic" "rain"],
      q.room = "lobby" ∨ q.room = "attic" := by decide
  have hplain : ∀ q ∈ [Request.poem "lobby" "rain", .poem "lobby" "snow", .poem "attic" "rain"],
      ':' ∉ q.command.agent.toList ∧ ':' ∉ q.command.task.toList := by decide
  have hdigest : ∀ q ∈ [Request.poem "lobby" "rain", .poem "lobby" "snow", .poem "attic" "rain"],
      ∀ r ∈ [Request.poem "lobby" "rain", .poem "lobby" "snow", .poem "attic" "rain"],
        Sha256.hexDigest (keyText q.command) = Sha256.hexDigest (keyText r.command) →
          keyText q.command = keyText r.command := by decide +kernel
  have hgood : Rehearsal.Scriptless .twoRooms := ⟨rfl, rfl, rfl⟩
  have htexts := texts_of_uncached Rehearsal.atOnce_settled hgood hgood {} .small 0
    (fun q (hq : .command q ∈ threeCommands) => hrooms q (hcommands q hq))
    (fun q hq => hplain q (hcommands q hq))
    (fun q r hq hr => hdigest q (hcommands q hq) r (hcommands r hr))
  exact ⟨by decide +kernel, htexts⟩

end Hall

end Colloquy
