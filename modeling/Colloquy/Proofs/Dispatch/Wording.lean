import Colloquy.Proofs.Dispatch.Ranges
import Colloquy.Proofs.Dispatch.Uses
import Colloquy.Proofs.Memory.Loading
import Colloquy.Proofs.Model.Completion
import Colloquy.Site
/-!
# Blank output is never an answer

One model server stands behind the pipeline and the summarizer
(`Ports.withModel`), and whatever it answers, a text that a command has for its
room has words in it: it comes from an answer with words, or from the cache, where
only such texts are put. A step leads to no other text (`Stage.Next.text_source`),
and to no other entry (`Stage.Next.cache_source`), so that `Floor.Worded` holds
however commands interleave.
-/

namespace Colloquy

open Text (HasWords)

/-! ## One model server -/

/-- Ports whose pipeline and summarizer are requests to one model server. -/
def Ports.withModel {W : Type} (p : Ports W) (access : ModelAccess)
    (send : ModelRequest → W → W × Nat × ModelResponse) : Ports W :=
  { p with
    summarize := fun history w =>
      let (w, takes, response) := send (access.summaryRequest history) w
      (w, takes, Completion.summary response)
    invoke := fun agent task context input w =>
      let (w, takes, response) := send (access.agentRequest agent task context input) w
      (w, takes, Completion.output response) }

/-- The ports of a site are such ports. -/
theorem Site.ports_eq_withModel {S : Type} (e : Equipment S) :
    ports e = (ports e).withModel e.access fun request w =>
      ({ w with server := (e.send request w.server).1 }, (e.send request w.server).2) := rfl

/-- An answer whose text, if it gives one, has words in it. -/
def Answer.Worded : Answer → Prop
  | .output result => ∀ text, result.bind PipelineOutput.result = .ok text → HasWords text
  | .summary result => ∀ text, result = .ok text → HasWords text
  | _ => True

/-- **Every answer of such ports has words** where it has a text. -/
theorem Ports.worded_of_serve {W : Type} (p : Ports W) (access : ModelAccess)
    (send : ModelRequest → W → W × Nat × ModelResponse) (w : W) (call : Call) :
    ((p.withModel access send).serve w call).2.2.Worded := by
  cases call with
  | invoke agent task context input => exact fun _ => Completion.hasWords_of_output
  | summarize history => exact fun _ => Completion.hasWords_of_summary
  | lookupKey room => trivial
  | listRecords room limit => trivial
  | pause ms => trivial
  | appendRecord room record => trivial
  | reconnect => trivial

/-! ## Caches of texts with words -/

namespace ResponseCache

variable {c c' : ResponseCache} {text : String}

/-- A cache in which every reply has words. -/
structure Worded (c : ResponseCache) : Prop where
  emptyAtZero : c.EmptyAtZero
  kept : ∀ key e, c.entries.get? key = some e → HasWords e.response

theorem Worded.within (hc : c.Worded) (h : c'.Within c) : c'.Worded :=
  ⟨h.emptyAtZero hc.emptyAtZero, fun key e he => hc.kept key e (h.held key e he)⟩

theorem Worded.set (hc : c.Worded) (now : Nat) (key : String) (htext : HasWords text) :
    (c.set now key text).Worded := by
  refine ⟨hc.emptyAtZero.set _ _ _, fun other e he => ?_⟩
  rcases get?_of_set hc.emptyAtZero he with ⟨-, rfl⟩ | ⟨-, hold⟩
  · exact htext
  · exact hc.kept other e hold

theorem Worded.of_live (hc : c.Worded) {now : Nat} {key : String}
    (h : c.live? now key = some text) : HasWords text := by
  obtain ⟨e, he, rfl, -⟩ := c.exists_entry_of_live? h
  exact hc.kept key e he

end ResponseCache

/-! ## One step -/

namespace Stage

/-- The text that a command has for its room. -/
def text? : Stage → Option String
  | .saving text _ => some text
  | .finished reply => if reply.isAnswer then some reply.text else none
  | _ => none

theorem text?_refused (refusal : Refusal) : (refused refusal).text? = none := by
  cases refusal <;> rfl

/-- The call that a command waits for depends on the rules alone. -/
theorem call?_congr {d d' : Desk} (h : Desk.SameRules d d') (r : Request) (stage : Stage) :
    stage.call? d' r = stage.call? d r := by
  unfold call?
  split <;> simp only [h.retry, h.memory]

/-- **A text at the front** is one of the cache. -/
theorem Begun.text_source {d : Desk} {now : Nat} {r : Request} {next : Desk × Stage}
    (h : Begun d now r next) {text : String} (htext : next.2.text? = some text) :
    d.cache.live? now (Desk.cacheKey r) = some text := by
  cases h with
  | overflow => cases htext
  | limited => cases htext
  | cached hlive => cases htext; exact hlive
  | unknown => rw [text?_refused] at htext; cases htext
  | letIn => cases htext

variable {W : Type} {p : Ports W} {d : Desk} {w : W} {now : Nat} {r : Request} {stage : Stage}
  {answer : Answer} {next : Desk × W × Stage} {text : String}

/-- **A text behind a step** was there before, or is that of the answer. -/
theorem Next.text_source (h : Next p d w now r stage answer next)
    (htext : next.2.2.text? = some text) :
    stage.text? = some text ∨
      ∃ result, answer = .output result ∧ result.bind PipelineOutput.result = .ok text := by
  cases h with
  | answered hresult => cases htext; exact .inr ⟨_, rfl, hresult⟩
  | unwritten => exact .inl htext
  | reconnected => exact .inl htext
  | saved => exact .inl htext
  | stray => exact .inl htext
  | registryFailed => cases htext
  | unregistered => cases htext
  | entered => cases htext
  | condensing => cases htext
  | read => cases htext
  | condensed => cases htext
  | unanswered => cases htext
  | failed => cases htext
  | rested => cases htext

/-- A step leaves the text of a command as it is. -/
theorem Next.text_stays (h : Next p d w now r stage answer next) (htext : stage.text? = some text) :
    next.2.2.text? = some text := by
  cases h with
  | unwritten => exact htext
  | reconnected => exact htext
  | saved => exact htext
  | stray => exact htext
  | _ => cases htext

/-- **What a step puts into the cache** is the text that the command has. -/
theorem Next.cache_source (h : Next p d w now r stage answer next) :
    next.1.cache = d.cache ∨
      ∃ text, stage.text? = some text ∧ next.1.cache = d.cache.set now (Desk.cacheKey r) text := by
  cases h with
  | saved => exact .inr ⟨_, rfl, rfl⟩
  | _ => exact .inl rfl

/-- Behind an answer with words the texts have words, if they had before. -/
theorem Next.worded (h : Next p d w now r stage answer next) (hcache : d.cache.Worded)
    (hstage : ∀ text, stage.text? = some text → HasWords text) (hanswer : answer.Worded) :
    next.1.cache.Worded ∧ ∀ text, next.2.2.text? = some text → HasWords text := by
  refine ⟨?_, fun text htext => ?_⟩
  · rcases h.cache_source with hsame | ⟨text, htext, hset⟩
    · rw [hsame]
      exact hcache
    · rw [hset]
      exact hcache.set _ _ (hstage text htext)
  · rcases h.text_source htext with hold | ⟨result, rfl, hresult⟩
    · exact hstage text hold
    · exact hanswer text hresult

/-- **What a step seals** is the exchange with the text that the command then has. -/
theorem Next.sealed_source {w : W × List PortUse} {next : Desk × (W × List PortUse) × Stage}
    (h : Next p.noted d w now r stage answer next) {key : RoomKey} {plaintext : List UInt8}
    (hsealed : PortUse.encrypt key plaintext ∈ next.2.1.2) :
    PortUse.encrypt key plaintext ∈ w.2 ∨
      ∃ text, next.2.2.text? = some text ∧
        plaintext = Text.Utf8.encode (Memory.exchange r.command.content text) := by
  cases h with
  | answered =>
    rw [Ports.after_noted] at hsealed
    rcases List.mem_append.1 hsealed with hold | hnew
    · exact .inl hold
    · cases List.mem_singleton.1 hnew
      exact .inr ⟨_, rfl, rfl⟩
  | _ => exact .inl hsealed

end Stage

/-! ## Commands that interleave -/

namespace Floor

variable {W : Type} {p : Ports W} {access : ModelAccess}
  {send : ModelRequest → W → W × Nat × ModelResponse} {s : Settings}
  {f g : Floor (W × List PortUse)}

/-- An answer that a command has not yet seen is that of the call it waits for. -/
def Served (p : Ports W) (d : Desk) (t : Ticket) : Prop :=
  ∀ answer ∈ t.answer, ∃ call w, t.stage.call? d t.request = some call ∧
    answer = (p.serve w call).2.2

/-- A plaintext is that of the exchange of a command that has its text. -/
def Exchanged (plaintext : List UInt8) (t : Ticket) : Prop :=
  ∃ text, t.stage.text? = some text ∧
    plaintext = Text.Utf8.encode (Memory.exchange t.request.command.content text)

/-- **Texts have words** wherever they are: in the cache, with the commands that have
them for their rooms, and in the exchanges that have been sealed. -/
structure Worded (p : Ports W) (s : Settings) (f : Floor (W × List PortUse)) : Prop where
  memory : f.hall.desk.memory = s.memory
  retry : f.hall.desk.retry = RetryPolicy.ofSettings s
  cache : f.hall.desk.cache.Worded
  texts : ∀ t ∈ f.tickets, ∀ text, t.stage.text? = some text → HasWords text
  served : ∀ t ∈ f.tickets, Served p f.hall.desk t
  sealed : ∀ key plaintext, PortUse.encrypt key plaintext ∈ f.hall.world.2 →
    ∃ t ∈ f.tickets, Exchanged plaintext t

theorem Served.congr {d d' : Desk} (h : Desk.SameRules d d') {t : Ticket} (ht : Served p d t) :
    Served p d' t := by
  intro answer hanswer
  obtain ⟨call, w, hcall, heq⟩ := ht answer hanswer
  exact ⟨call, w, (Stage.call?_congr h _ _).trans hcall, heq⟩

theorem Worded.begins (p : Ports W) (s : Settings) (catalog : Catalog) (w : W) (now : Nat) :
    Worded p s ⟨⟨.ofSettings s catalog, (w, []), now⟩, []⟩ where
  memory := rfl
  retry := rfl
  cache := ⟨fun _ _ => rfl, fun _ _ he => by cases he⟩
  texts _ ht := absurd ht List.not_mem_nil
  served _ ht := absurd ht List.not_mem_nil
  sealed _ _ hu := absurd hu List.not_mem_nil

/-- A command that comes has a text of the cache, or none. -/
theorem Worded.arrived (hf : Worded p s f) {r : Request} {next : Desk × Stage}
    (hnext : Stage.Begun f.hall.desk f.hall.now r next) :
    Worded p s ⟨{ f.hall with desk := next.1 }, f.tickets ++ [⟨r, next.2, none⟩]⟩ where
  memory := hnext.rules.1.memory.trans hf.memory
  retry := hnext.rules.1.retry.trans hf.retry
  cache := hf.cache.within hnext.cache
  texts t ht text htext := by
    rcases List.mem_append.1 ht with ht | ht
    · exact hf.texts t ht text htext
    · cases List.mem_singleton.1 ht
      exact hf.cache.of_live (hnext.text_source htext)
  served t ht := by
    rcases List.mem_append.1 ht with ht | ht
    · exact (hf.served t ht).congr hnext.rules.1
    · cases List.mem_singleton.1 ht
      exact fun _ hanswer => by cases hanswer
  sealed key plaintext hu := by
    obtain ⟨t, ht, htext⟩ := hf.sealed key plaintext hu
    exact ⟨t, List.mem_append_left _ ht, htext⟩

/-- No call seals anything. -/
theorem sealed_of_serve {w : W × List PortUse} {call : Call} {key : RoomKey}
    {plaintext : List UInt8} (hu : PortUse.encrypt key plaintext ∈ (p.noted.serve w call).1.2) :
    PortUse.encrypt key plaintext ∈ w.2 := by
  cases call <;> simpa [Ports.serve, Ports.noted, Ports.note] using hu

/-- A call that is carried out is noted with its answer. -/
theorem Worded.served_step (hf : Worded p s f) {r : Request} {stage : Stage} {call : Call}
    {before after : List Ticket} (htickets : f.tickets = before ++ ⟨r, stage, none⟩ :: after)
    (hcall : stage.call? f.hall.desk r = some call) :
    Worded p s ⟨{ f.hall with world := (p.noted.serve f.hall.world call).1 },
      before ++ ⟨r, stage, some (p.noted.serve f.hall.world call).2.2⟩ :: after⟩ where
  memory := hf.memory
  retry := hf.retry
  cache := hf.cache
  texts := by
    have htexts := hf.texts
    rw [htickets] at htexts
    exact forall_mem_split htexts (htexts ⟨r, stage, none⟩ (List.mem_append_right _ (.head _)))
  served := by
    have hserved := hf.served
    rw [htickets] at hserved
    refine forall_mem_split hserved fun answer hanswer => ?_
    cases hanswer
    exact ⟨call, f.hall.world.1, hcall,
      congrArg (fun out => out.2.2) (Hall.serve_noted (p := p) f.hall.world call)⟩
  sealed key plaintext hu := by
    have hexists := hf.sealed key plaintext (sealed_of_serve hu)
    rw [htickets] at hexists
    exact exists_mem_split hexists id

/-- **A step behind an answer** gives its command a text with words, if any. -/
theorem Worded.resumed (hf : Worded (p.withModel access send) s f) {r : Request} {stage : Stage}
    {answer : Answer} {next : Desk × (W × List PortUse) × Stage} {before after : List Ticket}
    (htickets : f.tickets = before ++ ⟨r, stage, some answer⟩ :: after)
    (hnext : Stage.Next (p.withModel access send).noted f.hall.desk f.hall.world f.hall.now r stage
      answer next) :
    Worded (p.withModel access send) s
      ⟨⟨next.1, next.2.1, f.hall.now⟩, before ++ ⟨r, next.2.2, none⟩ :: after⟩ := by
  obtain ⟨hmemory, hretry, hcache, htexts, hserved, hsealed⟩ := hf
  rw [htickets] at htexts hserved hsealed
  have hstage := htexts _ (List.mem_append_right _ (.head _))
  obtain ⟨call, w, -, hanswer⟩ := hserved _ (List.mem_append_right _ (.head _)) answer rfl
  have hworded : answer.Worded := hanswer ▸ p.worded_of_serve access send w call
  obtain ⟨hcache', htexts'⟩ := hnext.worded hcache hstage hworded
  refine ⟨hnext.rules.memory.trans hmemory, hnext.rules.retry.trans hretry, hcache',
    forall_mem_split htexts htexts', ?_, ?_⟩
  · exact forall_mem_split (fun t ht => (hserved t ht).congr hnext.rules)
      fun _ hnone => by cases hnone
  · intro key plaintext hu
    rcases hnext.sealed_source hu with hold | hnew
    · refine exists_mem_split (hsealed key plaintext hold) fun ⟨text, htext, hplain⟩ => ?_
      exact ⟨text, hnext.text_stays htext, hplain⟩
    · exact ⟨_, List.mem_append_right _ (.head _), hnew⟩

/-- **Every step keeps it**, and so does a run. -/
theorem Worded.step (hf : Worded (p.withModel access send) s f)
    (hstep : Step (p.withModel access send).noted f g) : Worded (p.withModel access send) s g := by
  cases hstep with
  | idle => exact hf
  | arrived hnext => exact hf.arrived hnext
  | served htickets hcall => exact hf.served_step htickets hcall
  | resumed htickets hnext => exact hf.resumed htickets hnext
  | waited => exact ⟨hf.memory, hf.retry, hf.cache, hf.texts, hf.served, hf.sealed⟩

theorem worded_run (p : Ports W) (access : ModelAccess)
    (send : ModelRequest → W → W × Nat × ModelResponse) (s : Settings) (catalog : Catalog) (w : W)
    (now : Nat) (moves : List Move) :
    Worded (p.withModel access send) s
      (run (p.withModel access send).noted ⟨⟨.ofSettings s catalog, (w, []), now⟩, []⟩ moves) :=
  run_keeps (A := fun _ => True) (fun _ _ => trivial) (.begins _ s catalog w now)
    fun _ _ _ hf hstep => hf.step hstep

/-! ## Blank answers -/

/-- **A blank answer is a failed attempt** of the command in a place. While attempts
remain the command pauses and then waits for the next answer, and nothing else has
changed; behind the last one it ends in a failure, and nothing is sealed or kept. -/
structure FailsAttempt (p : Ports W) (attempts : Nat) (f : Floor W) (i : Nat) (r : Request)
    (asking : Retrying PipelineError String → Stage) (made : Nat) : Prop where
  retried : made + 1 < attempts →
    f.move p (.resume i) =
        { f with tickets := f.tickets.set i ⟨r, asking (.pausing (made + 1)), none⟩ } ∧
      run p f [.resume i, .serve i, .resume i] =
        { f with tickets := f.tickets.set i ⟨r, asking (.attempting (made + 1)), none⟩ }
  failed : attempts ≤ made + 1 →
    let g := f.move p (.resume i)
    g.tickets = f.tickets.set i ⟨r, .finished
        ⟨"Error: pipeline reported an error: pipeline returned an empty response", .failed⟩,
        none⟩ ∧
      g.hall.world = f.hall.world ∧ g.hall.desk.cache = f.hall.desk.cache

end Floor

/-- **What becomes of records over budget** when their summary is an answer: with words
in it a summary stands in front of the latest records, and behind a blank one the
history is cut. -/
structure Loading.Condensed (m : MemorySettings) (records : List String)
    (response : ModelResponse) (window : ConversationWindow) : Prop where
  blank : response.IsBlank → window.compaction = .truncated
  shown : window.compaction = .truncated ∧
      window.text = Memory.truncated (Memory.joined records) m.truncateChars ∨
    window.compaction = .summarized ∧ ∃ summary, HasWords summary ∧
      window.text = Memory.summarized summary records m.recentRecords

theorem Loading.afterSummary_condensed (m : MemorySettings) (records : List String)
    (skipped : Nat) (response : ModelResponse) :
    Condensed m records response
      (afterSummary m records skipped (Completion.summary response)) where
  blank hblank := by rw [Completion.summary_of_isBlank hblank]; rfl
  shown := by
    cases hsummary : Completion.summary response with
    | error e => exact .inl ⟨rfl, rfl⟩
    | ok summary => exact .inr ⟨rfl, summary, Completion.hasWords_of_summary hsummary, rfl⟩

namespace Floor

variable {W : Type} {p : Ports W} {f : Floor W} {i : Nat} {r : Request} {stage : Stage}

/-- Behind a pause the next attempt is under way, and nothing else has changed. -/
theorem run_pause {agent : AgentSpec} {task : TaskSpec} {key : RoomKey} {context : String}
    {since made : Nat}
    (h : f.tickets[i]? = some ⟨r, .asking agent task key context since (.pausing made), none⟩) :
    run p f [.serve i, .resume i] = ⟨f.hall,
      f.tickets.set i ⟨r, .asking agent task key context since (.attempting made), none⟩⟩ := by
  let waited : Ticket := ⟨r, .asking agent task key context since (.pausing made), some .waited⟩
  have hserve : f.move p (.serve i) = ⟨f.hall, f.tickets.set i waited⟩ := by
    simp only [move, h, Stage.call?, Ports.serve, waited]
  obtain ⟨hi, -⟩ := List.getElem?_eq_some_iff.1 h
  have hwaited : (f.tickets.set i waited)[i]? = some waited := List.getElem?_set_self hi
  have hresume : move p ⟨f.hall, f.tickets.set i waited⟩ (.resume i) =
      ⟨f.hall, (f.tickets.set i waited).set i
        ⟨r, .asking agent task key context since (.attempting made), none⟩⟩ :=
    move_resume (f := ⟨f.hall, f.tickets.set i waited⟩) hwaited
  rw [List.set_set] at hresume
  rw [run, List.foldl_cons, hserve, List.foldl_cons, hresume, List.foldl_nil]

theorem failsAttempt {response : ModelResponse} (hblank : response.IsBlank) {agent : AgentSpec}
    {task : TaskSpec} {key : RoomKey} {context : String} {since made : Nat}
    (h : f.tickets[i]? = some ⟨r, .asking agent task key context since (.attempting made),
      some (.output (Completion.output response))⟩) :
    FailsAttempt p f.hall.desk.retry.attempts f i r (.asking agent task key context since)
      made := by
  have hmove := move_resume (p := p) h
  simp only [Stage.resume, Completion.result_output_of_isBlank hblank,
    RetryPolicy.afterAttempt] at hmove
  obtain ⟨hi, -⟩ := List.getElem?_eq_some_iff.1 h
  refine ⟨fun hmore => ?_, fun hlast => ?_⟩
  · simp only [if_pos hmore, Stage.afterAttempt] at hmove
    refine ⟨hmove, ?_⟩
    have hpausing : (f.tickets.set i
        ⟨r, .asking agent task key context since (.pausing (made + 1)), none⟩)[i]? = some _ :=
      List.getElem?_set_self hi
    have hpause := run_pause (p := p)
      (f := ⟨f.hall, f.tickets.set i
        ⟨r, .asking agent task key context since (.pausing (made + 1)), none⟩⟩) hpausing
    simp only [List.set_set] at hpause
    rw [run, List.foldl_cons, hmove]
    exact hpause
  · rw [if_neg (Nat.not_lt.2 hlast)] at hmove
    rw [hmove]
    exact ⟨rfl, rfl, rfl⟩

end Floor

/-! ## Loads and commands alone -/

namespace Hall

variable {W : Type} {p : Ports W} {access : ModelAccess}
  {send : ModelRequest → W → W × Nat × ModelResponse}

/-- A window that is loaded outside of any command is reduced in the same way. -/
theorem window_condensed (h : Hall W) (room : String) (key : RoomKey) :
    let m := h.desk.memory
    let read := p.listRecords room m.maxRecords h.world
    let window := (h.window (p.withModel access send) room key).2
    window.compaction = .none ∨
      ∃ records skipped,
        Loading.afterRead m (p.readable key) read.2 = .summarizing records skipped ∧
        Loading.Condensed m records
          (send (access.summaryRequest (Memory.joined records)) read.1).2.2 window := by
  intro m read window
  let q := p.withModel access send
  have hwindow : window = _ := window_eq q h room key
  -- the other model leaves what is read and which records are readable as they are
  cases hload : Loading.afterRead m (q.readable key)
      (q.listRecords room m.maxRecords h.world).2 with
  | reading => exact .inl (by rw [hwindow, hload]; rfl)
  | loaded loaded =>
    rw [hload] at hwindow
    exact .inl (by rw [hwindow]; exact Loading.compaction_of_loaded hload)
  | summarizing records skipped =>
    rw [hload] at hwindow
    refine .inr ⟨records, skipped, hload, ?_⟩
    rw [hwindow]
    exact Loading.afterSummary_condensed m records skipped _

/-- **A command alone** keeps the cache worded and gives no other reply, with or without
a deadline. -/
theorem worded_of_command {q : Ports W} (hq : ∀ w call, (q.serve w call).2.2.Worded) {h : Hall W}
    (hcache : h.desk.cache.Worded) (r : Request) (timeout : Option Nat) :
    (h.command q r timeout).1.desk.cache.Worded ∧
      ∀ reply, (h.command q r timeout).2 = .replied reply → reply.isAnswer = true →
        HasWords reply.text := by
  have hbegun := Stage.start_begun h.desk h.now r
  have hkeeps : ∀ g stage, Underway q h r g stage →
      g.desk.cache.Worded ∧ ∀ text, stage.text? = some text → HasWords text := by
    intro g stage hunder
    refine hunder.keeps (J := fun g stage => g.desk.cache.Worded ∧
      ∀ text, stage.text? = some text → HasWords text) ?_ ?_
    · exact ⟨hcache.within hbegun.cache,
        fun text htext => hcache.of_live (hbegun.text_source htext)⟩
    · intro g stage call later next _ _ hnext hg
      exact hnext.worded hg.1 hg.2 (hq _ call)
  have hend := command_ends q h r timeout
  generalize h.command q r timeout = out at hend
  cases hend with
  | @replied g reply hunder =>
    refine ⟨(hkeeps _ _ hunder).1, fun _ hreply hanswer => ?_⟩
    cases hreply
    exact (hkeeps _ _ hunder).2 reply.text (if_pos hanswer)
  | broken hunder => exact ⟨(hkeeps _ _ hunder).1, nofun⟩
  | @dropped g stage call instant hunder _ _ =>
    refine ⟨?_, nofun⟩
    have hdropped := (hkeeps _ _ hunder).1
    cases stage <;> exact hdropped

end Hall

/-! ## The law -/

namespace Floor

variable {W : Type}

/-- An attempt under way has its answer from the model. -/
theorem Worded.answer_of_attempt {p : Ports W} {access : ModelAccess}
    {send : ModelRequest → W → W × Nat × ModelResponse} {s : Settings}
    {f : Floor (W × List PortUse)} (hf : Worded (p.withModel access send) s f) {i : Nat}
    {r : Request} {agent : AgentSpec} {task : TaskSpec} {key : RoomKey} {context : String}
    {since made : Nat} {answer : Answer}
    (h : f.tickets[i]? = some ⟨r, .asking agent task key context since (.attempting made),
      some answer⟩) :
    ∃ w, answer = .output (Completion.output
      (send (access.agentRequest agent task context r.command.content) w).2.2) := by
  obtain ⟨call, w, hcall, hanswer⟩ := hf.served _ (List.mem_of_getElem? h) answer rfl
  cases hcall
  exact ⟨w, hanswer⟩

/-- The answer to a load that waits for a summary is one of the model server. -/
theorem Worded.answer_of_load {p : Ports W} {access : ModelAccess}
    {send : ModelRequest → W → W × Nat × ModelResponse} {s : Settings}
    {f : Floor (W × List PortUse)} (hf : Worded (p.withModel access send) s f) {i : Nat}
    {r : Request} {agent : AgentSpec} {task : TaskSpec} {key : RoomKey} {records : List String}
    {skipped : Nat} {answer : Answer}
    (h : f.tickets[i]? = some ⟨r, .loading agent task key (.summarizing records skipped),
      some answer⟩) :
    ∃ w, answer = .summary (Completion.summary
      (send (access.summaryRequest (Memory.joined records)) w).2.2) := by
  obtain ⟨call, w, hcall, hanswer⟩ := hf.served _ (List.mem_of_getElem? h) answer rfl
  cases hcall
  exact ⟨w, hanswer⟩

/-- **Blank output is never an answer.** Let one model server, with any state and any
answers, stand behind the pipeline and the summarizer, and let commands interleave in
any way. Then every reply that is an answer has words in it, and so has every reply of a
command that is run alone from there, with or without a deadline. Every exchange that is
sealed to be stored is that of the text that its command has, which has words, as
has everything that is kept in the cache. An attempt with a blank answer has failed: it
is made again while attempts remain, and is a failure behind the last. And a summary in a
window has words, while a blank one leaves the history truncated, for a command as for
a load outside of any. -/
theorem answers_have_words (p : Ports W) (access : ModelAccess)
    (send : ModelRequest → W → W × Nat × ModelResponse) (s : Settings) (catalog : Catalog) (w : W)
    (now : Nat) (moves : List Move) :
    let ports := (p.withModel access send).noted
    let f := run ports ⟨⟨.ofSettings s catalog, (w, []), now⟩, []⟩ moves
    (∀ r reply, (r, reply) ∈ f.replies → reply.isAnswer = true → HasWords reply.text) ∧
    (∀ r timeout reply, (f.hall.command ports r timeout).2 = .replied reply →
      reply.isAnswer = true → HasWords reply.text) ∧
    (∀ key plaintext, PortUse.encrypt key plaintext ∈ f.hall.world.2 →
      ∃ t ∈ f.tickets, ∃ text, t.stage.text? = some text ∧ HasWords text ∧
        plaintext = Text.Utf8.encode (Memory.exchange t.request.command.content text)) ∧
    (∀ key e, f.hall.desk.cache.entries.get? key = some e → HasWords e.response) ∧
    (∀ i r agent task key context since made answer,
      f.tickets[i]? = some ⟨r, .asking agent task key context since (.attempting made),
        some answer⟩ →
      (∃ w', answer = .output (Completion.output
        (send (access.agentRequest agent task context r.command.content) w').2.2)) ∧
      ∀ response, answer = .output (Completion.output response) → response.IsBlank →
        FailsAttempt ports (max 1 s.retry.maxAttempts) f i r (.asking agent task key context since)
          made) ∧
    (∀ i r agent task key records skipped answer,
      f.tickets[i]? = some ⟨r, .loading agent task key (.summarizing records skipped),
        some answer⟩ →
      (∃ w', answer = .summary (Completion.summary
        (send (access.summaryRequest (Memory.joined records)) w').2.2)) ∧
      ∀ response, answer = .summary (Completion.summary response) →
        let window := Loading.afterSummary s.memory records skipped (Completion.summary response)
        Loading.Condensed s.memory records response window ∧
        (f.move ports (.resume i)).tickets = f.tickets.set i
          ⟨r, .asking agent task key window.text f.hall.now (.attempting 0), none⟩) ∧
    ∀ (h : Hall W) room key,
      let m := h.desk.memory
      let read := p.listRecords room m.maxRecords h.world
      let window := (h.window (p.withModel access send) room key).2
      window.compaction = .none ∨
        ∃ records skipped,
          Loading.afterRead m (p.readable key) read.2 = .summarizing records skipped ∧
          Loading.Condensed m records
            (send (access.summaryRequest (Memory.joined records)) read.1).2.2 window := by
  intro ports f
  have hf : Worded (p.withModel access send) s f := worded_run p access send s catalog w now moves
  have hserve : ∀ w call, (ports.serve w call).2.2.Worded := by
    intro w call
    have hnoted := congrArg (fun out => out.2.2)
      (Hall.serve_noted (p := p.withModel access send) w call)
    exact hnoted ▸ p.worded_of_serve access send w.1 call
  refine ⟨fun r reply hreply hanswer => ?_, fun r timeout =>
    (Hall.worded_of_command hserve hf.cache r timeout).2, fun key plaintext hu => ?_, hf.cache.kept,
    fun i r agent task key context since made answer hticket => ?_,
    fun i r agent task key records skipped answer hticket => ?_, Hall.window_condensed⟩
  · obtain ⟨t, ht, hgiven⟩ := List.mem_filterMap.1 hreply
    have hstage : t.stage.text? = some reply.text := by
      unfold Ticket.reply? at hgiven
      split at hgiven
      · rename_i hfinished
        cases hgiven
        rw [hfinished]
        exact if_pos hanswer
      · cases hgiven
    exact hf.texts t ht _ hstage
  · obtain ⟨t, ht, text, htext, hplain⟩ := hf.sealed key plaintext hu
    exact ⟨t, ht, text, htext, hf.texts t ht text htext, hplain⟩
  · refine ⟨hf.answer_of_attempt hticket, fun response hresponse hblank => ?_⟩
    subst hresponse
    have hattempts : f.hall.desk.retry.attempts = max 1 s.retry.maxAttempts := by
      rw [hf.retry]
      rfl
    exact hattempts ▸ failsAttempt hblank hticket
  · refine ⟨hf.answer_of_load hticket, fun response hresponse => ?_⟩
    subst hresponse
    refine ⟨Loading.afterSummary_condensed _ _ _ _, ?_⟩
    rw [move_resume hticket, ← hf.memory]
    rfl

end Floor

/-! ### A model that has words at the second attempt -/

namespace Rehearsal

/-- One thing at first, and another from then on. -/
def stutter {α : Type} (first later : α) (w : Rehearsal) : Rehearsal × Nat × α :=
  if w.sealed = 0 then ({ w with sealed := 1 }, 0, first) else (w, 0, later)

/-- What the answers of such a model come to can be said in advance. -/
theorem withModel_stutter (access : ModelAccess) (first later : ModelResponse) :
    (ports false).withModel access (fun _ => stutter first later) = { ports false with
      summarize := fun _ => stutter (Completion.summary first) (Completion.summary later)
      invoke := fun _ _ _ _ => stutter (Completion.output first) (Completion.output later) } := by
  simp only [Ports.withModel, Ports.mk.injEq, true_and]
  constructor <;>
  · funext
    simp only [stutter]
    split <;> rfl

end Rehearsal

namespace Floor

/-- A command up to the first answer of its model. -/
def untilAnswered : List Move :=
  [.arrive (.poem "lobby" "rain"), .serve 0, .resume 0, .serve 0, .resume 0, .serve 0]

set_option maxRecDepth 1000 in
/-- Whatever the answer is, the command has it and has not yet seen it. -/
theorem tickets_untilAnswered (first later : ModelResponse) :
    (run ((Rehearsal.ports false).withModel ⟨{}, none, none⟩
          fun _ => Rehearsal.stutter first later).noted
        ⟨⟨.ofSettings {} .small, (.twoRooms, []), 0⟩, []⟩ untilAnswered).tickets =
      [⟨.poem "lobby" "rain", .asking .writer .poem (.uniform 7) "" 0 (.attempting 0),
        some (.output (Completion.output first))⟩] := rfl

/-- Two blank choices are a failed attempt, though a third has words, and behind the next
answer the command has its reply, as has another one from the cache. -/
theorem answers_have_words_behind_blank :
    let blank := ScriptedServer.answerOf "mixtral" [some " \u2003", none, some "no"]
    let fine := ScriptedServer.answerOf "mixtral" [some "fine"]
    let ports := ((Rehearsal.ports false).withModel ⟨{}, none, none⟩
      fun _ => Rehearsal.stutter blank fine).noted
    let opening : Floor (Rehearsal × List PortUse) :=
      ⟨⟨.ofSettings {} .small, (.twoRooms, []), 0⟩, []⟩
    let f := run ports opening untilAnswered
    let g := run ports opening (untilAnswered ++
      (.resume 0 :: (List.replicate 3 [Move.serve 0, .resume 0]).flatten) ++
        [.arrive (.poem "lobby" "rain")])
    (run ports f [.resume 0, .serve 0, .resume 0]).tickets =
        [⟨.poem "lobby" "rain", .asking .writer .poem (.uniform 7) "" 0 (.attempting 1), none⟩] ∧
      g.replies = [(.poem "lobby" "rain", ⟨"fine", .pipeline⟩),
        (.poem "lobby" "rain", ⟨"fine", .cache⟩)] ∧
      ∀ given ∈ g.replies, HasWords given.2.text := by
  intro blank fine ports opening f g
  have hblank : blank.IsBlank :=
    (ScriptedServer.isBlank_answerOf_iff _ (by decide)).2 fun text htext => by
      cases htext
      decide
  have houtput : Completion.output blank = .ok (.failed "pipeline returned an empty response") := by
    rw [Completion.output, ScriptedServer.text?_answerOf _ (by decide)]
    rfl
  have hfine : Completion.output fine = .ok (.answer "fine") := by
    rw [Completion.output, ScriptedServer.text?_answerOf _ (by decide)]
    rfl
  have hreplies : g.replies = [(.poem "lobby" "rain", ⟨"fine", .pipeline⟩),
      (.poem "lobby" "rain", ⟨"fine", .cache⟩)] := by
    simp only [g, ports, Rehearsal.withModel_stutter, houtput, hfine]
    decide +kernel
  have htickets := tickets_untilAnswered blank fine
  obtain ⟨-, -, -, -, hattempt, -, -⟩ := answers_have_words (Rehearsal.ports false)
    ⟨{}, none, none⟩ (fun _ => Rehearsal.stutter blank fine) {} .small .twoRooms 0 untilAnswered
  obtain ⟨-, hfails⟩ := hattempt 0 _ _ _ _ _ _ _ _ (congrArg (·[0]?) htickets)
  obtain ⟨hwords, -⟩ := answers_have_words (Rehearsal.ports false) ⟨{}, none, none⟩
    (fun _ => Rehearsal.stutter blank fine) {} .small .twoRooms 0 (untilAnswered ++
      (.resume 0 :: (List.replicate 3 [Move.serve 0, .resume 0]).flatten) ++
        [.arrive (.poem "lobby" "rain")])
  refine ⟨?_, hreplies, fun given hgiven => hwords given.1 given.2 hgiven ?_⟩
  · obtain ⟨-, hretried⟩ := (hfails blank rfl hblank).retried (by decide)
    have hrun := congrArg Floor.tickets hretried
    dsimp only at hrun
    rw [htickets, List.set_cons_zero] at hrun
    exact hrun
  · rw [hreplies] at hgiven
    simp only [List.mem_cons, List.not_mem_nil, or_false] at hgiven
    rcases hgiven with rfl | rfl <;> rfl

end Floor

end Colloquy
