import Colloquy.Proofs.Dispatch.Provenance
import Colloquy.Proofs.Dispatch.Recall
import Colloquy.Proofs.RateLimiter
/-!
# What one room learns of another

Two runs of the same acts start from worlds that differ in the history of one
room. Every room has its own records and key, but all rooms share the limiter
and the cache. `confined` says what can be told of that history in another
room: nothing but an answer that was given in the room itself and that the
cache repeats elsewhere.
-/

namespace Colloquy

/-- Ports under which one room is apart. A view of a world is all of it but the
records of that room. What a use gives and leaves to the view depends on the
view alone, except for what is read in the room; the pipeline and the
summarizer are functions of what they are given, and take no time. -/
structure Ports.Apart {W V : Type} (p : Ports W) (apart : String) (view : W → V)
    (answer : AgentSpec → TaskSpec → String → String → String)
    (brief : String → Except PipelineError String) : Prop where
  keyed : ∀ w w' room, view w = view w' →
    (p.lookupKey room w).2 = (p.lookupKey room w').2 ∧
      view (p.lookupKey room w).1 = view (p.lookupKey room w').1
  listed : ∀ w w' room limit, view w = view w' →
    (room ≠ apart → (p.listRecords room limit w).2 = (p.listRecords room limit w').2) ∧
      view (p.listRecords room limit w).1 = view (p.listRecords room limit w').1
  appended : ∀ w w' room record record', view w = view w' → (room ≠ apart → record = record') →
    (p.appendRecord room record w).2 = (p.appendRecord room record' w').2 ∧
      view (p.appendRecord room record w).1 = view (p.appendRecord room record' w').1
  deleted : ∀ w w' room, view w = view w' →
    view (p.deleteRecords room w).1 = view (p.deleteRecords room w').1
  reconnected : ∀ w w', view w = view w' →
    (p.reconnect w).2 = (p.reconnect w').2 ∧ view (p.reconnect w).1 = view (p.reconnect w').1
  sealed : ∀ w w' key plaintext plaintext', view w = view w' →
    (plaintext = plaintext' → (p.encrypt key plaintext w).2 = (p.encrypt key plaintext' w').2) ∧
      view (p.encrypt key plaintext w).1 = view (p.encrypt key plaintext' w').1
  summarized : ∀ w history, (p.summarize history w).2 = (0, brief history) ∧
    view (p.summarize history w).1 = view w
  answered : ∀ w agent task context input,
    (p.invoke agent task context input w).2 =
        (0, .ok (.answer (answer agent task context input))) ∧
      view (p.invoke agent task context input w).1 = view w

namespace Ports.Apart

variable {W V : Type} {p : Ports W} {apart : String} {view : W → V}
  {answer : AgentSpec → TaskSpec → String → String → String}
  {brief : String → Except PipelineError String}

/-! ## The phases side by side -/

/-- Two scenes at one instant, the same but for the room. -/
structure Abreast (view : W → V) (now : Nat) (s s' : Scene W) : Prop where
  world : view s.world = view s'.world
  left : s.now = now
  right : s'.now = now

variable {now : Nat} {s s' : Scene W}

/-- Both find the same key. -/
theorem fetchKey (hp : p.Apart apart view answer brief) (hnow : now < Clock.horizon)
    (hs : Abreast view now s s') (room : String) :
    Abreast view now (p.fetchKey room s).1 (p.fetchKey room s').1 ∧
      (p.fetchKey room s).2 = (p.fetchKey room s').2 := by
  obtain ⟨hfound, hview⟩ := hp.keyed s.world s'.world room hs.world
  refine ⟨⟨hview, ?_, ?_⟩, hfound⟩
  · rw [Ports.fetchKey, hs.left, Clock.wake_zero hnow]
  · rw [Ports.fetchKey, hs.right, Clock.wake_zero hnow]

/-- The end of a load leaves the view and the clock, and its window is a
function of the load. -/
theorem finishLoad (hp : p.Apart apart view answer brief) (hnow : now < Clock.horizon)
    (hs : s.now = now) (m : MemorySettings) (load : Loading) :
    view (p.finishLoad m s load).1.world = view s.world ∧ (p.finishLoad m s load).1.now = now ∧
      (p.finishLoad m s load).2 =
        match load with
        | .loaded window => window
        | .reading => .empty
        | .summarizing records skipped =>
          Loading.afterSummary m records skipped (brief (Memory.joined records)) := by
  cases load with
  | loaded window => exact ⟨rfl, hs, rfl⟩
  | reading => exact ⟨rfl, hs, rfl⟩
  | summarizing records skipped =>
    obtain ⟨hbrief, hview⟩ := hp.summarized s.world (Memory.joined records)
    refine ⟨hview, ?_, ?_⟩
    · simp only [Ports.finishLoad, hbrief, hs]
      exact Clock.wake_zero hnow
    · simp only [Ports.finishLoad, hbrief]

/-- Both load the same window, but for the room. -/
theorem fetchWindow (hp : p.Apart apart view answer brief) (hnow : now < Clock.horizon)
    (hs : Abreast view now s s') (m : MemorySettings) (room : String) (key : RoomKey) :
    Abreast view now (p.fetchWindow m room key s).1 (p.fetchWindow m room key s').1 ∧
      (room ≠ apart → (p.fetchWindow m room key s).2 = (p.fetchWindow m room key s').2) := by
  -- in the room itself one load may ask for a summary and the other not, so
  -- each is followed to its end alone
  obtain ⟨hsame, hview⟩ := hp.listed s.world s'.world room m.maxRecords hs.world
  have hleft : Clock.wake s.now 0 = now := by rw [hs.left, Clock.wake_zero hnow]
  have hright : Clock.wake s'.now 0 = now := by rw [hs.right, Clock.wake_zero hnow]
  obtain ⟨hview₁, hnow₁, hwindow₁⟩ := hp.finishLoad hnow
    (s := ⟨(p.listRecords room m.maxRecords s.world).1, _⟩) hleft m
    (Loading.afterRead m (p.readable key) (p.listRecords room m.maxRecords s.world).2)
  obtain ⟨hview₂, hnow₂, hwindow₂⟩ := hp.finishLoad hnow
    (s := ⟨(p.listRecords room m.maxRecords s'.world).1, _⟩) hright m
    (Loading.afterRead m (p.readable key) (p.listRecords room m.maxRecords s'.world).2)
  refine ⟨⟨hview₁.trans (hview.trans hview₂.symm), hnow₁, hnow₂⟩, fun hroom => ?_⟩
  refine hwindow₁.trans (Eq.trans ?_ hwindow₂.symm)
  rw [hsame hroom]

/-- The first attempt is answered at once. -/
theorem ask (hp : p.Apart apart view answer brief) (hnow : now < Clock.horizon)
    (hs : s.now = now) (delay : Nat) (agent : AgentSpec) (task : TaskSpec)
    (context input : String) (left : Nat) :
    view (p.ask delay agent task context input left s).1.world = view s.world ∧
      (p.ask delay agent task context input left s).1.now = now ∧
      (p.ask delay agent task context input left s).2 = .ok (answer agent task context input) := by
  obtain ⟨hanswer, hview⟩ := hp.answered s.world agent task context input
  have hattempt : p.attempt agent task context input s =
      (⟨(p.invoke agent task context input s.world).1, now⟩,
        .ok (answer agent task context input)) := by
    simp only [Ports.attempt, hanswer, hs, Clock.wake_zero hnow]
    rfl
  -- an attempt that succeeds is the last, whatever is left of them
  have hask : p.ask delay agent task context input left s =
      p.attempt agent task context input s := by
    cases left with
    | zero => rfl
    | succ left => simp only [Ports.ask, hattempt]
  rw [hask, hattempt]
  exact ⟨hview, rfl, rfl⟩

/-- Both save alike: a write succeeds or fails whatever it writes. -/
theorem file (hp : p.Apart apart view answer brief) (hnow : now < Clock.horizon)
    (hs : Abreast view now s s') {room : String} {record record' : List UInt8}
    (hrecord : room ≠ apart → record = record') :
    Abreast view now (p.file room record s) (p.file room record' s') := by
  have hwake := Clock.wake_zero hnow
  obtain ⟨hresult, hview⟩ := hp.appended s.world s'.world room record record' hs.world hrecord
  obtain ⟨hopened, hview'⟩ := hp.reconnected _ _ hview
  simp only [Ports.file, Ports.write, hs.left, hs.right, hwake, ← hresult]
  cases (p.appendRecord room record s.world).2 with
  | ok _ => exact ⟨hview, rfl, rfl⟩
  | error e =>
    dsimp only
    rw [← hopened]
    cases (p.reconnect (p.appendRecord room record s.world).1).2 with
    | error e' => exact ⟨hview', hwake, hwake⟩
    | ok _ =>
      obtain ⟨-, hview''⟩ := hp.appended _ _ room record record' hview' hrecord
      exact ⟨hview'', by simp only [hwake], by simp only [hwake]⟩

/-- Two scenes that are abreast file their exchanges alike. -/
theorem keep (hp : p.Apart apart view answer brief) (hnow : now < Clock.horizon)
    (hs : Abreast view now s s') {room : String} (key : RoomKey) {plaintext plaintext' : String}
    (hplaintext : room ≠ apart → plaintext = plaintext') :
    Abreast view now (p.keep room key plaintext s) (p.keep room key plaintext' s') := by
  obtain ⟨hsealed, hview⟩ := hp.sealed s.world s'.world key (Text.Utf8.encode plaintext)
    (Text.Utf8.encode plaintext') hs.world
  have hboth : Abreast view now ⟨(p.encrypt key (Text.Utf8.encode plaintext) s.world).1, s.now⟩
      ⟨(p.encrypt key (Text.Utf8.encode plaintext') s'.world).1, s'.now⟩ :=
    ⟨hview, hs.left, hs.right⟩
  refine hp.file hnow hboth fun hroom => ?_
  have hsame := hplaintext hroom
  subst hsame
  rw [hsealed rfl]

end Ports.Apart

namespace Hall

variable {W V : Type} {p : Ports W} {apart : String} {view : W → V}
  {answer : AgentSpec → TaskSpec → String → String → String}
  {brief : String → Except PipelineError String}

/-! ## The desks side by side -/

/-- Two desks that differ at most in texts that the cache holds, and in their
sessions and metrics, which no reply depends on. -/
structure Peers (d d' : Desk) : Prop where
  catalog : d.catalog = d'.catalog
  memory : d.memory = d'.memory
  retry : d.retry = d'.retry
  limiter : d.limiter = d'.limiter
  cache : d.cache.blank = d'.cache.blank

variable {d d' : Desk} {r : Request}

theorem Peers.counted (hd : Peers d d') (now : Nat) (r : Request) :
    Peers (d.counted now r) (d'.counted now r) :=
  ⟨hd.catalog, hd.memory, hd.retry, by simp only [Desk.counted, hd.limiter], hd.cache⟩

theorem Peers.checked (hd : Peers d d') (now : Nat) (r : Request) :
    Peers (d.checked now r) (d'.checked now r) := by
  refine ⟨hd.catalog, hd.memory, hd.retry, (hd.counted now r).limiter, ?_⟩
  simp only [Desk.checked, ResponseCache.dropExpired_blank, hd.cache]

theorem Peers.recordTurn (hd : Peers d d') (now : Nat) (r : Request) (text text' : String) :
    Peers (d.recordTurn now r text) (d'.recordTurn now r text') := by
  refine ⟨hd.catalog, hd.memory, hd.retry, hd.limiter, ?_⟩
  simp only [Desk.recordTurn, ResponseCache.set_blank, hd.cache]

/-- A text is live at both or at neither. -/
theorem Peers.live (hd : Peers d d') (now : Nat) (key : String) :
    (d.cache.live? now key).isSome = (d'.cache.live? now key).isSome := by
  have hleft := congrArg Option.isSome (d.cache.live?_blank now key)
  have hright := congrArg Option.isSome (d'.cache.live?_blank now key)
  rw [Option.isSome_map] at hleft hright
  rw [← hleft, ← hright, hd.cache]

/-- Two halls that are the same but for the room. -/
structure Beside (view : W → V) (h h' : Hall W) : Prop where
  desk : Peers h.desk h'.desk
  world : view h.world = view h'.world
  now : h.now = h'.now

/-- What two commands that got to the room key end in: the same refusal, or an
answer each, which differ in the room alone. -/
inductive Ended (apart : String) (r : Request) : Outcome → Outcome → Prop
  | refused (refusal : Refusal) : Ended apart r (.replied refusal.reply) (.replied refusal.reply)
  | answered (text text' : String) : (r.room ≠ apart → text = text') →
      Ended apart r (.replied ⟨text, .pipeline⟩) (.replied ⟨text', .pipeline⟩)

/-- A command whose window is there is answered from it, and files the answer. -/
theorem consult_answered (hp : p.Apart apart view answer brief) {now : Nat}
    (hnow : now < Clock.horizon) {s : Scene W} (hs : s.now = now) (d : Desk) (r : Request)
    (agent : AgentSpec) (task : TaskSpec) (key : RoomKey) (window : ConversationWindow) :
    ∃ metrics s₁, view s₁.world = view s.world ∧ s₁.now = now ∧
      consult p d r agent task key (s, window) =
        (let text := answer agent task window.text r.command.content
         let s₂ := p.keep r.room key (Memory.exchange r.command.content text) s₁
         (⟨{ d with metrics := metrics }.recordTurn s₂.now r text, s₂.world, s₂.now⟩,
           .replied ⟨text, .pipeline⟩)) := by
  obtain ⟨hview, hthen, htext⟩ := hp.ask hnow hs d.retry.delay agent task window.text
    r.command.content (d.retry.attempts - 1)
  simp only [consult]
  generalize p.ask d.retry.delay agent task window.text r.command.content
    (d.retry.attempts - 1) s = asked at hview hthen htext ⊢
  obtain ⟨s₁, result⟩ := asked
  obtain rfl := htext
  exact ⟨_, s₁, hview, hthen, rfl⟩

/-- **From the room key on** two commands do the same, but for the room. -/
theorem enter_beside (hp : p.Apart apart view answer brief) {now : Nat}
    (hnow : now < Clock.horizon) (hd : Peers d d') (agent : AgentSpec) (task : TaskSpec)
    {s s' : Scene W} (hs : Ports.Apart.Abreast view now s s')
    (found : Except StorageError (Option RoomKey)) :
    Beside view (enter p d r agent task (s, found)).1 (enter p d' r agent task (s', found)).1 ∧
      Ended apart r (enter p d r agent task (s, found)).2
        (enter p d' r agent task (s', found)).2 := by
  have hinstant : s.now = s'.now := hs.left.trans hs.right.symm
  rcases found with e | _ | key
  · exact ⟨⟨hd, hs.world, hinstant⟩, .refused (.registry e)⟩
  · exact ⟨⟨hd, hs.world, hinstant⟩, .refused .roomNotRegistered⟩
  · simp only [enter, ← hd.memory]
    obtain ⟨hloaded, hwindow⟩ := hp.fetchWindow hnow hs d.memory r.room key
    generalize p.fetchWindow d.memory r.room key s = loaded at hloaded hwindow ⊢
    generalize p.fetchWindow d.memory r.room key s' = loaded' at hloaded hwindow ⊢
    obtain ⟨s₂, window⟩ := loaded
    obtain ⟨s₂', window'⟩ := loaded'
    obtain ⟨metrics, s₃, hview, hthen, hleft⟩ := consult_answered hp hnow hloaded.left
      (opened d s.now r) r agent task key window
    obtain ⟨metrics', s₃', hview', hthen', hright⟩ := consult_answered hp hnow hloaded.right
      (opened d' s'.now r) r agent task key window'
    have hasked : Ports.Apart.Abreast view now s₃ s₃' :=
      ⟨hview.trans (hloaded.world.trans hview'.symm), hthen, hthen'⟩
    have hanswer : r.room ≠ apart → answer agent task window.text r.command.content =
        answer agent task window'.text r.command.content := fun hroom => by
      rw [show window = window' from hwindow hroom]
    -- outside of the room the exchanges are equal and so are their records; in
    -- the room the view does not see them
    have hkept := hp.keep hnow hasked key fun hroom =>
      congrArg (Memory.exchange r.command.content) (hanswer hroom)
    rw [hleft, hright]
    refine ⟨⟨?_, hkept.world, hkept.left.trans hkept.right.symm⟩, .answered _ _ hanswer⟩
    simp only [hkept.left, hkept.right]
    refine Peers.recordTurn ?_ now r _ _
    exact ⟨hd.catalog, hd.memory, hd.retry, hd.limiter, hd.cache⟩

/-! ## The runs side by side -/

/-- Two answers to the same request, which differ in the room alone. -/
def Alike (apart : String) (given given' : Given) : Prop :=
  given.request = given'.request ∧ (given.request.room ≠ apart → given.text = given'.text)

/-- What the same command ends in in two runs: the same, or an answer each in
the room itself, or what the cache repeats from there. -/
inductive Told (apart : String) (log log' : List Entry) (r : Request) : Outcome → Outcome → Prop
  | same (outcome : Outcome) : Told apart log log' r outcome outcome
  | inside (text text' : String) : r.room = apart →
      Told apart log log' r (.replied ⟨text, .pipeline⟩) (.replied ⟨text', .pipeline⟩)
  | repeated (q : Request) (ended ended' : Nat) (text text' : String) : q.room = apart →
      latest? (hasKey (Desk.cacheKey r)) log = some ⟨q, ended, text⟩ →
      latest? (hasKey (Desk.cacheKey r)) log' = some ⟨q, ended', text'⟩ →
      Told apart log log' r (.replied ⟨text, .cache⟩) (.replied ⟨text', .cache⟩)

theorem Ended.told {outcome outcome' : Outcome} (he : Ended apart r outcome outcome')
    (log log' : List Entry) : Told apart log log' r outcome outcome' := by
  cases he with
  | refused refusal => exact .same _
  | answered text text' hsame =>
    by_cases hroom : r.room = apart
    · exact .inside _ _ hroom
    · rw [hsame hroom]
      exact .same _

/-- Two runs so far. -/
structure Twins (apart : String) (view : W → V) (h h' : Hall W) (log log' : List Entry) :
    Prop where
  beside : Beside view h h'
  bounded : h.desk.limiter.Bounded
  latest : ∀ same, Option.Rel (Alike apart) (latest? same log) (latest? same log')

/-- The latest answers stay alike. -/
theorem Told.later {log log' : List Entry} {outcome outcome' : Outcome}
    (ht : Told apart log log' r outcome outcome') (asked asked' ended ended' : Nat)
    {same : Request → Bool} {found found' : Option Given}
    (hfound : Option.Rel (Alike apart) found found') :
    Option.Rel (Alike apart) (later same found (.command r asked ended outcome))
      (later same found' (.command r asked' ended' outcome')) := by
  cases ht with
  | same outcome =>
    rcases outcome with ⟨text, source⟩ | _ | _
    · cases source with
      | pipeline =>
        simp only [Hall.later]
        split
        · exact .some ⟨rfl, fun _ => rfl⟩
        · exact hfound
      | cache => exact hfound
      | rateLimited => exact hfound
      | rejected => exact hfound
      | failed => exact hfound
    · exact hfound
    · exact hfound
  | inside text text' hroom =>
    simp only [Hall.later]
    split
    · exact .some ⟨rfl, fun hne => absurd hroom hne⟩
    · exact hfound
  | repeated => exact hfound

variable {s : Settings} {catalog : Catalog} {h h' : Hall W} {log log' : List Entry}

/-- What is live at both comes from answers that are alike. -/
theorem Twins.told_of_live (ht : Twins apart view h h' log log') (hs : Sourced s catalog h log)
    (hs' : Sourced s catalog h' log') {text text' : String}
    (hlive : h.desk.cache.live? h.now (Desk.cacheKey r) = some text)
    (hlive' : h'.desk.cache.live? h'.now (Desk.cacheKey r) = some text') :
    Told apart log log' r (.replied ⟨text, .cache⟩) (.replied ⟨text', .cache⟩) := by
  obtain ⟨⟨q, ended, _⟩, hgiven, rfl, -⟩ := hs.of_live hlive
  obtain ⟨⟨q', ended', _⟩, hgiven', rfl, -⟩ := hs'.of_live hlive'
  have halike := ht.latest (hasKey (Desk.cacheKey r))
  rw [hgiven, hgiven'] at halike
  obtain ⟨rfl, htext⟩ : q = q' ∧ (q.room ≠ apart → _) := by
    cases halike with
    | some halike => exact halike
  by_cases hroom : q.room = apart
  · exact .repeated q ended ended' _ _ hroom hgiven hgiven'
  · rw [htext hroom]
    exact .same _

/-- **A command does the same in both runs**, but for the room. -/
theorem Twins.serve (hp : p.Apart apart view answer brief) (ht : Twins apart view h h' log log')
    (hs : Sourced s catalog h log) (hs' : Sourced s catalog h' log') (r : Request) :
    Beside view (h.serve p r).1 (h'.serve p r).1 ∧
      Told apart log log' r (h.serve p r).2 (h'.serve p r).2 := by
  have htold : ∀ text text', h.desk.cache.live? h.now (Desk.cacheKey r) = some text →
      h'.desk.cache.live? h'.now (Desk.cacheKey r) = some text' →
        Told apart log log' r (.replied ⟨text, .cache⟩) (.replied ⟨text', .cache⟩) :=
    fun _ _ => ht.told_of_live hs hs'
  obtain ⟨⟨hd, hview, hnow⟩, hbounded, -⟩ := ht
  rw [← hnow] at htold
  simp only [Hall.serve, start_eq, ← hnow, ← hd.limiter]
  cases hv : (h.desk.limiter.allow h.now r.user).1 with
  | overflow => exact ⟨⟨hd.counted h.now r, hview, rfl⟩, .same _⟩
  | denied => exact ⟨⟨hd.counted h.now r, hview, rfl⟩, .same _⟩
  | allowed =>
    have hinstant := hbounded.now_lt hv
    -- the caches agree on whether a text is live, if not on the text
    have hboth := hd.live h.now (Desk.cacheKey r)
    cases hlive : h.desk.cache.live? h.now (Desk.cacheKey r) with
    | some text =>
      cases hlive' : h'.desk.cache.live? h.now (Desk.cacheKey r) with
      | some text' =>
        exact ⟨⟨hd.counted h.now r, hview, rfl⟩, htold text text' hlive hlive'⟩
      | none => simp [hlive, hlive'] at hboth
    | none =>
      cases hlive' : h'.desk.cache.live? h.now (Desk.cacheKey r) with
      | some text' => simp [hlive, hlive'] at hboth
      | none =>
        have hchecked := hd.checked h.now r
        have hsame : Stage.ofCatalog h'.desk r.command = Stage.ofCatalog h.desk r.command := by
          simp only [Stage.ofCatalog, hd.catalog]
        have hlisted := Stage.ofCatalog_listed h.desk r.command
        simp only [hsame]
        generalize Stage.ofCatalog h.desk r.command = stage at hlisted ⊢
        cases hlisted with
        | noAgent => exact ⟨⟨hchecked, hview, rfl⟩, .same _⟩
        | noTask => exact ⟨⟨hchecked, hview, rfl⟩, .same _⟩
        | @known agent task =>
          have hboth : Ports.Apart.Abreast view h.now ⟨h.world, h.now⟩ ⟨h'.world, h.now⟩ :=
            ⟨hview, rfl, rfl⟩
          obtain ⟨hfetched, hfound⟩ := hp.fetchKey hinstant hboth r.room
          generalize p.fetchKey r.room ⟨h.world, h.now⟩ = fetched at hfetched hfound ⊢
          generalize p.fetchKey r.room ⟨h'.world, h.now⟩ = fetched' at hfetched hfound ⊢
          obtain ⟨s₁, found⟩ := fetched
          obtain ⟨s₁', found'⟩ := fetched'
          obtain rfl : found = found' := hfound
          obtain ⟨hbeside, hended⟩ :=
            enter_beside hp hinstant hchecked agent task hfetched found
          exact ⟨hbeside, hended.told log log'⟩

/-- **An act does the same in both runs**, but for the room. -/
theorem Twins.perform (hp : p.Apart apart view answer brief)
    (ht : Twins apart view h h' log log') (hs : Sourced s catalog h log)
    (hs' : Sourced s catalog h' log') (a : Act) :
    Twins apart view (h.perform p a).1 (h'.perform p a).1 (log ++ [(h.perform p a).2])
      (log' ++ [(h'.perform p a).2]) := by
  cases a with
  | command r =>
    obtain ⟨hbeside, htold⟩ := ht.serve hp hs hs' r
    rw [← command_eq_serve, ← command_eq_serve] at hbeside htold
    refine ⟨hbeside, ?_, fun same => ?_⟩
    · simp only [Hall.perform, (command_course_none p h r).limiter]
      exact ht.bounded.allow h.now r.user
    · rw [latest?_concat, latest?_concat]
      exact htold.later _ _ _ _ (ht.latest same)
  | forget room =>
    refine ⟨⟨ht.beside.desk, hp.deleted _ _ room ht.beside.world, ht.beside.now⟩, ht.bounded, ?_⟩
    intro same
    rw [latest?_concat, latest?_concat]
    exact ht.latest same
  | wait ms =>
    refine ⟨⟨ht.beside.desk, ht.beside.world, ?_⟩, ht.bounded, fun same => ?_⟩
    · simp only [Hall.perform, advance, ht.beside.now]
    · rw [latest?_concat, latest?_concat]
      exact ht.latest same

/-- Whole runs over worlds that look alike end in twins. -/
theorem twins_play (hp : p.Apart apart view answer brief) (s : Settings) (catalog : Catalog)
    {w w' : W} (hw : view w = view w') (now : Nat) (acts : List Act) :
    Twins apart view (play p ⟨.ofSettings s catalog, w, now⟩ acts).1
      (play p ⟨.ofSettings s catalog, w', now⟩ acts).1
      (play p ⟨.ofSettings s catalog, w, now⟩ acts).2
      (play p ⟨.ofSettings s catalog, w', now⟩ acts).2 := by
  induction acts using List.reverseRecOn with
  | nil =>
    refine ⟨⟨⟨rfl, rfl, rfl, rfl, rfl⟩, hw, rfl⟩, RateLimiter.empty_bounded _ _, fun _ => .none⟩
  | append_singleton acts a ih =>
    rw [play_concat, play_concat]
    exact ih.perform hp (sourced_play p s catalog w now acts) (sourced_play p s catalog w' now acts) a

/-- **A room's history stays in the room**, but for its answers in the cache.
Take two worlds that differ in the records of one room and play the same acts
from both. A command in another room ends in the same outcome in both runs, or
in both the cache repeats the answer to the latest answered request with its
key, and that request was made in the room. -/
theorem confined (hp : p.Apart apart view answer brief) {w w' : W} (hw : view w = view w')
    (s : Settings) (catalog : Catalog) (now : Nat) (acts : List Act) {r : Request}
    (hroom : r.room ≠ apart) :
    let played := play p ⟨.ofSettings s catalog, w, now⟩ acts
    let played' := play p ⟨.ofSettings s catalog, w', now⟩ acts
    (played.1.command p r none).2 = (played'.1.command p r none).2 ∨
      ∃ given given' : Given,
        (played.1.command p r none).2 = .replied ⟨given.text, .cache⟩ ∧
        (played'.1.command p r none).2 = .replied ⟨given'.text, .cache⟩ ∧
        latest? (hasKey (Desk.cacheKey r)) played.2 = some given ∧
        latest? (hasKey (Desk.cacheKey r)) played'.2 = some given' ∧
        given'.request = given.request ∧ given.request.room = apart := by
  intro played played'
  have htwins : Twins apart view played.1 played'.1 played.2 played'.2 :=
    twins_play hp s catalog hw now acts
  have htold := (htwins.serve hp (sourced_play p s catalog w now acts)
    (sourced_play p s catalog w' now acts) r).2
  rw [command_eq_serve, command_eq_serve]
  generalize (played.1.serve p r).2 = outcome at htold ⊢
  generalize (played'.1.serve p r).2 = outcome' at htold ⊢
  cases htold with
  | same => exact .inl rfl
  | inside text text' hinside => exact absurd hinside hroom
  | repeated q ended ended' text text' hinside hgiven hgiven' =>
    exact .inr ⟨_, _, rfl, rfl, hgiven, hgiven', rfl, hinside⟩

end Hall

/-! ## A pipeline that repeats its context -/

namespace Rehearsal

/-- Rehearsed ports whose pipeline answers with its context, and whose summary
of a history is the history. -/
def echo : Ports Rehearsal :=
  { ports false with
    summarize := fun history w => (w, 0, .ok history)
    invoke := fun _ _ context _ w => (w, 0, .ok (.answer context)) }

/-- What a rehearsed world holds outside of a room. -/
def outside (apart : String) (w : Rehearsal) :
    Table String RoomKey × Failures × (String → List (List UInt8)) :=
  (w.keys, w.failures, fun room => if room = apart then [] else w.recordsOf room)

theorem outside_eq {apart : String} {w w' : Rehearsal} :
    outside apart w = outside apart w' ↔ w.keys = w'.keys ∧ w.failures = w'.failures ∧
      ∀ room, room ≠ apart → w.recordsOf room = w'.recordsOf room := by
  simp only [outside, Prod.mk.injEq, funext_iff]
  refine and_congr_right fun _ => and_congr_right fun _ => forall_congr' fun room => ?_
  by_cases hroom : room = apart
  · simp [hroom]
  · simp [hroom]

theorem outside_push {apart : String} {w w' : Rehearsal} (hw : outside apart w = outside apart w')
    {room : String} {record record' : List UInt8} (hrecord : room ≠ apart → record = record') :
    outside apart (w.push room record) = outside apart (w'.push room record') := by
  obtain ⟨hkeys, hfail, hrecords⟩ := outside_eq.1 hw
  refine outside_eq.2 ⟨hkeys, hfail, fun q hq => ?_⟩
  simp only [recordsOf_push, shelve]
  split
  · rename_i hroom
    rw [hrecords q hq, hrecord (hroom ▸ hq)]
  · exact hrecords q hq

/-- Under them every room is apart. -/
theorem echo_apart (apart : String) :
    echo.Apart apart (outside apart) (fun _ _ context _ => context) (fun history => .ok history) where
  keyed w w' room hw := by
    obtain ⟨hkeys, hfail, -⟩ := outside_eq.1 hw
    exact ⟨by simp only [echo, ports, lookupKey, hkeys, hfail], hw⟩
  listed w w' room limit hw := by
    obtain ⟨-, hfail, hrecords⟩ := outside_eq.1 hw
    exact ⟨fun hroom => by simp only [echo, ports, listRecords, hfail, hrecords room hroom], hw⟩
  appended w w' room record record' hw hrecord := by
    obtain ⟨hkeys, hfail, hrecords⟩ := outside_eq.1 hw
    simp only [echo, ports, appendRecord, ← hfail]
    split
    · exact ⟨rfl, outside_eq.2 ⟨hkeys, rfl, hrecords⟩⟩
    · refine ⟨rfl, outside_push ?_ hrecord⟩
      exact outside_eq.2 ⟨hkeys, rfl, hrecords⟩
    · refine ⟨rfl, outside_push ?_ hrecord⟩
      exact outside_eq.2 ⟨hkeys, rfl, hrecords⟩
  deleted w w' room hw := by
    obtain ⟨hkeys, hfail, hrecords⟩ := outside_eq.1 hw
    simp only [echo, ports, deleteRecords, ← hfail]
    split
    · exact hw
    · refine outside_eq.2 ⟨hkeys, rfl, fun q hq => ?_⟩
      have hsame := hrecords q hq
      simp only [recordsOf, Table.get?_erase] at hsame ⊢
      split
      · rfl
      · exact hsame
  reconnected w w' hw := by
    obtain ⟨-, hfail, -⟩ := outside_eq.1 hw
    exact ⟨by simp only [echo, ports, reconnect, hfail], hw⟩
  sealed w w' key plaintext plaintext' hw := by
    obtain ⟨-, hfail, -⟩ := outside_eq.1 hw
    simp only [echo, ports, encrypt, hfail]
    split
    · exact ⟨fun _ => rfl, hw⟩
    · exact ⟨fun h => by rw [h]; rfl, hw⟩
  summarized w history := ⟨rfl, rfl⟩
  answered w agent task context input := ⟨rfl, rfl⟩

/-- Two rooms, in one of which something has been said. -/
def confided : Rehearsal :=
  twoRooms.push "lobby" (markedEncrypt (.uniform 7) (Text.Utf8.encode "secret"))

/-- It differs from the empty one in that room alone. -/
theorem outside_confided : outside "lobby" confided = outside "lobby" twoRooms := by
  refine outside_eq.2 ⟨rfl, rfl, fun room hroom => ?_⟩
  rw [confided, recordsOf_push, shelve, if_neg hroom]

end Rehearsal

namespace Hall

/-- **What is said in one room shows in another** through the cache: two worlds
that differ in the history of the lobby alone give different replies in the
attic. -/
theorem told_elsewhere :
    Rehearsal.echo.Apart "lobby" (Rehearsal.outside "lobby") (fun _ _ context _ => context)
        (fun history => .ok history) ∧
      Rehearsal.outside "lobby" .confided = Rehearsal.outside "lobby" .twoRooms ∧
      ((play Rehearsal.echo (small .confided) [.command (.poem "lobby" "rain")]).1.command
          Rehearsal.echo (.poem "attic" "rain") none).2 = .replied ⟨"secret", .cache⟩ ∧
      ((play Rehearsal.echo (small .twoRooms) [.command (.poem "lobby" "rain")]).1.command
          Rehearsal.echo (.poem "attic" "rain") none).2 = .replied ⟨"", .cache⟩ := by
  refine ⟨Rehearsal.echo_apart "lobby", Rehearsal.outside_confided, ?_, ?_⟩
  · decide +kernel
  · decide +kernel

/-- By the law the two worlds give one answer, or each one that it was given in the
lobby. -/
theorem confined_to_lobby :
    let played := play Rehearsal.echo (small .confided) [.command (.poem "lobby" "rain")]
    let played' := play Rehearsal.echo (small .twoRooms) [.command (.poem "lobby" "rain")]
    (played.1.command Rehearsal.echo (.poem "attic" "snow") none).2 =
        (played'.1.command Rehearsal.echo (.poem "attic" "snow") none).2 ∨
      ∃ given given' : Given,
        (played.1.command Rehearsal.echo (.poem "attic" "snow") none).2 =
          .replied ⟨given.text, .cache⟩ ∧
        (played'.1.command Rehearsal.echo (.poem "attic" "snow") none).2 =
          .replied ⟨given'.text, .cache⟩ ∧
        latest? (hasKey (Desk.cacheKey (.poem "attic" "snow"))) played.2 = some given ∧
        latest? (hasKey (Desk.cacheKey (.poem "attic" "snow"))) played'.2 = some given' ∧
        given'.request = given.request ∧ given.request.room = "lobby" := by
  exact confined (Rehearsal.echo_apart "lobby") Rehearsal.outside_confided {} .small 0
    [.command (.poem "lobby" "rain")] (show (Request.poem "attic" "snow").room ≠ "lobby" by decide)

end Hall

end Colloquy
