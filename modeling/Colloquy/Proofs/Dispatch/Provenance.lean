import Colloquy.Proofs.Dispatch.Play
import Mathlib.Data.List.Induction
/-!
# Where cached replies come from

What the cache holds under a key is the latest answer of the pipeline to a
request with that key (`Sourced`), and a reply from the cache is younger than
`ttl`. The key of a request is a digest of its agent, task and content with
colons between them, and each of the three may hold colons itself. So a cached
reply is the answer to a command with the same text (`cached_backed`), and the
answer to the same command exactly when commands are told apart by that text
(`faithful_iff`).
-/

namespace Colloquy

/-- An answer of the pipeline as a log has it. -/
structure Given where
  request : Request
  ended : Nat
  text : String

namespace Hall

/-- The latest answer to one of some requests, with one more entry. -/
def later (same : Request → Bool) (found : Option Given) : Entry → Option Given
  | .command r _ ended (.replied ⟨text, .pipeline⟩) =>
    if same r then some ⟨r, ended, text⟩ else found
  | _ => found

/-- **The latest answer of the pipeline** to one of some requests. -/
def latest? (same : Request → Bool) (log : List Entry) : Option Given :=
  log.foldl (later same) none

theorem latest?_concat (same : Request → Bool) (log : List Entry) (e : Entry) :
    latest? same (log ++ [e]) = later same (latest? same log) e := by
  simp only [latest?, List.foldl_append, List.foldl_cons, List.foldl_nil]

/-- What the latest answer is to is one of the requests. -/
theorem same_of_latest? {same : Request → Bool} {given : Given} (log : List Entry) :
    latest? same log = some given → same given.request = true := by
  induction log using List.reverseRecOn with
  | nil => intro h; cases h
  | append_singleton log e ih =>
    intro h
    rw [latest?_concat] at h
    unfold later at h
    split at h
    · split at h
      · cases h; assumption
      · exact ih h
    · exact ih h

/-- The latest answer is an answer of the log. -/
theorem mem_of_latest? {same : Request → Bool} {given : Given} (log : List Entry) :
    latest? same log = some given →
      ∃ asked, .command given.request asked given.ended (.replied ⟨given.text, .pipeline⟩) ∈ log := by
  induction log using List.reverseRecOn with
  | nil => intro h; cases h
  | append_singleton log e ih =>
    intro h
    have hbefore : latest? same log = some given →
        ∃ asked, .command given.request asked given.ended (.replied ⟨given.text, .pipeline⟩) ∈
          log ++ [e] := fun hlog => by
      obtain ⟨asked, hmem⟩ := ih hlog
      exact ⟨asked, List.mem_append_left _ hmem⟩
    rw [latest?_concat] at h
    unfold later at h
    split at h
    · split at h
      · cases h
        exact ⟨_, List.mem_append_right _ (.head _)⟩
      · exact hbefore h
    · exact hbefore h

/-- Requests that the log does not tell apart have the same latest answer. -/
theorem latest?_congr {same same' : Request → Bool} (log : List Entry)
    (h : ∀ r asked ended outcome, .command r asked ended outcome ∈ log → same r = same' r) :
    latest? same log = latest? same' log := by
  induction log using List.reverseRecOn with
  | nil => rfl
  | append_singleton log e ih =>
    have hlog := ih fun r asked ended outcome hr =>
      h r asked ended outcome (List.mem_append_left _ hr)
    rw [latest?_concat, latest?_concat, hlog]
    unfold later
    split
    · rw [h _ _ _ _ (List.mem_append_right _ (.head _))]
    · rfl

variable {W : Type} {p : Ports W} {s : Settings} {catalog : Catalog}

/-- Whether a request has a key. -/
def hasKey (key : String) (r : Request) : Bool := Desk.cacheKey r = key

/-- **Entries are answers**: what the cache holds under a key is the latest
answer to a request with that key, and the tasks of answered requests are
known. -/
structure Sourced (s : Settings) (catalog : Catalog) (h : Hall W) (log : List Entry) : Prop where
  ttl : h.desk.cache.ttl = s.cacheTtl
  kept : ∀ key e, h.desk.cache.entries.get? key = some e →
    ∃ r, latest? (hasKey key) log = some ⟨r, e.createdAt, e.response⟩
  emptyAtZero : h.desk.cache.EmptyAtZero
  known : ∀ same given, latest? same log = some given →
    (catalog.task? given.request.command.task).isSome

/-- A hall whose cache holds nothing new, behind an entry that gives nothing. -/
theorem Sourced.quiet {h h' : Hall W} {log : List Entry} (hh : Sourced s catalog h log)
    {e : Entry} (hcache : h'.desk.cache.Within h.desk.cache)
    (he : ∀ same found, later same found e = found) :
    Sourced s catalog h' (log ++ [e]) := by
  have hlog : ∀ same, latest? same (log ++ [e]) = latest? same log := fun same => by
    rw [latest?_concat, he]
  refine ⟨hcache.ttl.trans hh.ttl, fun key entry hentry => ?_,
    hcache.emptyAtZero hh.emptyAtZero,
    fun same given hgiven => hh.known same given ((hlog same).symm.trans hgiven)⟩
  rw [hlog]
  exact hh.kept key entry (hcache.held key entry hentry)

/-- **A command keeps the law**: of its courses the answer of the pipeline alone
writes to the cache, and what it writes is the latest answer. -/
theorem Sourced.course {h : Hall W} {log : List Entry} (hh : Sourced s catalog h log)
    (hcatalog : h.desk.catalog = catalog) {r : Request} {out : Hall W × Outcome}
    (hc : Course p h r out) :
    Sourced s catalog out.1 (log ++ [.command r h.now out.1.now out.2]) := by
  cases hc with
  | overflow => exact hh.quiet (.refl _) fun _ _ => rfl
  | limited => exact hh.quiet (.refl _) fun _ _ => rfl
  | cached => exact hh.quiet (.refl _) fun _ _ => rfl
  | unknown _ _ hwhy =>
    rcases hwhy with ⟨-, rfl⟩ | ⟨-, -, rfl⟩
    · exact hh.quiet (h.desk.cache.dropExpired_within _ _) fun _ _ => rfl
    · exact hh.quiet (h.desk.cache.dropExpired_within _ _) fun _ _ => rfl
  | registryFailed => exact hh.quiet (h.desk.cache.dropExpired_within _ _) fun _ _ => rfl
  | unregistered => exact hh.quiet (h.desk.cache.dropExpired_within _ _) fun _ _ => rfl
  | failed => exact hh.quiet (h.desk.cache.dropExpired_within _ _) fun _ _ => rfl
  | @answered agent task key s₁ s₂ s₃ s₄ window text hin =>
    have hdrop := h.desk.cache.dropExpired_within h.now (Desk.cacheKey r)
    have hempty := hdrop.emptyAtZero hh.emptyAtZero
    have hlater : ∀ same,
        latest? same (log ++ [.command r h.now s₄.now (.replied ⟨text, .pipeline⟩)]) =
          if same r then some ⟨r, s₄.now, text⟩ else latest? same log := fun same => by
      rw [latest?_concat]
      rfl
    -- eviction may take entries away but puts none there: what is found is new
    -- or was there before
    refine ⟨?_, fun other entry hentry => ?_, hempty.set _ _ _, fun same given hgiven => ?_⟩
    · exact (ResponseCache.set_ttl _ _ _ _).trans (hdrop.ttl.trans hh.ttl)
    · rw [hlater]
      rcases ResponseCache.get?_of_set hempty hentry with ⟨hkey, rfl⟩ | ⟨hkey, hold⟩
      · exact ⟨r, if_pos (by simpa [hasKey] using hkey)⟩
      · rw [if_neg (by simpa [hasKey] using hkey)]
        exact hh.kept other entry (hdrop.held other entry hold)
    · rw [hlater] at hgiven
      split at hgiven
      · cases hgiven
        rw [← hcatalog, hin.knownTask]
        rfl
      · exact hh.known same given hgiven

/-- **Every act keeps the law.** -/
theorem Sourced.perform {h : Hall W} {log : List Entry} (hh : Sourced s catalog h log)
    (hcatalog : h.desk.catalog = catalog) (a : Act) :
    Sourced s catalog (h.perform p a).1 (log ++ [(h.perform p a).2]) := by
  cases a with
  | command r => exact hh.course hcatalog (command_course_none p h r)
  | forget room => exact hh.quiet (.refl _) fun _ _ => rfl
  | wait ms => exact hh.quiet (.refl _) fun _ _ => rfl

/-- A live text is that of the latest answer to a request with its key, and not
too old. -/
theorem Sourced.of_live {h : Hall W} {log : List Entry} (hh : Sourced s catalog h log)
    {key text : String} (hlive : h.desk.cache.live? h.now key = some text) :
    ∃ given, latest? (hasKey key) log = some given ∧ given.text = text ∧
      h.now < given.ended + s.cacheTtl := by
  obtain ⟨e, hentry, htext, hage⟩ := h.desk.cache.exists_entry_of_live? hlive
  obtain ⟨q, hq⟩ := hh.kept key e hentry
  refine ⟨_, hq, htext, ?_⟩
  have httl := hh.ttl
  simp only
  omega

/-- A reply from the cache is a live text. -/
theorem live_of_cached {h : Hall W} {r : Request} {text : String}
    (hr : (h.command p r none).2 = .replied ⟨text, .cache⟩) :
    h.desk.cache.live? h.now (Desk.cacheKey r) = some text := by
  have hc := command_course hr
  generalize h.command p r none = out at hc hr
  cases hc with
  | cached _ hlive => cases hr; exact hlive
  | unknown _ _ hwhy => rcases hwhy with ⟨-, rfl⟩ | ⟨-, -, rfl⟩ <;> cases hr
  | overflow => cases hr
  | limited => cases hr
  | registryFailed => cases hr
  | unregistered => cases hr
  | failed => cases hr
  | answered => cases hr

/-! ## Replies are answers -/

/-- A cached text that is right by what counts as the same request: it is the
latest answer to one of these, given less than `ttl` ago, to a task that is
known. -/
def Backed (s : Settings) (catalog : Catalog) (same : Request → Bool) (log : List Entry)
    (now : Nat) (text : String) : Prop :=
  ∃ given, latest? same log = some given ∧ given.text = text ∧
    now < given.ended + s.cacheTtl ∧ (catalog.task? given.request.command.task).isSome

/-- A cached text is right for requests that the log tells apart as their keys do. -/
theorem Sourced.backed {h : Hall W} {log : List Entry} (hh : Sourced s catalog h log)
    {r : Request} {text : String} (hr : (h.command p r none).2 = .replied ⟨text, .cache⟩)
    {same : Request → Bool}
    (hsame : ∀ q asked ended outcome, .command q asked ended outcome ∈ log →
      (same q = true ↔ Desk.cacheKey q = Desk.cacheKey r)) :
    Backed s catalog same log h.now text := by
  obtain ⟨given, hgiven, htext, hage⟩ := hh.of_live (live_of_cached hr)
  have hlatest : latest? same log = latest? (hasKey (Desk.cacheKey r)) log := by
    refine latest?_congr log fun q asked ended outcome hq => ?_
    rw [Bool.eq_iff_iff, hsame q asked ended outcome hq, hasKey, decide_eq_true_eq]
  exact ⟨given, hlatest.trans hgiven, htext, hage, hh.known _ given hgiven⟩

/-- The text whose digest is the key of a command. -/
def keyText (c : ChatCommand) : String := ResponseCache.keyText c.agent c.task c.content

/-- Requests whose commands have one key text. -/
def sameText (r q : Request) : Bool := keyText q.command = keyText r.command

/-- Requests for one command. -/
def sameCommand (r q : Request) : Bool := q.command = r.command

/-- A log has only commands that were acts. -/
theorem act_of_logged (h : Hall W) (acts : List Act) :
    ∀ r asked ended outcome, .command r asked ended outcome ∈ (play p h acts).2 →
      .command r ∈ acts := by
  refine play_keeps (I := fun _ log => ∀ r asked ended outcome,
    .command r asked ended outcome ∈ log → .command r ∈ acts) (fun _ _ _ _ hr => by cases hr) ?_
  intro h log a ha hlog r asked ended outcome hr
  rcases List.mem_append.1 hr with hr | hr
  · exact hlog r asked ended outcome hr
  · cases a with
    | command q =>
      rw [List.mem_singleton] at hr
      cases hr
      exact ha
    | forget room => simp [perform] at hr
    | wait ms => simp [perform] at hr

/-- Every run is sourced. -/
theorem sourced_play (p : Ports W) (s : Settings) (catalog : Catalog) (w : W) (now : Nat)
    (acts : List Act) :
    Sourced s catalog (play p ⟨.ofSettings s catalog, w, now⟩ acts).1
      (play p ⟨.ofSettings s catalog, w, now⟩ acts).2 := by
  have hstart : Sourced s catalog (⟨.ofSettings s catalog, w, now⟩ : Hall W) [] := by
    refine ⟨rfl, fun key e hentry => ?_, fun _ _ => rfl, fun same given hgiven => ?_⟩
    · cases hentry
    · cases hgiven
  have hstep : ∀ h log, ∀ a ∈ acts, Reachable p s catalog h ∧ Sourced s catalog h log →
      Reachable p s catalog (perform p h a).1 ∧
        Sourced s catalog (perform p h a).1 (log ++ [(perform p h a).2]) :=
    fun h log a _ hh => ⟨hh.1.perform a, hh.2.perform hh.1.rules.1 a⟩
  exact (play_keeps ⟨.start w now, hstart⟩ hstep).2

/-- The law for one run: where the digest of the request's key text is no
other's, texts tell requests apart as keys do. -/
theorem backed_of_text {s : Settings} {catalog : Catalog} {w : W} {now : Nat} {acts : List Act}
    {r : Request} {text : String}
    (hdigest : ∀ q, .command q ∈ acts →
      Sha256.hexDigest (keyText q.command) = Sha256.hexDigest (keyText r.command) →
        keyText q.command = keyText r.command)
    (hr : ((play p ⟨.ofSettings s catalog, w, now⟩ acts).1.command p r none).2 =
      .replied ⟨text, .cache⟩)
    {same : Request → Bool}
    (hsame : ∀ q, .command q ∈ acts →
      (same q = true ↔ keyText q.command = keyText r.command)) :
    Backed s catalog same (play p ⟨.ofSettings s catalog, w, now⟩ acts).2
      (play p ⟨.ofSettings s catalog, w, now⟩ acts).1.now text := by
  refine (sourced_play p s catalog w now acts).backed hr fun q asked ended outcome hq => ?_
  have hact := act_of_logged _ acts q asked ended outcome hq
  rw [hsame q hact]
  exact ⟨congrArg Sha256.hexDigest, hdigest q hact⟩

/-- **A reply from the cache is an answer** less than `ttl` old, to the latest
answered request with the same key text, whose task is known. Where no other
command of the run has that text it is the latest answer to the same command,
and the command's own task is known. -/
theorem cached_backed {s : Settings} {catalog : Catalog} {w : W} {now : Nat} {acts : List Act}
    {r : Request} {text : String}
    (hdigest : ∀ q, .command q ∈ acts →
      Sha256.hexDigest (keyText q.command) = Sha256.hexDigest (keyText r.command) →
        keyText q.command = keyText r.command)
    (hr : ((play p ⟨.ofSettings s catalog, w, now⟩ acts).1.command p r none).2 =
      .replied ⟨text, .cache⟩) :
    Backed s catalog (sameText r) (play p ⟨.ofSettings s catalog, w, now⟩ acts).2
        (play p ⟨.ofSettings s catalog, w, now⟩ acts).1.now text ∧
      ((∀ q, .command q ∈ acts → keyText q.command = keyText r.command → q.command = r.command) →
        Backed s catalog (sameCommand r) (play p ⟨.ofSettings s catalog, w, now⟩ acts).2
            (play p ⟨.ofSettings s catalog, w, now⟩ acts).1.now text ∧
          (catalog.task? r.command.task).isSome) := by
  refine ⟨backed_of_text hdigest hr fun q _ => decide_eq_true_iff, fun halone => ?_⟩
  have hsame : ∀ q, .command q ∈ acts →
      (sameCommand r q = true ↔ keyText q.command = keyText r.command) := fun q hq => by
    rw [sameCommand, decide_eq_true_iff]
    exact ⟨congrArg keyText, halone q hq⟩
  have hbacked := backed_of_text hdigest hr hsame
  refine ⟨hbacked, ?_⟩
  obtain ⟨given, hgiven, -, -, hknown⟩ := hbacked
  have hcommand := same_of_latest? _ hgiven
  rw [sameCommand, decide_eq_true_iff] at hcommand
  rwa [hcommand] at hknown

/-! ## Commands with one key text -/

/-- A hall that knows the agent and the task of one command. -/
def knowing (c : ChatCommand) : Hall Rehearsal :=
  ⟨.ofSettings {} ⟨[(c.agent, .writer)], [(c.task, .poem)]⟩, .twoRooms, 0⟩

/-- Alice's request for a command in the lobby. -/
def asking (c : ChatCommand) : Request := ⟨"alice", "lobby", c⟩

theorem letIn_knowing (c : ChatCommand) : LetIn (knowing c) (asking c) .writer .poem where
  allowed := show ((RateLimiter.empty 60000 5).allow 0 "alice").1 = .allowed by decide
  missed := ResponseCache.live?_empty _ _ _ _
  knownAgent := if_pos rfl
  knownTask := if_pos rfl

/-- What a command that is answered leaves to the next one. -/
theorem desk_of_answered {h : Hall W} {r : Request} {text : String}
    (hr : (h.command p r none).2 = .replied ⟨text, .pipeline⟩) :
    (h.command p r none).1.desk.limiter = (h.desk.limiter.allow h.now r.user).2 ∧
      (h.command p r none).1.desk.cache =
        (h.desk.cache.dropExpired h.now (Desk.cacheKey r)).set (h.command p r none).1.now
          (Desk.cacheKey r) text := by
  obtain ⟨agent, task, key, s₁, s₂, s₃, s₄, window, -, -, -, -, -, hout⟩ :=
    (command_course hr).of_pipeline hr
  rw [hout]
  exact ⟨rfl, rfl⟩

/-- **An answer is repeated** to the next request with its key, if the limiter
allows it. -/
theorem cached_of_answered {h : Hall W} {r : Request} (r' : Request) {text : String}
    (hr : (h.command p r none).2 = .replied ⟨text, .pipeline⟩)
    (hallowed : ((h.desk.limiter.allow h.now r.user).2.allow (h.command p r none).1.now
      r'.user).1 = .allowed)
    (hkey : Desk.cacheKey r' = Desk.cacheKey r) (hsize : h.desk.cache.maxSize ≠ 0)
    (httl : 0 < h.desk.cache.ttl) :
    ((h.command p r none).1.command p r' none).2 = .replied ⟨text, .cache⟩ := by
  obtain ⟨hlimiter, hcache⟩ := desk_of_answered hr
  generalize (h.command p r none).1 = h' at *
  have hdrop := h.desk.cache.dropExpired_within h.now (Desk.cacheKey r)
  have hlive : h'.desk.cache.live? h'.now (Desk.cacheKey r') = some text := by
    rw [hkey, hcache]
    refine ResponseCache.live?_set_self ?_ ?_ _ _ _
    · rw [hdrop.maxSize]
      exact hsize
    · rw [hdrop.ttl]
      exact httl
  rw [← hlimiter] at hallowed
  rw [command_eq_serve, serve_of_live hallowed hlive]

/-- The first command of such a hall is answered at once. -/
theorem first_answer (c : ChatCommand) :
    ((knowing c).command (Rehearsal.ports false) (asking c) none).2 =
        .replied ⟨"writer" ++ ": " ++ c.content, .pipeline⟩ ∧
      ((knowing c).command (Rehearsal.ports false) (asking c) none).1.now = 0 := by
  rw [command_eq_serve, serve_of_letIn (letIn_knowing c)]
  exact ⟨rfl, rfl⟩

/-- **Commands with one key text share their replies**: the second is answered
from the cache with the answer to the first, whatever agent and task it
names. -/
theorem cached_of_keyText_eq {c c' : ChatCommand} (hkey : keyText c = keyText c') :
    let played := play (Rehearsal.ports false) (knowing c) [.command (asking c)]
    played.2 = [.command (asking c) 0 0 (.replied ⟨"writer" ++ ": " ++ c.content, .pipeline⟩)] ∧
      (played.1.command (Rehearsal.ports false) (asking c') none).2 =
        .replied ⟨"writer" ++ ": " ++ c.content, .cache⟩ := by
  obtain ⟨hreply, hnow⟩ := first_answer c
  have hallowed : ((((knowing c).desk.limiter.allow (knowing c).now "alice").2).allow
      ((knowing c).command (Rehearsal.ports false) (asking c) none).1.now "alice").1 =
        .allowed := by
    rw [hnow]
    show (((RateLimiter.empty 60000 5).allow 0 "alice").2.allow 0 "alice").1 = .allowed
    decide
  have hcached := cached_of_answered (asking c') hreply hallowed
    (congrArg Sha256.hexDigest hkey.symm) (show (100 : Nat) ≠ 0 by decide)
    (show (0 : Nat) < 3600000 by decide)
  simp only [play_command, hreply, hnow]
  exact ⟨rfl, hcached⟩

/-- The second of two equal commands is answered from the cache. -/
theorem cached_backed_again :
    Backed {} .small (sameCommand (asking ⟨"writer", "poem", "rain"⟩))
      (play (Rehearsal.ports false) (small .twoRooms)
        [.command (asking ⟨"writer", "poem", "rain"⟩)]).2
      (play (Rehearsal.ports false) (small .twoRooms)
        [.command (asking ⟨"writer", "poem", "rain"⟩)]).1.now "writer: rain" := by
  have hcached := (cached_of_keyText_eq (c := ⟨"writer", "poem", "rain"⟩) rfl).2
  have hone : ∀ q, .command q ∈ [Act.command (asking ⟨"writer", "poem", "rain"⟩)] →
      q = asking ⟨"writer", "poem", "rain"⟩ := fun q hq => by
    rwa [List.mem_singleton, Act.command.injEq] at hq
  exact ((cached_backed (fun q hq _ => by rw [hone q hq]) hcached).2
    fun q hq _ => by rw [hone q hq]).1

/-- A task that nobody knows, answered from the cache. -/
theorem cached_unknown_task :
    let played := play (Rehearsal.ports false) (small .twoRooms)
      [.command (asking ⟨"writer", "poem", "x:y"⟩)]
    let r := asking ⟨"writer", "poem:x", "y"⟩
    (played.1.command (Rehearsal.ports false) r none).2 = .replied ⟨"writer: x:y", .cache⟩ ∧
      ¬ (Backed {} .small (sameCommand r) played.2 played.1.now "writer: x:y" ∧
        (Catalog.small.task? r.command.task).isSome) := by
  have hkey : keyText ⟨"writer", "poem", "x:y"⟩ = keyText ⟨"writer", "poem:x", "y"⟩ := by decide
  refine ⟨(cached_of_keyText_eq hkey).2, fun hbacked => ?_⟩
  have hknown : (Catalog.small.task? "poem:x").isSome := hbacked.2
  exact absurd hknown (by decide)

/-! ## When the texts suffice -/

/-- Commands whose cached replies are right in every run of them, over
whatever ports, settings and catalog. -/
def Faithful (S : ChatCommand → Prop) : Prop :=
  ∀ (W : Type) (p : Ports W) (s : Settings) (catalog : Catalog) (w : W) (now : Nat)
    (acts : List Act) (r : Request) (text : String),
    (∀ q, .command q ∈ acts → S q.command) → S r.command →
    ((play p ⟨.ofSettings s catalog, w, now⟩ acts).1.command p r none).2 =
      .replied ⟨text, .cache⟩ →
    Backed s catalog (sameCommand r) (play p ⟨.ofSettings s catalog, w, now⟩ acts).2
      (play p ⟨.ofSettings s catalog, w, now⟩ acts).1.now text

/-- **Cached replies are right exactly when key texts tell commands apart**, for
commands on whose key texts the digest does not collide. -/
theorem faithful_iff {S : ChatCommand → Prop}
    (hdigest : ∀ c c', S c → S c' →
      Sha256.hexDigest (keyText c) = Sha256.hexDigest (keyText c') → keyText c = keyText c') :
    Faithful S ↔ ∀ c c', S c → S c' → keyText c = keyText c' → c = c' := by
  constructor
  · intro hfaithful c c' hc hc' hkey
    obtain ⟨hlog, hcached⟩ := cached_of_keyText_eq hkey
    have hacts : ∀ q, .command q ∈ [Act.command (asking c)] → S q.command := fun q hq => by
      rw [List.mem_singleton, Act.command.injEq] at hq
      rwa [hq]
    obtain ⟨given, hgiven, -⟩ := hfaithful Rehearsal (Rehearsal.ports false) {}
      ⟨[(c.agent, .writer)], [(c.task, .poem)]⟩ .twoRooms 0 [.command (asking c)] (asking c') _
      hacts hc' hcached
    -- the one answer of the log is to the first command
    change latest? _ (play (Rehearsal.ports false) (knowing c) [.command (asking c)]).2 = _ at hgiven
    rw [hlog] at hgiven
    by_contra hne
    have hother : ¬ sameCommand (asking c') (asking c) = true :=
      fun hsame => hne (of_decide_eq_true hsame)
    simp only [latest?, List.foldl_cons, List.foldl_nil, later, if_neg hother] at hgiven
    cases hgiven
  · intro hinjective W p s catalog w now acts r text hacts hr hcached
    refine backed_of_text (fun q hq => hdigest _ _ (hacts q hq) hr) hcached fun q hq => ?_
    rw [sameCommand, decide_eq_true_iff]
    exact ⟨congrArg keyText, hinjective _ _ (hacts q hq) hr⟩

end Hall

end Colloquy
