import Colloquy.Dispatch.Rehearsal
import Colloquy.Proofs.Dispatch.Course
/-!
# What a command uses of its ports

A port is used in one of eight ways (`PortUse`), and `Ports.after` is the
world behind a use. `Ports.noted` are the same ports over a world that also
lists its uses, so that `Hall.usesOf` is what a command has asked for, in
order. Noting is not noticed (`command_noted`), and the uses account for the
whole world: `world_eq_foldl_uses` gives the world behind a command as its
uses applied one after another.
-/

namespace Colloquy

/-- One use of the ports. -/
inductive PortUse where
  | lookupKey (room : String)
  | listRecords (room : String) (limit : Nat)
  | appendRecord (room : String) (record : List UInt8)
  | deleteRecords (room : String)
  | reconnect
  | encrypt (key : RoomKey) (plaintext : List UInt8)
  | summarize (history : String)
  | invoke (agent : AgentSpec) (task : TaskSpec) (context input : String)

/-- Whether a use is meant to change stored records. -/
def PortUse.isWrite : PortUse → Bool
  | .appendRecord _ _ => true
  | .deleteRecords _ => true
  | _ => false

namespace Ports

variable {W : Type} (p : Ports W)

/-- The world behind a use. -/
def after (w : W) : PortUse → W
  | .lookupKey room => (p.lookupKey room w).1
  | .listRecords room limit => (p.listRecords room limit w).1
  | .appendRecord room record => (p.appendRecord room record w).1
  | .deleteRecords room => (p.deleteRecords room w).1
  | .reconnect => (p.reconnect w).1
  | .encrypt key plaintext => (p.encrypt key plaintext w).1
  | .summarize history => (p.summarize history w).1
  | .invoke agent task context input => (p.invoke agent task context input w).1

/-- A world that lists its uses, with one more. -/
def note (w : W × List PortUse) (u : PortUse) : W × List PortUse := (p.after w.1 u, w.2 ++ [u])

/-- The ports over a world that lists its uses. -/
def noted : Ports (W × List PortUse) where
  lookupKey room w := (p.note w (.lookupKey room), (p.lookupKey room w.1).2)
  listRecords room limit w :=
    (p.note w (.listRecords room limit), (p.listRecords room limit w.1).2)
  appendRecord room record w :=
    (p.note w (.appendRecord room record), (p.appendRecord room record w.1).2)
  deleteRecords room w := (p.note w (.deleteRecords room), (p.deleteRecords room w.1).2)
  reconnect w := (p.note w .reconnect, (p.reconnect w.1).2)
  encrypt key plaintext w := (p.note w (.encrypt key plaintext), (p.encrypt key plaintext w.1).2)
  decrypt := p.decrypt
  summarize history w := (p.note w (.summarize history), (p.summarize history w.1).2)
  invoke agent task context input w :=
    (p.note w (.invoke agent task context input), (p.invoke agent task context input w.1).2)

/-- Noting adds a use to the list and is otherwise the use. -/
theorem after_noted (w : W × List PortUse) (u : PortUse) : p.noted.after w u = p.note w u := by
  cases u <;> rfl

end Ports

namespace Hall

variable {W : Type} {p : Ports W} {r : Request} {deadline : Option Nat}

/-! ## What every use keeps -/

/-- A call is a use, or a pause. -/
theorem serve_keeps {I : W → Prop} (hI : ∀ w u, I w → I (p.after w u)) (w : W) (call : Call)
    (hw : I w) : I (p.serve w call).1 := by
  cases call with
  | lookupKey room => exact hI w (.lookupKey room) hw
  | listRecords room limit => exact hI w (.listRecords room limit) hw
  | summarize history => exact hI w (.summarize history) hw
  | invoke agent task context input => exact hI w (.invoke agent task context input) hw
  | pause ms => exact hw
  | appendRecord room record => exact hI w (.appendRecord room record) hw
  | reconnect => exact hI w .reconnect hw

/-- Between two waits a command at most seals an exchange. -/
theorem resume_world (p : Ports W) (d : Desk) (w : W) (now : Nat) (r : Request) (stage : Stage)
    (answer : Answer) :
    (stage.resume p d w now r answer).2.1 = w ∨
      ∃ key plaintext, (stage.resume p d w now r answer).2.1 = p.after w (.encrypt key plaintext) := by
  simp only [Stage.resume]
  split <;> try exact .inl rfl
  rename_i agent task key context since made result
  simp only [Stage.afterAttempt]
  split
  · exact .inl rfl
  · exact .inr ⟨key, _, rfl⟩
  · exact .inl rfl

/-- **What every use keeps, a command keeps**, dropped or not. -/
theorem runFrom_keeps {I : W → Prop} (hI : ∀ w u, I w → I (p.after w u)) (n : Nat) :
    ∀ (h : Hall W) (stage : Stage), I h.world → I (runFrom p deadline r h stage n).1.world := by
  induction n with
  | zero => intro h stage hw; exact hw
  | succ n ih =>
    intro h stage hw
    cases hc : stage.call? h.desk r with
    | none => cases stage <;> simp_all [runFrom]
    | some call =>
      have hserved := serve_keeps hI h.world call hw
      rw [runFrom_call_deadline hc]
      simp only
      split
      · exact hserved
      · refine ih _ _ ?_
        rcases resume_world p h.desk (p.serve h.world call).1
          (Clock.wake h.now (p.serve h.world call).2.1) r stage (p.serve h.world call).2.2
          with heq | ⟨key, plaintext, heq⟩
        · simp only [heq]; exact hserved
        · simp only [heq]; exact hI _ _ hserved

/-- What every use keeps, a command keeps from its start on. -/
theorem command_keeps {I : W → Prop} (hI : ∀ w u, I w → I (p.after w u)) {h : Hall W}
    {timeout : Option Nat} (hw : I h.world) : I (h.command p r timeout).1.world :=
  runFrom_keeps hI _ _ _ hw

/-! ## Noting is not noticed -/

/-- A hall without the list of uses. -/
def plain (h : Hall (W × List PortUse)) : Hall W := ⟨h.desk, h.world.1, h.now⟩

/-- A hall whose world lists its uses from here on. -/
def noting (h : Hall W) : Hall (W × List PortUse) := ⟨h.desk, (h.world, []), h.now⟩

theorem serve_noted (w : W × List PortUse) (call : Call) :
    ((p.noted.serve w call).1.1, (p.noted.serve w call).2) = p.serve w.1 call := by
  cases call <;> rfl

theorem resume_noted (d : Desk) (w : W × List PortUse) (now : Nat) (stage : Stage)
    (answer : Answer) :
    let next := stage.resume p.noted d w now r answer
    (next.1, next.2.1.1, next.2.2) = stage.resume p d w.1 now r answer := by
  simp only [Stage.resume]
  split <;> try rfl
  simp only [Stage.afterAttempt]
  split <;> rfl

/-- **Noting is not noticed**: without its list a noted run is the run. -/
theorem runFrom_noted (n : Nat) :
    ∀ (d : Desk) (w : W × List PortUse) (now : Nat) (stage : Stage),
      let noted := runFrom p.noted deadline r ⟨d, w, now⟩ stage n
      (noted.1.plain, noted.2) = runFrom p deadline r ⟨d, w.1, now⟩ stage n := by
  induction n with
  | zero => intro d w now stage; rfl
  | succ n ih =>
    intro d w now stage
    cases hc : stage.call? d r with
    | none => cases stage <;> simp_all [runFrom, plain]
    | some call =>
      have hserve := serve_noted (p := p) w call
      rw [runFrom_call_deadline (h := ⟨d, w, now⟩) hc,
        runFrom_call_deadline (h := ⟨d, w.1, now⟩) hc]
      dsimp only
      rw [← hserve]
      by_cases hpast :
          Clock.isPast deadline (Clock.wake now (p.noted.serve w call).2.1) = true
      · rw [if_pos hpast, if_pos hpast]
        rfl
      · have hresume := resume_noted (p := p) (r := r) d (p.noted.serve w call).1
          (Clock.wake now (p.noted.serve w call).2.1) stage (p.noted.serve w call).2.2
        rw [if_neg hpast, if_neg hpast, ← hresume]
        exact ih _ _ _ _

/-- A whole command over ports that note their uses is the command over the ports. -/
theorem command_noted (h : Hall W) (r : Request) (timeout : Option Nat) :
    ((h.noting.command p.noted r timeout).1.plain, (h.noting.command p.noted r timeout).2) =
      h.command p r timeout :=
  runFrom_noted _ _ _ _ _

/-- What a command uses of its ports, in order. -/
def usesOf (p : Ports W) (h : Hall W) (r : Request) (timeout : Option Nat) : List PortUse :=
  (h.noting.command p.noted r timeout).1.world.2

/-- **The uses account for the whole world** behind a command, dropped or
not. -/
theorem world_eq_foldl_uses (p : Ports W) (h : Hall W) (r : Request) (timeout : Option Nat) :
    (h.command p r timeout).1.world = (h.usesOf p r timeout).foldl p.after h.world := by
  have hkeeps : (h.noting.command p.noted r timeout).1.world.1 =
      (h.noting.command p.noted r timeout).1.world.2.foldl p.after h.world := by
    refine command_keeps (I := fun w : W × List PortUse => w.1 = w.2.foldl p.after h.world) ?_ rfl
    intro w u hw
    simp only [p.after_noted, Ports.note, List.foldl_append, List.foldl_cons, List.foldl_nil,
      ← hw]
  rw [← command_noted h r timeout]
  exact hkeeps

end Hall

/-! ## What each phase uses -/

namespace Ports

variable {W : Type} {p : Ports W}

/-- Every phase up to the answer of the pipeline only reads: what the uses
other than writes keep, it keeps. -/
theorem fetchKey_keeps {I : W → Prop} (hI : ∀ w u, u.isWrite = false → I w → I (p.after w u))
    (room : String) {s : Scene W} (hs : I s.world) : I (p.fetchKey room s).1.world :=
  hI _ (.lookupKey room) rfl hs

/-- A load keeps what the uses other than writes keep. -/
theorem fetchWindow_keeps {I : W → Prop}
    (hI : ∀ w u, u.isWrite = false → I w → I (p.after w u)) (m : MemorySettings) (room : String)
    (key : RoomKey) {s : Scene W} (hs : I s.world) :
    I (p.fetchWindow m room key s).1.world := by
  have hread : I (p.listRecords room m.maxRecords s.world).1 := hI _ (.listRecords room _) rfl hs
  simp only [fetchWindow]
  cases Loading.afterRead m (p.readable key) (p.listRecords room m.maxRecords s.world).2 with
  | reading => exact hread
  | loaded window => exact hread
  | summarizing records skipped => exact hI _ (.summarize _) rfl hread

/-- The attempts keep what the uses other than writes keep. -/
theorem ask_keeps {I : W → Prop} (hI : ∀ w u, u.isWrite = false → I w → I (p.after w u))
    (delay : Nat) (agent : AgentSpec) (task : TaskSpec) (context input : String) (left : Nat) :
    ∀ s : Scene W, I s.world → I (p.ask delay agent task context input left s).1.world := by
  induction left with
  | zero => intro s hs; exact hI _ (.invoke agent task context input) rfl hs
  | succ left ih =>
    intro s hs
    have hattempt : I (p.attempt agent task context input s).1.world :=
      hI _ (.invoke agent task context input) rfl hs
    simp only [ask]
    rcases hout : p.attempt agent task context input s with ⟨s', e | text⟩
    · rw [hout] at hattempt
      exact ih _ hattempt
    · rw [hout] at hattempt
      exact hattempt

/-- All that comes before a save keeps what the uses other than writes keep. -/
theorem asked_keeps {I : W → Prop} (hI : ∀ w u, u.isWrite = false → I w → I (p.after w u))
    {room : String} {m : MemorySettings} {key : RoomKey} {delay left : Nat} {agent : AgentSpec}
    {task : TaskSpec} {window : ConversationWindow} {input : String}
    {found : Except StorageError (Option RoomKey)} {result : Except PipelineError String}
    {s₀ s₁ s₂ s₃ : Scene W} (hkey : p.fetchKey room s₀ = (s₁, found))
    (hwindow : p.fetchWindow m room key s₁ = (s₂, window))
    (hask : p.ask delay agent task window.text input left s₂ = (s₃, result)) (h₀ : I s₀.world) :
    I s₃.world := by
  have h₁ := fetchKey_keeps hI room h₀
  rw [hkey] at h₁
  have h₂ := fetchWindow_keeps hI m room key h₁
  rw [hwindow] at h₂
  have h₃ := ask_keeps hI delay agent task window.text input left s₂ h₂
  rw [hask] at h₃
  exact h₃

/-- Once the records are read a load asks for at most one summary. -/
theorem finishLoad_uses (m : MemorySettings) (s : Scene (W × List PortUse)) (load : Loading) :
    ∃ summaries : List String, summaries.length ≤ 1 ∧
      (p.noted.finishLoad m s load).1.world.2 = s.world.2 ++ summaries.map .summarize := by
  cases load with
  | reading => exact ⟨[], by simp, by simp [finishLoad]⟩
  | loaded window => exact ⟨[], by simp, by simp [finishLoad]⟩
  | summarizing records skipped => exact ⟨[Memory.joined records], by simp, rfl⟩

/-- A load reads the records and asks for at most one summary. -/
theorem fetchWindow_uses (m : MemorySettings) (room : String) (key : RoomKey)
    (s : Scene (W × List PortUse)) :
    ∃ summaries : List String, summaries.length ≤ 1 ∧
      (p.noted.fetchWindow m room key s).1.world.2 =
        s.world.2 ++ .listRecords room m.maxRecords :: summaries.map .summarize := by
  obtain ⟨summaries, hlength, huses⟩ := finishLoad_uses (p := p) m
    ⟨p.note s.world (.listRecords room m.maxRecords), Clock.wake s.now 0⟩
    (Loading.afterRead m (p.readable key) (p.listRecords room m.maxRecords s.world.1).2)
  refine ⟨summaries, hlength, huses.trans ?_⟩
  simp [note]

/-- **The attempts are calls with the same arguments**, as many as there may be
when the last one fails. -/
theorem ask_uses (delay : Nat) (agent : AgentSpec) (task : TaskSpec) (context input : String)
    (left : Nat) :
    ∀ s : Scene (W × List PortUse),
      ∃ calls, 1 ≤ calls ∧ calls ≤ left + 1 ∧
        (∀ e, (p.noted.ask delay agent task context input left s).2 = .error e →
          calls = left + 1) ∧
        (p.noted.ask delay agent task context input left s).1.world.2 =
          s.world.2 ++ List.replicate calls (.invoke agent task context input) := by
  induction left with
  | zero => intro s; exact ⟨1, by omega, by omega, fun _ _ => rfl, rfl⟩
  | succ left ih =>
    intro s
    have hworld : (p.noted.attempt agent task context input s).1.world.2 =
        s.world.2 ++ [.invoke agent task context input] := rfl
    rcases hs : p.noted.attempt agent task context input s with ⟨s', e | text⟩
    · obtain ⟨calls, hpos, hle, hall, huses⟩ := ih ⟨s'.world, Clock.wake s'.now delay⟩
      rw [hs] at hworld
      refine ⟨calls + 1, by omega, by omega, fun e' he' => ?_, ?_⟩
      · simp only [ask, hs] at he'
        rw [hall e' he']
      · simp only [ask, hs]
        rw [huses, hworld, List.append_assoc, List.replicate_succ]
        rfl
    · rw [hs] at hworld
      refine ⟨1, by omega, by omega, fun e he => ?_, ?_⟩
      · simp only [ask, hs] at he
        exact absurd he (by simp)
      · simp only [ask, hs]
        rw [hworld]
        rfl

/-- The uses of a save: one write, a reconnection if it fails, and then
perhaps the same write again. -/
def fileUses (room : String) (record : List UInt8) : List (List PortUse) :=
  [[.appendRecord room record], [.appendRecord room record, .reconnect],
    [.appendRecord room record, .reconnect, .appendRecord room record]]

/-- **An exchange is sealed once** and its record written at most twice. -/
theorem keep_uses (room : String) (key : RoomKey) (plaintext : String)
    (s : Scene (W × List PortUse)) :
    ∃ record, ∃ writes ∈ fileUses room record,
      (p.noted.keep room key plaintext s).world.2 =
        s.world.2 ++ .encrypt key (Text.Utf8.encode plaintext) :: writes := by
  refine ⟨Saving.recordOf plaintext (p.encrypt key (Text.Utf8.encode plaintext) s.world.1).2, ?_⟩
  simp only [keep, file, write]
  split
  · rename_i hwrite
    obtain ⟨rfl, -⟩ := Prod.mk.inj hwrite
    exact ⟨_, .head _, by simp [noted, note]⟩
  · rename_i hwrite
    obtain ⟨rfl, -⟩ := Prod.mk.inj hwrite
    split
    · exact ⟨_, .tail _ (.tail _ (.head _)), by simp [noted, note]⟩
    · exact ⟨_, .tail _ (.head _), by simp [noted, note]⟩

end Ports

/-! ## A small hall -/

/-- An agent. -/
def AgentSpec.writer : AgentSpec := ⟨"writer", "Poet", "Write well", "", none, none⟩

/-- A task. -/
def TaskSpec.poem : TaskSpec := ⟨"poem", "Write about \x7bcontent\x7d", "A poem"⟩

/-- A catalog of one agent and one task. -/
def Catalog.small : Catalog := ⟨[("writer", .writer)], [("poem", .poem)]⟩

/-- A rehearsed world with two rooms. -/
def Rehearsal.twoRooms : Rehearsal where
  keys := (Table.empty.put "lobby" (.uniform 7)).put "attic" (.uniform 9)

/-- The small catalog over a rehearsed world, at the start of the process. -/
def Hall.small (w : Rehearsal) : Hall Rehearsal := ⟨.ofSettings {} .small, w, 0⟩

/-- A request for a poem. -/
def Request.poem (room content : String) : Request := ⟨"alice", room, ⟨"writer", "poem", content⟩⟩

end Colloquy
