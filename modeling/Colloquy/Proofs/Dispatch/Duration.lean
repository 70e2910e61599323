import Colloquy.Proofs.Dispatch.Play
import Mathlib.Data.List.Induction
/-!
# How long a command takes

The clock only goes forward, in every phase of a command and so in a run
(`now_le_play`). What memory does takes no time as long as summaries take none
(`Ports.SummarizesAtOnce`): a load and a save then end at the instant at which
they began. Behind the horizon of the clock nothing is at once, so each of
these facts asks for an instant before it.
-/

namespace Colloquy

namespace Ports

variable {W : Type} {p : Ports W}

/-- Ports whose summaries take no time. -/
def SummarizesAtOnce (p : Ports W) : Prop := ∀ history w, (p.summarize history w).2.1 = 0

/-! ## The clock goes forward -/

theorem now_le_fetchWindow (m : MemorySettings) (room : String) (key : RoomKey) (s : Scene W) :
    s.now ≤ (p.fetchWindow m room key s).1.now := by
  have hread := Clock.le_wake s.now 0
  simp only [fetchWindow]
  cases Loading.afterRead m (p.readable key) (p.listRecords room m.maxRecords s.world).2 with
  | reading => exact hread
  | loaded window => exact hread
  | summarizing records skipped => exact Nat.le_trans hread (Clock.le_wake _ _)

theorem now_le_ask (delay : Nat) (agent : AgentSpec) (task : TaskSpec) (context input : String)
    (left : Nat) : ∀ s : Scene W, s.now ≤ (p.ask delay agent task context input left s).1.now := by
  have hattempt : ∀ s : Scene W, s.now ≤ (p.attempt agent task context input s).1.now :=
    fun s => Clock.le_wake s.now _
  induction left with
  | zero => exact hattempt
  | succ left ih =>
    intro s
    have hfirst := hattempt s
    simp only [ask]
    generalize p.attempt agent task context input s = tried at hfirst ⊢
    obtain ⟨s₁, result⟩ := tried
    cases result with
    | ok text => exact hfirst
    | error e =>
      have hpause := Clock.le_wake s₁.now delay
      have hrest := ih ⟨s₁.world, Clock.wake s₁.now delay⟩
      exact Nat.le_trans hfirst (Nat.le_trans hpause hrest)

theorem now_le_file (room : String) (record : List UInt8) (s : Scene W) :
    s.now ≤ (p.file room record s).now := by
  have hwrite : ∀ s : Scene W, s.now ≤ (p.write room record s).1.now :=
    fun s => Clock.le_wake s.now 0
  have hfirst := hwrite s
  simp only [file]
  generalize p.write room record s = written at hfirst ⊢
  obtain ⟨s₁, result⟩ := written
  cases result with
  | ok _ => exact hfirst
  | error e =>
    have hopen := Clock.le_wake s₁.now 0
    dsimp only at hfirst ⊢
    cases (p.reconnect s₁.world).2 with
    | error e' => exact Nat.le_trans hfirst hopen
    | ok _ =>
      have hagain := hwrite ⟨(p.reconnect s₁.world).1, Clock.wake s₁.now 0⟩
      exact Nat.le_trans hfirst (Nat.le_trans hopen hagain)

theorem now_le_keep (room : String) (key : RoomKey) (plaintext : String) (s : Scene W) :
    s.now ≤ (p.keep room key plaintext s).now :=
  now_le_file (p := p) room _ ⟨(p.encrypt key (Text.Utf8.encode plaintext) s.world).1, s.now⟩

/-- The instants of a command that gets to the pipeline are in order. -/
theorem now_le_asked {room : String} {m : MemorySettings} {key : RoomKey} {delay left : Nat}
    {agent : AgentSpec} {task : TaskSpec} {window : ConversationWindow} {input : String}
    {found : Except StorageError (Option RoomKey)} {result : Except PipelineError String}
    {s₀ s₁ s₂ s₃ : Scene W} (hkey : p.fetchKey room s₀ = (s₁, found))
    (hwindow : p.fetchWindow m room key s₁ = (s₂, window))
    (hask : p.ask delay agent task window.text input left s₂ = (s₃, result)) :
    s₀.now ≤ s₁.now ∧ s₁.now ≤ s₂.now ∧ s₂.now ≤ s₃.now := by
  have h₁ := Clock.le_wake s₀.now 0
  have h₂ := now_le_fetchWindow (p := p) m room key s₁
  have h₃ := now_le_ask (p := p) delay agent task window.text input left s₂
  rw [hwindow] at h₂
  rw [hask] at h₃
  obtain ⟨rfl, -⟩ := Prod.mk.inj hkey
  exact ⟨h₁, h₂, h₃⟩

/-! ## Memory takes no time -/

/-- A load ends when it begins. -/
theorem fetchWindow_now (hp : p.SummarizesAtOnce) {s : Scene W} (hs : s.now < Clock.horizon)
    (m : MemorySettings) (room : String) (key : RoomKey) :
    (p.fetchWindow m room key s).1.now = s.now := by
  have hread : Clock.wake s.now 0 = s.now := Clock.wake_zero hs
  simp only [fetchWindow]
  cases Loading.afterRead m (p.readable key) (p.listRecords room m.maxRecords s.world).2 with
  | reading => exact hread
  | loaded window => exact hread
  | summarizing records skipped =>
    simp only [finishLoad, hp _ _, hread]

/-- A save takes no time, whichever of its writes fail. -/
theorem keep_now {s : Scene W} (hs : s.now < Clock.horizon) (room : String) (key : RoomKey)
    (plaintext : String) : (p.keep room key plaintext s).now = s.now := by
  have hwake : Clock.wake s.now 0 = s.now := Clock.wake_zero hs
  simp only [keep, file, write, hwake]
  split
  · rename_i hwrite
    obtain ⟨rfl, -⟩ := Prod.mk.inj hwrite
    rfl
  · rename_i hwrite
    obtain ⟨rfl, -⟩ := Prod.mk.inj hwrite
    split
    · exact (congrArg (Clock.wake · 0) hwake).trans hwake
    · exact hwake

end Ports

namespace Hall

variable {W : Type} {p : Ports W} {h : Hall W}

/-- A command ends no earlier than it is asked. -/
theorem now_le_command (r : Request) : h.now ≤ (h.command p r none).1.now := by
  have hc := command_course_none p h r
  generalize h.command p r none = out at hc ⊢
  cases hc with
  | overflow => exact Nat.le_refl _
  | limited => exact Nat.le_refl _
  | cached => exact Nat.le_refl _
  | unknown => exact Nat.le_refl _
  | registryFailed _ hkey =>
    obtain ⟨rfl, -⟩ := Prod.mk.inj hkey
    exact Clock.le_wake h.now 0
  | unregistered _ hkey =>
    obtain ⟨rfl, -⟩ := Prod.mk.inj hkey
    exact Clock.le_wake h.now 0
  | failed _ hkey hwindow hask =>
    obtain ⟨h₁, h₂, h₃⟩ := Ports.now_le_asked hkey hwindow hask
    exact Nat.le_trans h₁ (Nat.le_trans h₂ h₃)
  | @answered agent task key s₁ s₂ s₃ s₄ window text _ hkey hwindow hask hkeep =>
    obtain ⟨h₁, h₂, h₃⟩ := Ports.now_le_asked hkey hwindow hask
    have h₄ := Ports.now_le_keep (p := p) r.room key (Memory.exchange r.command.content text) s₃
    rw [hkeep] at h₄
    exact Nat.le_trans h₁ (Nat.le_trans h₂ (Nat.le_trans h₃ h₄))

/-- An act does not turn the clock back. -/
theorem now_le_perform (a : Act) : h.now ≤ (h.perform p a).1.now := by
  cases a with
  | command r => exact now_le_command r
  | forget room => exact Nat.le_refl _
  | wait ms => exact Nat.le_add_right _ _

/-- **A run goes forward**: what has been played ends no later than what it is a
part of. -/
theorem now_le_play {before acts : List Act} (hb : before <+: acts) :
    (play p h before).1.now ≤ (play p h acts).1.now := by
  obtain ⟨rest, rfl⟩ := hb
  induction rest using List.reverseRecOn with
  | nil => exact Nat.le_of_eq (by rw [List.append_nil])
  | append_singleton rest a ih =>
    rw [← List.append_assoc, play_concat]
    exact Nat.le_trans ih (now_le_perform a)

end Hall

end Colloquy
