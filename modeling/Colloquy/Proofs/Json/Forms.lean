import Colloquy.Catalog.Spec
import Colloquy.Memory.Window
import Colloquy.Proofs.Json.Printing
import Colloquy.Reply
/-!
# JSON forms and their values

The JSON form of a reply, a window, an output, a task or an agent is read back as
the value that it was written from: every member is read by its shape, and what a
form leaves out has a default that means the same.
-/

namespace Colloquy

namespace Json

/-- **A value is restored** from both layouts of its form. -/
def Restores {α : Type} (shape : Shape) (ofJson? : Json → Option α) (form : Json) (v : α) : Prop :=
  ∀ s ∈ [form.compact, form.pretty], ∃ j, read shape s.toList = .ok j ∧ ofJson? j = some v

end Json

open Json

theorem ReplySource.ofName?_name (source : ReplySource) :
    ReplySource.ofName? source.name = some source := by
  cases source <;> decide

theorem Compaction.ofName?_name (compaction : Compaction) :
    Compaction.ofName? compaction.name = some compaction := by
  cases compaction <;> decide

/-! ## The types -/

theorem Reply.restored (r : Reply) : Restores Reply.shape Reply.ofJson? r.toJson r := by
  have hsource : r.source.name ∈ ReplySource.all.map ReplySource.name := by
    cases r.source <;> decide
  have hread : ReadsAs 6 depthLimit Reply.shape r.toJson r.toJson :=
    .record (.cons (.text rfl) (.cons (.tag rfl hsource) .nil)) (by simp) rfl
  have hvalue : Reply.ofJson? r.toJson =
      (ReplySource.ofName? r.source.name).bind fun source => some ⟨r.text, source⟩ := rfl
  rw [ReplySource.ofName?_name] at hvalue
  exact fun s hs => ⟨_, read_printed hread (by decide) s hs, hvalue⟩

theorem ConversationWindow.restored (w : ConversationWindow)
    (hloaded : w.recordsLoaded < Nat.pow 2 64) (hskipped : w.recordsSkipped < Nat.pow 2 64) :
    Restores ConversationWindow.shape ConversationWindow.ofJson? w.toJson w := by
  have hcompaction : w.compaction.name ∈ Compaction.all.map Compaction.name := by
    cases w.compaction <;> decide
  have hread : ReadsAs 8 depthLimit ConversationWindow.shape w.toJson w.toJson :=
    .record (.cons (.text rfl) (.cons (.count rfl (Nat.le_pred_of_lt hloaded) (by decide))
      (.cons (.count rfl (Nat.le_pred_of_lt hskipped) (by decide))
        (.cons (.tag rfl hcompaction) .nil)))) (by simp) rfl
  have hvalue : ConversationWindow.ofJson? w.toJson =
      (Compaction.ofName? w.compaction.name).bind fun compaction =>
        some ⟨w.text, w.recordsLoaded, w.recordsSkipped, compaction⟩ := rfl
  rw [Compaction.ofName?_name] at hvalue
  exact fun s hs => ⟨_, read_printed hread (by decide) s hs, hvalue⟩

/-- An absent error has no member. -/
theorem PipelineOutput.restored (out : PipelineOutput) :
    Restores PipelineOutput.shape (some ∘ PipelineOutput.ofJson) out.toJson out := by
  obtain ⟨text, error⟩ := out
  cases error with
  | none =>
    have hread : ReadsAs 5 depthLimit PipelineOutput.shape (toJson ⟨text, none⟩)
        (toJson ⟨text, none⟩) :=
      .record (.cons (.text rfl) .nil) (by simp) rfl
    exact fun s hs => ⟨_, read_printed hread (by decide) s hs, rfl⟩
  | some reason =>
    have hread : ReadsAs 6 depthLimit PipelineOutput.shape (toJson ⟨text, some reason⟩)
        (toJson ⟨text, some reason⟩) :=
      .record (.cons (.text rfl) (.cons (.givenText rfl) .nil)) (by simp) rfl
    exact fun s hs => ⟨_, read_printed hread (by decide) s hs, rfl⟩

theorem TaskSpec.restored (t : TaskSpec) :
    Restores TaskSpec.shape (some ∘ TaskSpec.ofJson) t.toJson t := by
  have hread : ReadsAs 7 depthLimit TaskSpec.shape t.toJson t.toJson :=
    .record (.cons (.text rfl) (.cons (.text rfl) (.cons (.text rfl) .nil))) (by simp) rfl
  exact fun s hs => ⟨_, read_printed hread (by decide) s hs, rfl⟩

/-- Neither an absent model nor an absent temperature has a member. -/
theorem AgentSpec.restored (a : AgentSpec) (htemperature : a.temperature = none) :
    Restores AgentSpec.shape (some ∘ AgentSpec.ofJson) a.toJson a := by
  obtain ⟨name, role, goal, backstory, model, temperature⟩ := a
  subst htemperature
  cases model with
  | none =>
    have hread : ReadsAs 8 depthLimit AgentSpec.shape
        (toJson ⟨name, role, goal, backstory, none, none⟩)
        (toJson ⟨name, role, goal, backstory, none, none⟩) :=
      .record (.cons (.text rfl) (.cons (.text rfl) (.cons (.text rfl) (.cons (.text rfl) .nil))))
        (by simp) rfl
    exact fun s hs => ⟨_, read_printed hread (by decide) s hs, rfl⟩
  | some model =>
    have hread : ReadsAs 9 depthLimit AgentSpec.shape
        (toJson ⟨name, role, goal, backstory, some model, none⟩)
        (toJson ⟨name, role, goal, backstory, some model, none⟩) :=
      .record (.cons (.text rfl) (.cons (.text rfl) (.cons (.text rfl) (.cons (.text rfl)
        (.cons (.givenText rfl) .nil))))) (by simp) rfl
    exact fun s hs => ⟨_, read_printed hread (by decide) s hs, rfl⟩

/-- **Every form is read back.** The text of the JSON form of any reply, window with
counts of 64 bits, output or task, or of any agent without a temperature, is read as
the value that it was written from. -/
theorem Json.forms_restored :
    (∀ r : Reply, Restores Reply.shape Reply.ofJson? r.toJson r) ∧
    (∀ w : ConversationWindow, w.recordsLoaded < Nat.pow 2 64 → w.recordsSkipped < Nat.pow 2 64 →
      Restores ConversationWindow.shape ConversationWindow.ofJson? w.toJson w) ∧
    (∀ out : PipelineOutput,
      Restores PipelineOutput.shape (some ∘ PipelineOutput.ofJson) out.toJson out) ∧
    (∀ t : TaskSpec, Restores TaskSpec.shape (some ∘ TaskSpec.ofJson) t.toJson t) ∧
    ∀ a : AgentSpec, a.temperature = none →
      Restores AgentSpec.shape (some ∘ AgentSpec.ofJson) a.toJson a :=
  ⟨Reply.restored, ConversationWindow.restored, PipelineOutput.restored, TaskSpec.restored,
    AgentSpec.restored⟩

/-- The largest count, and an agent with a model, with a text of a control character, a
quote, a backslash and a character of two code units. -/
theorem Json.forms_restored_escaped :
    let t := "\x01\"\\😀"
    Restores ConversationWindow.shape ConversationWindow.ofJson?
        (ConversationWindow.toJson ⟨t, Nat.pow 2 64 - 1, 0, .truncated⟩)
        ⟨t, Nat.pow 2 64 - 1, 0, .truncated⟩ ∧
      Restores AgentSpec.shape (some ∘ AgentSpec.ofJson)
        (AgentSpec.toJson ⟨t, "", "", "", some t, none⟩) ⟨t, "", "", "", some t, none⟩ :=
  ⟨Json.forms_restored.2.1 _ (by decide) (by decide), Json.forms_restored.2.2.2.2 _ rfl⟩

end Colloquy
