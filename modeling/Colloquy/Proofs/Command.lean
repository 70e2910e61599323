import Colloquy.Command
import Colloquy.Proofs.Text.Blank
/-!
# Which messages are commands

A message is trimmed of blanks of every kind, but cut at the plain space alone, so
a name may hold other blanks and the content may begin with spaces. `Spells` is the
grammar of a trimmed message, with a form for each part that may be missing;
`parse?` accepts it and nothing else (`parse?_eq_some_iff`). Every command that is
read is `Writable`, and what is writable is read back from its printed form.
-/

namespace Colloquy.ChatCommand

/-! ## The grammar -/

/-- A name in a command: at least one character, and no space. -/
def IsName (s : String) : Prop := s ≠ "" ∧ ' ' ∉ s.toList

/-- **The grammar** of a message without the blanks around it. -/
inductive Spells : List Char → ChatCommand → Prop
  /-- An agent alone. -/
  | agent {a : String} : IsName a → Spells ('@' :: a.toList) ⟨a, defaultTask, ""⟩
  /-- An agent and a task. -/
  | task {a t : String} : IsName a → IsName t →
      Spells ('@' :: (a.toList ++ ' ' :: t.toList)) ⟨a, t, ""⟩
  /-- An agent, a task and some content. -/
  | content {a t c : String} : IsName a → IsName t → c ≠ "" →
      Spells ('@' :: (a.toList ++ ' ' :: (t.toList ++ ' ' :: c.toList))) ⟨a, t, c⟩
  /-- An agent and some content, with nothing between the two spaces. -/
  | noTask {a c : String} : IsName a → c ≠ "" →
      Spells ('@' :: (a.toList ++ ' ' :: ' ' :: c.toList)) ⟨a, defaultTask, c⟩

/-- A command that has a written form of its own: two names, and no blank at the
end. -/
structure Writable (c : ChatCommand) : Prop where
  agent : IsName c.agent
  task : IsName c.task
  content : Text.EndsPlain c.content.toList
  /-- Without content the task stands at the end. -/
  taskAtEnd : c.content = "" → Text.EndsPlain c.task.toList

theorem toList_ne_nil {s : String} (h : s ≠ "") : s.toList ≠ [] :=
  fun hnil => h (String.toList_eq_nil_iff.1 hnil)

theorem IsName.toList_ne_nil {s : String} (h : IsName s) : s.toList ≠ [] :=
  ChatCommand.toList_ne_nil h.1

theorem isName_ofList {s : List Char} (hne : s ≠ []) (hs : ' ' ∉ s) : IsName (String.ofList s) :=
  ⟨fun h => hne (by simpa using congrArg String.toList h), by rwa [String.toList_ofList]⟩

theorem isName_defaultTask : IsName defaultTask := by rw [IsName]; decide

/-! ## Cutting at a space -/

theorem cutAtSpace_of_not_mem {s : List Char} (h : ' ' ∉ s) : cutAtSpace s = (s, none) := by
  induction s with
  | nil => rfl
  | cons c rest ih =>
    have hc : c ≠ ' ' := fun hc => h (hc ▸ .head _)
    rw [cutAtSpace, if_neg hc, ih fun hmem => h (.tail _ hmem)]

/-- The first space is the one that counts. -/
theorem cutAtSpace_append {s : List Char} (h : ' ' ∉ s) (rest : List Char) :
    cutAtSpace (s ++ ' ' :: rest) = (s, some rest) := by
  induction s with
  | nil => exact if_pos rfl
  | cons c s ih =>
    have hc : c ≠ ' ' := fun hc => h (hc ▸ .head _)
    rw [List.cons_append, cutAtSpace, if_neg hc, ih fun hmem => h (.tail _ hmem)]

/-- A text has no space or a first one. -/
theorem space_cases (s : List Char) :
    ' ' ∉ s ∨ ∃ before after, s = before ++ ' ' :: after ∧ ' ' ∉ before := by
  by_cases h : ' ' ∈ s
  · exact .inr (List.eq_append_cons_of_mem h)
  · exact .inl h

/-! ## Reading -/

/-- What stands behind the `@` is no command just when no name begins there. -/
theorem ofAddress?_eq_none_iff (s : List Char) :
    ofAddress? s = none ↔ ¬ ∃ c rest, s = c :: rest ∧ c ≠ ' ' := by
  cases s with
  | nil => simp [ofAddress?, cutAtSpace]
  | cons c rest => by_cases hc : c = ' ' <;> simp [ofAddress?, cutAtSpace, hc]

/-- **What is spelled is read.** -/
theorem Spells.ofAddress? {s : List Char} {c : ChatCommand} (h : Spells ('@' :: s) c) :
    ofAddress? s = some c := by
  generalize htext : '@' :: s = text at h
  cases h with
  | agent ha =>
    cases htext
    simp [ChatCommand.ofAddress?, cutAtSpace_of_not_mem ha.2, ha.toList_ne_nil, cutAtSpace]
  | task ha ht =>
    cases htext
    simp [ChatCommand.ofAddress?, cutAtSpace_append ha.2, ha.toList_ne_nil,
      cutAtSpace_of_not_mem ht.2, ht.toList_ne_nil]
  | content ha ht hc =>
    cases htext
    simp [ChatCommand.ofAddress?, cutAtSpace_append ha.2, ha.toList_ne_nil,
      cutAtSpace_append ht.2, ht.toList_ne_nil]
  | noTask ha hc =>
    cases htext
    simp [ChatCommand.ofAddress?, cutAtSpace_append ha.2, ha.toList_ne_nil, cutAtSpace]

/-- **What is read was spelled**, where no blank stands at the end. The cases are the
spaces that the text has, of which none is its last character. -/
theorem spells_of_ofAddress? {s : List Char} {c : ChatCommand} (hend : Text.EndsPlain s)
    (h : ofAddress? s = some c) : Spells ('@' :: s) c := by
  have hne : ∀ {before after : List Char},
      Text.EndsPlain (before ++ ' ' :: after) → after ≠ [] := by
    rintro before after hplain rfl
    exact Text.not_endsPlain_concat before (by decide) hplain
  rcases space_cases s with hs | ⟨a, rest, rfl, ha⟩
  · rw [ofAddress?, cutAtSpace_of_not_mem hs] at h
    by_cases hempty : s = []
    · simp [hempty] at h
    · obtain rfl : _ = c := by simpa [hempty, cutAtSpace] using h
      simpa using Spells.agent (isName_ofList hempty hs)
  · rw [ofAddress?, cutAtSpace_append ha] at h
    by_cases hempty : a = []
    · simp [hempty] at h
    · have hagent := isName_ofList hempty ha
      rcases space_cases rest with hrest | ⟨t, content, rfl, ht⟩
      · obtain rfl : _ = c := by
          simpa [hempty, cutAtSpace_of_not_mem hrest, hne hend] using h
        simpa using Spells.task hagent (isName_ofList (hne hend) hrest)
      · have hends : Text.EndsPlain ((a ++ ' ' :: t) ++ ' ' :: content) := by simpa using hend
        have hcontent : content ≠ [] := hne hends
        have hcontent' : String.ofList content ≠ "" := by
          simpa [← String.toList_eq_nil_iff] using hcontent
        by_cases hskipped : t = []
        · obtain rfl : _ = c := by simpa [hempty, cutAtSpace, hskipped] using h
          simpa [hskipped] using Spells.noTask hagent hcontent'
        · obtain rfl : _ = c := by simpa [hempty, cutAtSpace_append ht, hskipped] using h
          simpa using Spells.content hagent (isName_ofList hskipped ht) hcontent'

/-- Every form begins with the `@`. -/
theorem Spells.exists_eq {s : List Char} {c : ChatCommand} (h : Spells s c) :
    ∃ rest, s = '@' :: rest := by
  cases h <;> exact ⟨_, rfl⟩

/-- **A message is a command just when it spells it**, without the blanks around it. -/
theorem parse?_eq_some_iff (body : String) (c : ChatCommand) :
    parse? body = some c ↔ Spells (Text.trimChars body.toList) c := by
  have hend := Text.endsPlain_trimChars body.toList
  rw [parse?]
  generalize Text.trimChars body.toList = s at hend
  constructor
  · intro h
    split at h
    · rename_i rest
      refine spells_of_ofAddress? (fun x hx => hend x ?_) h
      cases rest with
      | nil => cases hx
      | cons y rest => exact hx
    · cases h
  · intro h
    obtain ⟨rest, rfl⟩ := h.exists_eq
    exact h.ofAddress?

theorem parse?_eq_none_iff (body : String) :
    parse? body = none ↔
      ¬ ∃ x rest, Text.trimChars body.toList = '@' :: x :: rest ∧ x ≠ ' ' := by
  rw [parse?]
  split
  · rename_i rest htrim
    rw [ofAddress?_eq_none_iff, htrim]
    simp
  · rename_i hnot
    refine iff_of_true rfl ?_
    rintro ⟨x, rest, htrim, -⟩
    exact hnot _ htrim

/-! ## Writing -/

/-- A printed command, part by part. -/
theorem toList_printed (c : ChatCommand) :
    c.printed.toList = '@' :: (c.agent.toList ++ ' ' :: (c.task.toList ++
      if c.content = "" then [] else ' ' :: c.content.toList)) := by
  rw [printed]
  split <;> simp

/-- A writable command is spelled by its printed form. -/
theorem Writable.spells {c : ChatCommand} (h : c.Writable) : Spells c.printed.toList c := by
  obtain ⟨agent, task, content⟩ := c
  rw [toList_printed]
  by_cases hcontent : content = ""
  · subst hcontent
    simpa using Spells.task h.agent h.task
  · simpa [hcontent] using Spells.content h.agent h.task hcontent

/-- The printed form has no blanks around it. -/
theorem Writable.trimChars_printed {c : ChatCommand} (h : c.Writable) :
    Text.trimChars c.printed.toList = c.printed.toList := by
  rw [toList_printed]
  refine Text.trimChars_eq_self (fun x hx => ?_) ?_
  · cases hx
    decide
  · have htask : c.task.toList ++ (if c.content = "" then [] else ' ' :: c.content.toList) ≠ [] :=
      List.append_ne_nil_of_left_ne_nil h.task.toList_ne_nil _
    rw [Text.endsPlain_cons (by simp), Text.endsPlain_append (by simp), Text.endsPlain_cons htask]
    by_cases hcontent : c.content = ""
    · simpa [hcontent] using h.taskAtEnd hcontent
    · rw [if_neg hcontent, Text.endsPlain_append (by simp),
        Text.endsPlain_cons (toList_ne_nil hcontent)]
      exact h.content

/-- What a text spells that does not end in a blank is writable. -/
theorem Spells.writable {s : List Char} {c : ChatCommand} (h : Spells s c)
    (hend : Text.EndsPlain s) : c.Writable := by
  have hnothing : Text.EndsPlain "".toList := by decide
  cases h with
  | agent ha =>
    exact ⟨ha, isName_defaultTask, hnothing, fun _ =>
      show Text.EndsPlain defaultTask.toList by decide⟩
  | task ha ht =>
    rw [Text.endsPlain_cons (by simp), Text.endsPlain_append (by simp),
      Text.endsPlain_cons ht.toList_ne_nil] at hend
    exact ⟨ha, ht, hnothing, fun _ => hend⟩
  | content ha ht hc =>
    rw [Text.endsPlain_cons (by simp), Text.endsPlain_append (by simp),
      Text.endsPlain_cons (by simp), Text.endsPlain_append (by simp),
      Text.endsPlain_cons (toList_ne_nil hc)] at hend
    exact ⟨ha, ht, hend, fun hnone => absurd hnone hc⟩
  | noTask ha hc =>
    rw [Text.endsPlain_cons (by simp), Text.endsPlain_append (by simp),
      Text.endsPlain_cons (by simp), Text.endsPlain_cons (toList_ne_nil hc)] at hend
    exact ⟨ha, isName_defaultTask, hend, fun hnone => absurd hnone hc⟩

theorem Writable.parse?_printed {c : ChatCommand} (h : c.Writable) :
    parse? c.printed = some c := by
  rw [parse?_eq_some_iff, h.trimChars_printed]
  exact h.spells

/-- **Commands are read from what spells them, and printing is undone by reading.** A
message is no command just when it has no name right behind an `@`, without the blanks
around it; otherwise it is the command that it spells. Every command that is read is
writable, and the writable commands are those that are read back from their printed
form, with the spaces in their content. -/
theorem read_iff_spelled :
    (∀ body, parse? body = none ↔
      ¬ ∃ x rest, Text.trimChars body.toList = '@' :: x :: rest ∧ x ≠ ' ') ∧
    (∀ body c, parse? body = some c ↔ Spells (Text.trimChars body.toList) c) ∧
    (∀ body c, parse? body = some c → c.Writable ∧ parse? c.printed = some c) ∧
    ∀ c : ChatCommand, c.Writable ↔ parse? c.printed = some c := by
  have hwritable : ∀ body c, parse? body = some c → c.Writable := fun body c h =>
    ((parse?_eq_some_iff body c).1 h).writable (Text.endsPlain_trimChars _)
  refine ⟨parse?_eq_none_iff, parse?_eq_some_iff, fun body c h => ?_, fun c => ⟨?_, ?_⟩⟩
  · exact ⟨hwritable body c h, (hwritable body c h).parse?_printed⟩
  · exact Writable.parse?_printed
  · exact hwritable c.printed c

/-- A name with a blank that is no space, no task, and content behind two spaces. -/
theorem read_iff_spelled_spaced :
    parse? " @a\tb   c  d\n" = some ⟨"a\tb", "default", " c  d"⟩ ∧
      parse? (printed ⟨"a\tb", "default", " c  d"⟩) = some ⟨"a\tb", "default", " c  d"⟩ := by
  have hread : parse? " @a\tb   c  d\n" = some ⟨"a\tb", "default", " c  d"⟩ := by decide
  exact ⟨hread, (read_iff_spelled.2.2.1 _ _ hread).2⟩

end Colloquy.ChatCommand
