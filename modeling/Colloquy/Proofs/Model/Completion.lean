import Colloquy.Model.Script
import Colloquy.Proofs.Json.Printing
import Colloquy.Proofs.Text.Blank
import Colloquy.Proofs.Text.Utf8
/-!
# Blank answers of a model server

An answer is blank when its completion has no choice, or when its first choice has
no content or one of blanks alone (`ModelResponse.IsBlank`). What is taken from an
answer has words in it; a blank answer is a failure of an attempt, and no summary.
A server that answers with choices is read as it means them (`text?_choices`).
-/

namespace Colloquy

open Text (HasWords)

/-- **A blank answer**: a completion without a choice, or whose first choice has no
content or one without words. -/
def ModelResponse.IsBlank (response : ModelResponse) : Prop :=
  ∃ status body completion, response = .answered status body ∧ 200 ≤ status ∧ status < 300 ∧
    Completion.read? Completion.shape body = some completion ∧
    ∀ choice ∈ (completion.field "choices").items.head?,
      ∀ text ∈ ((choice.field "message").field "content").text?, ¬ HasWords text

namespace Completion

variable {response : ModelResponse} {text : String}

/-- The first choice counts when it has words in it. -/
theorem firstText_eq_some_iff {completion : Json} :
    firstText completion = some text ↔
      ∃ choice ∈ (completion.field "choices").items.head?,
        text ∈ ((choice.field "message").field "content").text? ∧ HasWords text := by
  unfold firstText
  cases (completion.field "choices").items with
  | nil => simp
  | cons choice choices =>
    simp [Option.filter_eq_some_iff, Text.isBlankText_eq_false_iff, Option.mem_def]

theorem firstText_eq_none_iff {completion : Json} :
    firstText completion = none ↔
      ∀ choice ∈ (completion.field "choices").items.head?,
        ∀ text ∈ ((choice.field "message").field "content").text?, ¬ HasWords text := by
  simp only [Option.eq_none_iff_forall_ne_some, ne_eq, firstText_eq_some_iff, not_exists, not_and]
  exact ⟨fun h choice hchoice text => h text choice hchoice,
    fun h text choice hchoice => h choice hchoice text⟩

/-- **What is found in an answer** is found in the completion that it holds. -/
theorem text?_eq_ok_iff {found : Option String} :
    text? response = .ok found ↔
      ∃ status body completion, response = .answered status body ∧ 200 ≤ status ∧ status < 300 ∧
        read? shape body = some completion ∧ firstText completion = found := by
  constructor
  · intro h
    cases response with
    | unreachable reason => cases h
    | answered status body =>
      simp only [text?] at h
      split at h
      · rename_i hsuccess
        simp only [Bool.and_eq_true, decide_eq_true_eq] at hsuccess
        split at h
        · rename_i completion hread
          exact ⟨status, body, completion, rfl, hsuccess.1, hsuccess.2, hread, Except.ok.inj h⟩
        · cases h
      · split at h
        · cases h
        · split at h <;> cases h
  · rintro ⟨status, body, completion, rfl, hlow, hhigh, hread, rfl⟩
    have hsuccess : (200 ≤ status && status < 300) = true := by simp [hlow, hhigh]
    rw [text?, if_pos hsuccess, hread]

/-- A blank answer is one in which nothing is found. -/
theorem isBlank_iff : response.IsBlank ↔ text? response = .ok none := by
  simp only [ModelResponse.IsBlank, text?_eq_ok_iff, firstText_eq_none_iff]

/-- **What is found has words in it.** -/
theorem hasWords_of_text? (h : text? response = .ok (some text)) : HasWords text := by
  obtain ⟨-, -, completion, -, -, -, -, hfound⟩ := text?_eq_ok_iff.1 h
  obtain ⟨choice, -, -, hwords⟩ := firstText_eq_some_iff.1 hfound
  exact hwords

/-- An attempt comes to the text of the answer, and to a reported failure where that is
blank. -/
theorem result_output (response : ModelResponse) :
    (output response).bind PipelineOutput.result =
      (text? response).bind fun found =>
        match found with
        | some text => .ok text
        | none => .error (.reported PipelineError.emptyResponse.message) := by
  rw [output]
  rcases text? response with e | _ | text <;> rfl

theorem hasWords_of_output (h : (output response).bind PipelineOutput.result = .ok text) :
    HasWords text := by
  rw [result_output] at h
  rcases hfound : text? response with e | _ | found <;> rw [hfound] at h
  · cases h
  · cases h
  · cases h
    exact hasWords_of_text? hfound

theorem hasWords_of_summary (h : summary response = .ok text) : HasWords text := by
  rw [summary] at h
  split at h
  · rename_i found hfound
    cases h
    exact hasWords_of_text? hfound
  · cases h
  · cases h

/-- **A blank answer fails the attempt** that it is an answer to. -/
theorem result_output_of_isBlank (h : response.IsBlank) :
    (output response).bind PipelineOutput.result =
      .error (.reported PipelineError.emptyResponse.message) := by
  rw [result_output, isBlank_iff.1 h]
  rfl

/-- A blank answer is no summary. -/
theorem summary_of_isBlank (h : response.IsBlank) : summary response = .error .emptyResponse := by
  rw [summary, isBlank_iff.1 h]

end Completion

/-! ## Answers with choices -/

namespace ScriptedServer

open Json

/-- The members of a choice as they are written. -/
def choiceMembers (index : Nat) (content : Option String) : List (String × Json) :=
  [("index", .nat index),
    ("message", .object [("role", .text "assistant"), ("content", .ofOption .text content)]),
    ("finish_reason", .text "stop"), ("logprobs", .null)]

/-- A choice as it is read: the members of a record stand in its order. -/
def choiceRead (index : Nat) (content : Option String) : Json :=
  .object [("index", .nat index),
    ("message", .object [("content", .ofOption .text content), ("role", .text "assistant")]),
    ("finish_reason", .text "stop"), ("logprobs", .null)]

/-- A completion as it is read. -/
def completionRead (model : String) (contents : List (Option String)) : Json :=
  .object [("id", .text "chatcmpl"), ("choices", .list (contents.mapIdx choiceRead)),
    ("created", .nat 0), ("model", .text model), ("object", .text "chat.completion")]

theorem completion_eq (model : String) (contents : List (Option String)) :
    completion (.text model) contents =
      .object [("id", .text "chatcmpl"), ("object", .text "chat.completion"),
        ("created", .nat 0), ("model", .text model),
        ("choices", .list ((contents.mapIdx choiceMembers).map .object))] := by
  have hchoices : (contents.mapIdx choiceMembers).map Json.object =
      contents.mapIdx fun index content => .object (choiceMembers index content) :=
    List.ext_getElem (by simp) (by simp)
  rw [hchoices]
  rfl

theorem choice_readsAs {depth index : Nat} (hindex : index < Nat.pow 2 32)
    (content : Option String) :
    ReadsAs 12 (depth + 2) Completion.choiceShape (.object (choiceMembers index content))
      (choiceRead index content) := by
  let messageFields : List Shape.Field := [Shape.needs "content" (.optional .anyText),
    Shape.needs "refusal" (.optional .anyText), Shape.needs "role" (.tag
      ["system", "user", "assistant", "tool", "function"])]
  have hcontent : MemberAs 2 depth messageFields ("content", .ofOption .text content)
      ("content", .ofOption .text content) := by
    cases content with
    | none => exact .missing rfl
    | some text => exact .givenText rfl
  have hmessage : ReadsAs 6 (depth + 1) (.record messageFields)
      (.object [("role", .text "assistant"), ("content", .ofOption .text content)])
      (.object [("content", .ofOption .text content), ("role", .text "assistant")]) :=
    .record (.cons (.tag rfl (by decide)) (.cons hcontent .nil)) (by simp) rfl
  have hreason : ReadsAs 2 (depth + 1) (.optional (.tag ["stop", "length", "tool_calls",
      "content_filter", "function_call"])) (.text "stop") (.text "stop") :=
    (ReadsAs.name (by decide)).given
  exact .record
    (.cons (MemberAs.mono (.count rfl (Nat.le_pred_of_lt hindex) (by decide)) (by decide))
    (.cons (.value rfl hmessage) (.cons (.value rfl (hreason.mono (by decide)))
      (.cons (MemberAs.mono (.missing rfl) (by decide)) .nil)))) (by simp) rfl

/-- **A completion is read as it was meant**, if its choices can be counted. -/
theorem completion_readsAs {depth : Nat} (model : String) {contents : List (Option String)}
    (hcount : contents.length ≤ Nat.pow 2 32) :
    ReadsAs (contents.length + 21) (depth + 4) Completion.shape (completion (.text model) contents)
      (completionRead model contents) := by
  have hchoices : List.Forall₂
      (fun ms value => ReadsAs 12 (depth + 2) Completion.choiceShape (.object ms) value)
      (contents.mapIdx choiceMembers) (contents.mapIdx choiceRead) := by
    rw [List.forall₂_iff_get]
    refine ⟨by simp, fun i hi _ => ?_⟩
    rw [List.length_mapIdx] at hi
    simpa using choice_readsAs (Nat.lt_of_lt_of_le hi hcount) contents[i]
  have hlist := ReadsAs.list hchoices
  rw [List.length_mapIdx] at hlist
  have hobject : ReadsAs (contents.length + 14 + 5 + 2) (depth + 4) Completion.shape
      (completion (.text model) contents) (completionRead model contents) := by
    rw [completion_eq]
    exact .record (.cons (MemberAs.mono (.text rfl) (by omega))
      (.cons (MemberAs.mono (.text rfl) (by omega))
        (.cons (MemberAs.mono (.count rfl (Nat.zero_le _) (by decide)) (by omega))
          (.cons (MemberAs.mono (.text rfl) (by omega))
            (.cons (.value rfl (hlist.mono (by omega))) .nil))))) (by simp) rfl
  exact hobject

/-- A completion is read from its text, which is longer than there are choices. -/
theorem read?_completion (model : String) {contents : List (Option String)}
    (hcount : contents.length ≤ Nat.pow 2 32) :
    Completion.read? Completion.shape
        (Text.Utf8.encode (completion (.text model) contents).compact) =
      some (completionRead model contents) := by
  have hreads : ReadsAs (contents.length + 21) depthLimit Completion.shape _ _ :=
    completion_readsAs model hcount
  have hlong :
      contents.length + 16 ≤ (compactChars (completion (.text model) contents)).length := by
    have hitems := length_compactChars_list ((contents.mapIdx choiceMembers).map .object)
    rw [List.length_map, List.length_mapIdx] at hitems
    rw [completion_eq, compactChars_object, List.length_cons]
    refine Nat.succ_le_succ (Nat.le_trans ?_ (length_membersText _ _ _))
    simp only [List.map_cons, List.map_nil, List.flatMap_cons, List.flatMap_nil,
      List.length_append, List.length_cons, List.length_nil]
    omega
  have hread := read_of_reads hreads.1 (by omega)
  rw [Completion.read?, Text.Utf8.decode?_encode, Option.bind_some, compact, String.toList_ofList,
    hread]
  rfl

/-- The answer of a server with choices of some contents. -/
def answerOf (model : String) (contents : List (Option String)) : ModelResponse :=
  .answered 200 (Text.Utf8.encode (completion (.text model) contents).compact)

/-- **An answer with choices gives the content of the first**, if that has words in it. -/
theorem text?_answerOf (model : String) {contents : List (Option String)}
    (hcount : contents.length ≤ Nat.pow 2 32) :
    Completion.text? (answerOf model contents) =
      .ok (contents.head?.join.filter fun text => !Text.isBlankText text) := by
  have hchoices : ((completionRead model contents).field "choices").items =
      contents.mapIdx choiceRead := rfl
  rw [answerOf, Completion.text?, if_pos (by decide), read?_completion model hcount]
  simp only [Completion.firstText, hchoices]
  cases contents with
  | nil => rfl
  | cons content contents =>
    rw [List.mapIdx_cons]
    cases content <;> rfl

/-- An answer with choices is blank just when the first has no content with words. -/
theorem isBlank_answerOf_iff (model : String) {contents : List (Option String)}
    (hcount : contents.length ≤ Nat.pow 2 32) :
    (answerOf model contents).IsBlank ↔
      ∀ text, contents.head? = some (some text) → ¬ HasWords text := by
  rw [Completion.isBlank_iff, text?_answerOf model hcount]
  rcases contents with _ | ⟨_ | text, contents⟩
  · simp
  · simp
  · simp [Option.filter_eq_none_iff, ← Text.isBlankText_eq_false_iff]

end ScriptedServer

end Colloquy
