import Colloquy.Proofs.Memory.Budget
import Colloquy.Proofs.Memory.Loading
import Colloquy.Proofs.Memory.Tail
/-!
# The newest history stays word for word

A history within its budget is shown as it is. One over the budget is handed to
the summarizer, and what is shown ends in the latest records when there is a
summary (`joined_lastOf`), or in the latest characters when there is none
(`tailChars_split`): in either case in the end of the history. What is within
the budget is told by the estimate in doubles, and `newest_verbatim` goes
through the cases.
-/

namespace Colloquy

namespace Memory

/-- The last items of a list are its end, and as many as there can be. -/
theorem lastOf_split {α : Type} (count : Nat) (items : List α) :
    items.take (items.length - count) ++ lastOf count items = items ∧
      (lastOf count items).length = min count items.length := by
  refine ⟨List.take_append_drop _ items, ?_⟩
  rw [lastOf, List.length_drop]
  omega

/-- The last records, joined, are the end of all records, joined. -/
theorem joined_lastOf (count : Nat) (records : List String) :
    ∃ front, joined records = front ++ joined (lastOf count records) := by
  have hsplit := (lastOf_split count records).1
  generalize records.take (records.length - count) = older at hsplit
  generalize lastOf count records = recent at hsplit ⊢
  subst hsplit
  by_cases holder : older = []
  · exact ⟨"", by rw [holder, List.nil_append, String.empty_append]⟩
  by_cases hrecent : recent = []
  · exact ⟨joined older, by rw [hrecent, List.append_nil]; exact String.append_empty.symm⟩
  · exact ⟨joined older ++ "\n", String.intercalate_append_of_ne_nil holder hrecent⟩

end Memory

namespace Loading

variable {m : MemorySettings} {records : List String} {skipped : Nat}

/-- Behind a summary stand the latest records, which are the end of the history. -/
theorem afterSummary_ok (summary : String) :
    let window := afterSummary m records skipped (.ok summary)
    window.compaction = .summarized ∧
      ∃ older recent, records = older ++ recent ∧
        recent.length = min m.recentRecords records.length ∧
        window.text = "[SUMMARY OF PREVIOUS CONVERSATION]: " ++ summary ++
          "\n\n[RECENT MESSAGES]:\n" ++ Memory.joined recent ∧
        ∃ front, Memory.joined records = front ++ Memory.joined recent := by
  obtain ⟨hsplit, hlength⟩ := Memory.lastOf_split m.recentRecords records
  exact ⟨rfl, _, _, hsplit.symm, hlength, rfl, Memory.joined_lastOf m.recentRecords records⟩

/-- Without a summary the end of the history stands behind the mark of an
omission. -/
theorem afterSummary_error (e : PipelineError) :
    let window := afterSummary m records skipped (.error e)
    window.compaction = .truncated ∧
      ∃ front tail, Memory.joined records = front ++ tail ∧
        tail.length = min m.truncateChars (Memory.joined records).length ∧
        window.text = "...[Earlier conversation omitted]...\n\n" ++ tail := by
  obtain ⟨front, hfront, hlength⟩ :=
    Memory.tailChars_split (Memory.joined records) m.truncateChars
  exact ⟨rfl, front, _, hfront, hlength, rfl⟩

theorem afterSummary_compaction (summary : Except PipelineError String) :
    (afterSummary m records skipped summary).compaction ≠ .none := by
  cases summary <;> simp [afterSummary]

end Loading

namespace Hall

variable {W : Type} {p : Ports W} {h : Hall W} {room : String} {key : RoomKey}
  {blobs : List (List UInt8)} {records : List String}

/-- A history that fits is shown as it is. -/
theorem window_of_fits
    (hread : (p.listRecords room h.desk.memory.maxRecords h.world).2 = .ok blobs)
    (hrecords : blobs.filterMap (p.readable key) = records) (hsome : records ≠ [])
    (hfits : Loading.fits h.desk.memory records = true) :
    (h.window p room key).2.text = Memory.joined records ∧
      (h.window p room key).2.compaction = .none ∧
      h.windowUses p room key = [.listRecords room h.desk.memory.maxRecords] := by
  obtain ⟨hof, hhanded⟩ := Loading.windowOf_fits hsome hfits (blobs.length - records.length)
    (h.summaryOf p room (Memory.joined records))
  rw [window_of_read hread hrecords, windowUses_of_read hread hrecords, hof, hhanded]
  exact ⟨rfl, rfl, rfl⟩

/-- One that does not fit is handed over, and reduced by what comes back. -/
theorem window_of_over
    (hread : (p.listRecords room h.desk.memory.maxRecords h.world).2 = .ok blobs)
    (hrecords : blobs.filterMap (p.readable key) = records) (hsome : records ≠ [])
    (hfits : Loading.fits h.desk.memory records = false) :
    (h.window p room key).2 = Loading.afterSummary h.desk.memory records
        (blobs.length - records.length) (h.summaryOf p room (Memory.joined records)) ∧
      h.windowUses p room key =
        [.listRecords room h.desk.memory.maxRecords, .summarize (Memory.joined records)] := by
  obtain ⟨hof, hhanded⟩ := Loading.windowOf_over hsome hfits (blobs.length - records.length)
    (h.summaryOf p room (Memory.joined records))
  rw [window_of_read hread hrecords, windowUses_of_read hread hrecords, hof, hhanded]
  exact ⟨rfl, rfl⟩

/-- **The newest history stays word for word.** When a load has read records that
it can open, their join is shown as it is, and the summarizer not asked, just
when its estimate is within the threshold. Otherwise the summarizer is asked
once, about all of it. Behind a summary stand the latest records, as many as are
wanted and there are, and behind the mark of an omission the latest characters.
Either is the end of the history, and the compaction names the case. -/
theorem newest_verbatim
    (hread : (p.listRecords room h.desk.memory.maxRecords h.world).2 = .ok blobs)
    (hrecords : blobs.filterMap (p.readable key) = records) (hsome : records ≠ [])
    (hthreshold : h.desk.memory.tokenThreshold < 2 ^ 32)
    (hwords : Text.wordCount (Memory.joined records) < 2 ^ 64) :
    let m := h.desk.memory
    let history := Memory.joined records
    let within := Memory.estimateTokens history ≤ (UInt32.ofNat m.tokenThreshold).toFloat
    let window := (h.window p room key).2
    let read := PortUse.listRecords room m.maxRecords
    (within ↔ window.text = history ∧ h.windowUses p room key = [read]) ∧
      (within ↔ window.compaction = .none) ∧
      (¬ within → h.windowUses p room key = [read, .summarize history] ∧
        (∀ summary, h.summaryOf p room history = .ok summary →
          window.compaction = .summarized ∧
          ∃ older recent, records = older ++ recent ∧
            recent.length = min m.recentRecords records.length ∧
            window.text = "[SUMMARY OF PREVIOUS CONVERSATION]: " ++ summary ++
              "\n\n[RECENT MESSAGES]:\n" ++ Memory.joined recent ∧
            ∃ front, history = front ++ Memory.joined recent) ∧
        ∀ e, h.summaryOf p room history = .error e →
          window.compaction = .truncated ∧
          ∃ front tail, history = front ++ tail ∧
            tail.length = min m.truncateChars history.length ∧
            window.text = "...[Earlier conversation omitted]...\n\n" ++ tail) := by
  intro m history within window read
  have hwithin : within ↔ Loading.fits m records = true :=
    Memory.estimateTokens_le_iff hwords hthreshold
  cases hfits : Loading.fits m records with
  | true =>
    obtain ⟨htext, hcompaction, huses⟩ := window_of_fits hread hrecords hsome hfits
    have hin : within := hwithin.2 hfits
    exact ⟨iff_of_true hin ⟨htext, huses⟩, iff_of_true hin hcompaction,
      fun hnot => absurd hin hnot⟩
  | false =>
    obtain ⟨hwindow, huses⟩ : window = _ ∧ _ := window_of_over hread hrecords hsome hfits
    have hnot : ¬ within := by rw [hwithin, hfits]; exact Bool.false_ne_true
    refine ⟨iff_of_false hnot fun hshown => ?_, iff_of_false hnot ?_, fun _ =>
      ⟨huses, fun summary hsummary => ?_, fun e he => ?_⟩⟩
    · -- a history that is handed over is a use more
      have hone := huses.symm.trans hshown.2
      simp at hone
    · rw [hwindow]
      exact Loading.afterSummary_compaction _
    · rw [hwindow, hsummary]
      exact Loading.afterSummary_ok summary
    · rw [hwindow, he]
      exact Loading.afterSummary_error e

end Hall

namespace Rehearsal

/-- Six exchanges, two more than a summary leaves word for word. -/
def talk : List String :=
  [Memory.exchange "one" "1", Memory.exchange "two" "2", Memory.exchange "three" "3",
    Memory.exchange "four" "4", Memory.exchange "five" "5", Memory.exchange "six" "6"]

/-- The records of the six exchanges. -/
def sealedTalk : List (List UInt8) :=
  talk.map fun text => markedEncrypt (.uniform 7) (Text.Utf8.encode text)

/-- Every record of the talk is read. -/
theorem readable_sealedTalk :
    sealedTalk.filterMap ((ports false).readable (.uniform 7)) = talk := by
  have hread : ((ports false).readable (.uniform 7) ∘
      fun text => markedEncrypt (.uniform 7) (Text.Utf8.encode text)) = some :=
    funext (readable_markedEncrypt (.uniform 7))
  rw [sealedTalk, List.filterMap_map, hread, List.filterMap_some]

end Rehearsal

namespace Hall

/-- A hall with six exchanges in its lobby, a budget of one token, fourteen
characters to cut to and an answer of the summarizer. -/
def talkative (summary : Except PipelineError String) : Hall Rehearsal where
  desk := { Desk.ofSettings {} .small with memory := { tokenThreshold := 1, truncateChars := 14 } }
  world := { records := Table.empty.put "lobby" Rehearsal.sealedTalk, summary }
  now := 0

/-- Six exchanges are over a budget of one token. Behind a summary stand the last
four, and without one the last fourteen characters. The summarizer is asked about
all six. -/
theorem newest_verbatim_talk :
    let load := fun summary =>
      ((talkative summary).window (Rehearsal.ports false) "lobby" (.uniform 7)).2
    let uses := fun summary =>
      (talkative summary).windowUses (Rehearsal.ports false) "lobby" (.uniform 7)
    ((load (.ok "a count")).compaction = .summarized ∧
        (load (.ok "a count")).text = "[SUMMARY OF PREVIOUS CONVERSATION]: a count" ++
          "\n\n[RECENT MESSAGES]:\nUser: three\nAI: 3\nUser: four\nAI: 4\n" ++
          "User: five\nAI: 5\nUser: six\nAI: 6") ∧
      ((load (.error .emptyResponse)).compaction = .truncated ∧
        (load (.error .emptyResponse)).text =
          "...[Earlier conversation omitted]...\n\n" ++ "ser: six\nAI: 6") ∧
      ∀ summary, uses summary = [.listRecords "lobby" 100, .summarize
        ("User: one\nAI: 1\nUser: two\nAI: 2\nUser: three\nAI: 3\nUser: four\nAI: 4\n" ++
          "User: five\nAI: 5\nUser: six\nAI: 6")] := by
  intro load uses
  have hstored : ∀ summary, ((Rehearsal.ports false).listRecords "lobby"
      (talkative summary).desk.memory.maxRecords (talkative summary).world).2 =
      .ok Rehearsal.sealedTalk := fun _ => rfl
  have hover : ¬ Memory.estimateTokens (Memory.joined Rehearsal.talk) ≤
      (UInt32.ofNat 1).toFloat := by
    decide +kernel
  have hwords : Text.wordCount (Memory.joined Rehearsal.talk) < 2 ^ 64 := by decide +kernel
  have hcases := fun summary => (newest_verbatim (hstored summary)
    Rehearsal.readable_sealedTalk (by decide) (show 1 < 2 ^ 32 by decide) hwords).2.2 hover
  refine ⟨?_, ?_, fun summary => (hcases summary).1⟩
  · obtain ⟨-, hsummarized, -⟩ := hcases (.ok "a count")
    obtain ⟨hcompaction, older, recent, hrecords, hlength, htext, -⟩ := hsummarized _ rfl
    -- four of six are wanted, so two are left out
    have holder : older.length = 2 := by
      have hall : 6 = older.length + 4 := by
        rw [← show recent.length = 4 from hlength, ← List.length_append, ← hrecords]
        rfl
      omega
    have hrecent : recent = Rehearsal.talk.drop 2 := by
      rw [hrecords, List.drop_left' holder]
    refine ⟨hcompaction, htext.trans ?_⟩
    rw [hrecent]
    rfl
  · obtain ⟨-, -, htruncated⟩ := hcases (.error .emptyResponse)
    obtain ⟨hcompaction, front, tail, hhistory, hlength, htext⟩ := htruncated _ rfl
    have hcut : Memory.tailChars (Memory.joined Rehearsal.talk) 14 = tail := by
      rw [hhistory] at hlength ⊢
      exact Memory.tailChars_append hlength
    have htail : tail = "ser: six\nAI: 6" := hcut.symm.trans (by decide +kernel)
    rw [htail] at htext
    exact ⟨hcompaction, htext⟩

end Hall

end Colloquy
