import Colloquy.Proofs.Dispatch.Recall
/-!
# What a load makes of the records it reads

A load reads the records of a room, and with them in hand it is a function of
those that can be read, of how many cannot, and of the answer of the summarizer
(`Loading.windowOf`); what it hands to the summarizer is a function of those
that can be read alone (`Loading.handed`). Every record is either loaded or
skipped (`loaded_add_skipped`), and a record that cannot be read is counted and
otherwise left out: `unreadable_apart` says that with any number of them put
anywhere among the records of a room, a load differs in that count alone.
-/

namespace Colloquy

/-! ## A load with its records in hand -/

namespace Loading

/-- The window of decrypted records, when the summarizer answers as given. -/
def windowOf (m : MemorySettings) (records : List String) (skipped : Nat)
    (summary : Except PipelineError String) : ConversationWindow :=
  match ofRecords m records skipped with
  | .reading => .empty
  | .loaded window => window
  | .summarizing records skipped => afterSummary m records skipped summary

/-- The histories that are handed to the summarizer. -/
def handed (m : MemorySettings) (records : List String) : List String :=
  match ofRecords m records 0 with
  | .summarizing records _ => [Memory.joined records]
  | _ => []

variable {m : MemorySettings} {records : List String}

/-- Without records there is an empty window. -/
theorem windowOf_nil (m : MemorySettings) (skipped : Nat)
    (summary : Except PipelineError String) :
    windowOf m [] skipped summary = { ConversationWindow.empty with recordsSkipped := skipped } :=
  rfl

/-- Records that fit their budget are loaded as they are. -/
theorem ofRecords_fits (hrecords : records ≠ []) (hfits : fits m records = true)
    (skipped : Nat) : ofRecords m records skipped =
      .loaded ⟨Memory.joined records, records.length, skipped, .none⟩ := by
  simp only [ofRecords, List.isEmpty_iff, if_neg hrecords, if_pos hfits]

/-- Records over their budget wait for a summary. -/
theorem ofRecords_over (hrecords : records ≠ []) (hfits : fits m records = false)
    (skipped : Nat) : ofRecords m records skipped = .summarizing records skipped := by
  simp only [ofRecords, List.isEmpty_iff, if_neg hrecords, hfits, if_neg Bool.false_ne_true]

/-- **Records are loaded, or they wait for a summary** and are handed over. -/
theorem ofRecords_cases (m : MemorySettings) (records : List String) (skipped : Nat) :
    (∃ window, ofRecords m records skipped = .loaded window ∧ handed m records = []) ∨
      ofRecords m records skipped = .summarizing records skipped ∧
        handed m records = [Memory.joined records] := by
  by_cases hrecords : records = []
  · exact .inl ⟨_, by rw [hrecords]; rfl, by rw [hrecords]; rfl⟩
  · cases hfits : fits m records with
    | true =>
      exact .inl ⟨_, ofRecords_fits hrecords hfits skipped,
        by rw [handed, ofRecords_fits hrecords hfits]⟩
    | false =>
      exact .inr ⟨ofRecords_over hrecords hfits skipped,
        by rw [handed, ofRecords_over hrecords hfits]⟩

/-- Records that fit are shown as they are, and nothing is handed over. -/
theorem windowOf_fits (hrecords : records ≠ []) (hfits : fits m records = true) (skipped : Nat)
    (summary : Except PipelineError String) :
    windowOf m records skipped summary =
        ⟨Memory.joined records, records.length, skipped, .none⟩ ∧ handed m records = [] := by
  simp only [windowOf, handed, ofRecords_fits hrecords hfits, and_self]

/-- Records that do not fit are handed over, joined. -/
theorem windowOf_over (hrecords : records ≠ []) (hfits : fits m records = false) (skipped : Nat)
    (summary : Except PipelineError String) :
    windowOf m records skipped summary = afterSummary m records skipped summary ∧
      handed m records = [Memory.joined records] := by
  simp only [windowOf, handed, ofRecords_over hrecords hfits, and_self]

/-- **A window counts what is loaded and what is skipped**, whatever becomes of
the rest. -/
theorem windowOf_counts (m : MemorySettings) (records : List String) (skipped : Nat)
    (summary : Except PipelineError String) :
    (windowOf m records skipped summary).recordsLoaded = records.length ∧
      (windowOf m records skipped summary).recordsSkipped = skipped := by
  by_cases hrecords : records = []
  · rw [hrecords, windowOf_nil]
    exact ⟨rfl, rfl⟩
  · cases hfits : fits m records with
    | true =>
      rw [(windowOf_fits hrecords hfits skipped summary).1]
      exact ⟨rfl, rfl⟩
    | false =>
      rw [(windowOf_over hrecords hfits skipped summary).1]
      cases summary <;> exact ⟨rfl, rfl⟩

/-- **The number of skipped records is told and not looked at.** -/
theorem windowOf_skipped (m : MemorySettings) (records : List String) (skipped skipped' : Nat)
    (summary : Except PipelineError String) :
    windowOf m records skipped' summary =
      { windowOf m records skipped summary with recordsSkipped := skipped' } := by
  by_cases hrecords : records = []
  · rw [hrecords, windowOf_nil, windowOf_nil]
  · cases hfits : fits m records with
    | true =>
      rw [(windowOf_fits hrecords hfits skipped summary).1,
        (windowOf_fits hrecords hfits skipped' summary).1]
    | false =>
      rw [(windowOf_over hrecords hfits skipped summary).1,
        (windowOf_over hrecords hfits skipped' summary).1]
      cases summary <;> rfl

/-- Only records over budget are reduced. -/
theorem compaction_of_loaded {m : MemorySettings} {readable : List UInt8 → Option String}
    {result : Except StorageError (List (List UInt8))} {window : ConversationWindow}
    (h : afterRead m readable result = .loaded window) : window.compaction = .none := by
  cases result with
  | error e => cases h; rfl
  | ok blobs =>
    simp only [afterRead, ofRecords] at h
    split at h
    · cases h; rfl
    · split at h
      · cases h; rfl
      · cases h

end Loading

/-! ## A load, and what it uses -/

namespace Hall

variable {W : Type} {p : Ports W} {h : Hall W} {room : String} {key : RoomKey}
  {blobs : List (List UInt8)} {records : List String}

/-- What a load uses of its ports, in order. -/
def windowUses (p : Ports W) (h : Hall W) (room : String) (key : RoomKey) : List PortUse :=
  (h.noting.window p.noted room key).1.world.2

/-- The answer of the summarizer to a history, when the records of a room have
been read. -/
def summaryOf (p : Ports W) (h : Hall W) (room : String) (history : String) :
    Except PipelineError String :=
  (p.summarize history (p.listRecords room h.desk.memory.maxRecords h.world).1).2.2

/-- What a load outside of any command comes to. -/
theorem window_eq (p : Ports W) (h : Hall W) (room : String) (key : RoomKey) :
    let m := h.desk.memory
    let read := p.listRecords room m.maxRecords h.world
    (h.window p room key).2 = match Loading.afterRead m (p.readable key) read.2 with
      | .loaded window => window
      | .reading => .empty
      | .summarizing records skipped => Loading.afterSummary m records skipped
          (p.summarize (Memory.joined records) read.1).2.2 := by
  simp only [window]
  cases Loading.afterRead h.desk.memory (p.readable key)
    (p.listRecords room h.desk.memory.maxRecords h.world).2 <;> rfl

/-- The window that a command loads is the one that is loaded outside of any
command. -/
theorem fetchWindow_eq_window (p : Ports W) (h : Hall W) (room : String) (key : RoomKey) :
    (p.fetchWindow h.desk.memory room key ⟨h.world, h.now⟩).1.world =
        (h.window p room key).1.world ∧
      (p.fetchWindow h.desk.memory room key ⟨h.world, h.now⟩).2 = (h.window p room key).2 := by
  simp only [Ports.fetchWindow, window]
  cases Loading.afterRead h.desk.memory (p.readable key)
    (p.listRecords room h.desk.memory.maxRecords h.world).2 <;> exact ⟨rfl, rfl⟩

/-- **Noting is not noticed** by a load either. -/
theorem window_noted (p : Ports W) (h : Hall W) (room : String) (key : RoomKey) :
    (h.noting.window p.noted room key).1.plain = (h.window p room key).1 ∧
      (h.noting.window p.noted room key).2 = (h.window p room key).2 := by
  have hload : Loading.afterRead h.noting.desk.memory (p.noted.readable key)
      (p.noted.listRecords room h.noting.desk.memory.maxRecords h.noting.world).2 =
      Loading.afterRead h.desk.memory (p.readable key)
        (p.listRecords room h.desk.memory.maxRecords h.world).2 := rfl
  simp only [window, hload]
  cases Loading.afterRead h.desk.memory (p.readable key)
    (p.listRecords room h.desk.memory.maxRecords h.world).2 <;> exact ⟨rfl, rfl⟩

/-- **A load that reads its records** is a function of those that can be read,
of the number of the others and of what the summarizer answers. -/
theorem window_of_read
    (hread : (p.listRecords room h.desk.memory.maxRecords h.world).2 = .ok blobs)
    (hrecords : blobs.filterMap (p.readable key) = records) :
    (h.window p room key).2 = Loading.windowOf h.desk.memory records
      (blobs.length - records.length) (h.summaryOf p room (Memory.joined records)) := by
  simp only [window, hread, Loading.afterRead, hrecords, Loading.windowOf, summaryOf]
  rcases Loading.ofRecords_cases h.desk.memory records (blobs.length - records.length) with
    ⟨window, hload, -⟩ | ⟨hload, -⟩ <;> rw [hload]

/-- A load uses the ports for the reading, and for a summary if it has a history to
hand over. -/
theorem windowUses_of_read
    (hread : (p.listRecords room h.desk.memory.maxRecords h.world).2 = .ok blobs)
    (hrecords : blobs.filterMap (p.readable key) = records) :
    h.windowUses p room key = .listRecords room h.desk.memory.maxRecords ::
      (Loading.handed h.desk.memory records).map .summarize := by
  have hnoted : (p.noted.listRecords room h.noting.desk.memory.maxRecords h.noting.world).2 =
      .ok blobs := hread
  simp only [windowUses, window, hnoted, Loading.afterRead]
  rw [show p.noted.readable key = p.readable key from rfl, hrecords]
  rcases Loading.ofRecords_cases h.desk.memory records (blobs.length - records.length) with
    ⟨window, hload, hhanded⟩ | ⟨hload, hhanded⟩ <;>
  · rw [hhanded, show h.noting.desk = h.desk from rfl, hload]
    rfl

/-- **Every record is loaded or skipped.** -/
theorem loaded_add_skipped
    (hread : (p.listRecords room h.desk.memory.maxRecords h.world).2 = .ok blobs) :
    (h.window p room key).2.recordsLoaded + (h.window p room key).2.recordsSkipped =
      blobs.length := by
  have hle : (blobs.filterMap (p.readable key)).length ≤ blobs.length :=
    List.length_filterMap_le _ _
  rw [window_of_read hread rfl, (Loading.windowOf_counts _ _ _ _).1,
    (Loading.windowOf_counts _ _ _ _).2]
  omega

end Hall

/-! ## Records that cannot be read -/

namespace Ports

variable {W : Type} {p : Ports W} {key : RoomKey} {record : List UInt8}

/-- A record that cannot be read under a key: the cipher rejects it, or it opens
to what is no UTF-8. -/
def Unreadable (p : Ports W) (key : RoomKey) (record : List UInt8) : Prop :=
  (∃ e, p.decrypt key record = .error e) ∨
    ∃ plaintext, p.decrypt key record = .ok plaintext ∧ Text.Utf8.decode? plaintext = none

theorem unreadable_iff : p.Unreadable key record ↔ p.readable key record = none := by
  unfold Unreadable readable
  cases p.decrypt key record <;> simp

/-- Two worlds alike but for what is stored in a room: they list the latest of
it, and their summarizers answer a history alike. -/
structure Alike (p : Ports W) (room : String) (w w' : W) (stored stored' : List (List UInt8)) :
    Prop where
  listed : ∀ limit, (p.listRecords room limit w).2 = .ok (Memory.lastOf limit stored)
  listed' : ∀ limit, (p.listRecords room limit w').2 = .ok (Memory.lastOf limit stored')
  summarized : ∀ limit history,
    (p.summarize history (p.listRecords room limit w').1).2.2 =
      (p.summarize history (p.listRecords room limit w).1).2.2

end Ports

/-- A list with a number of items of a kind put in, anywhere. -/
inductive Inserted {α : Type} (extra : α → Prop) : Nat → List α → List α → Prop where
  | nil : Inserted extra 0 [] []
  /-- An item that is in both lists. -/
  | kept {n : Nat} {a : α} {items items' : List α} :
      Inserted extra n items items' → Inserted extra n (a :: items) (a :: items')
  /-- An item that is put in. -/
  | more {n : Nat} {a : α} {items items' : List α} :
      extra a → Inserted extra n items items' → Inserted extra (n + 1) items (a :: items')

namespace Inserted

variable {α β : Type} {extra : α → Prop} {n : Nat} {items items' : List α}

theorem length (hi : Inserted extra n items items') : items'.length = items.length + n := by
  induction hi with
  | nil => rfl
  | kept _ ih => simp only [List.length_cons, ih]; omega
  | more _ _ ih => simp only [List.length_cons, ih]; omega

/-- What a reading makes nothing of leaves no trace in what is read. -/
theorem filterMap {f : α → Option β} (hextra : ∀ a, extra a → f a = none)
    (hi : Inserted extra n items items') : items'.filterMap f = items.filterMap f := by
  induction hi with
  | nil => rfl
  | kept _ ih => simp only [List.filterMap_cons, ih]
  | more ha _ ih => rw [List.filterMap_cons_none (hextra _ ha), ih]

end Inserted

/-- All of a list are its last items, when there are not more. -/
theorem Memory.lastOf_of_length_le {α : Type} {count : Nat} {items : List α}
    (hle : items.length ≤ count) : lastOf count items = items := by
  rw [lastOf, Nat.sub_eq_zero_of_le hle, List.drop_zero]

namespace Hall

variable {W : Type} {p : Ports W} {h h' : Hall W} {room : String} {key : RoomKey}
  {stored stored' : List (List UInt8)} {n : Nat}

/-- **A record that cannot be read never affects the rest.** Whatever the cipher,
the key and the settings, and with any number of unreadable records put anywhere
among those of a room, a load has the same text, the same records and the same
compaction, and asks the same of the store and the summarizer; the inserted
records are counted as skipped. And every load that reads its records has each
of them loaded or skipped. -/
theorem unreadable_apart (hmemory : h'.desk.memory = h.desk.memory)
    (halike : p.Alike room h.world h'.world stored stored')
    (hinserted : Inserted (p.Unreadable key) n stored stored')
    (hroom : stored'.length ≤ h.desk.memory.maxRecords) :
    (h'.window p room key).2 =
        { (h.window p room key).2 with
          recordsSkipped := (h.window p room key).2.recordsSkipped + n } ∧
      h'.windowUses p room key = h.windowUses p room key ∧
      ∀ (g : Hall W) (lobby : String) (key' : RoomKey) (blobs : List (List UInt8)),
        (p.listRecords lobby g.desk.memory.maxRecords g.world).2 = .ok blobs →
        (g.window p lobby key').2.recordsLoaded + (g.window p lobby key').2.recordsSkipped =
          blobs.length := by
  have hlength := hinserted.length
  have hread : (p.listRecords room h.desk.memory.maxRecords h.world).2 = .ok stored := by
    rw [halike.listed, Memory.lastOf_of_length_le (by omega)]
  have hread' : (p.listRecords room h'.desk.memory.maxRecords h'.world).2 = .ok stored' := by
    rw [halike.listed', hmemory, Memory.lastOf_of_length_le hroom]
  -- both loads read the same texts, and so hand over the same history
  have hrecords : stored'.filterMap (p.readable key) = stored.filterMap (p.readable key) :=
    hinserted.filterMap fun _ => Ports.unreadable_iff.mp
  have hsummary : ∀ history, h'.summaryOf p room history = h.summaryOf p room history := by
    intro history
    rw [summaryOf, summaryOf, hmemory, halike.summarized]
  refine ⟨?_, ?_, fun g lobby key' blobs hg => loaded_add_skipped hg⟩
  · have hle : (stored.filterMap (p.readable key)).length ≤ stored.length :=
      List.length_filterMap_le _ _
    rw [window_of_read hread' hrecords, window_of_read hread rfl, hsummary, hmemory,
      Loading.windowOf_skipped _ _ (stored.length - (stored.filterMap (p.readable key)).length),
      (Loading.windowOf_counts _ _ _ _).2,
      show stored'.length - (stored.filterMap (p.readable key)).length =
        stored.length - (stored.filterMap (p.readable key)).length + n by omega]
  · rw [windowUses_of_read hread' hrecords, windowUses_of_read hread rfl, hmemory]

end Hall

/-- Rehearsed worlds are alike when both can be read and have one answer to a
history. -/
theorem Rehearsal.alike {w w' : Rehearsal} (realCipher : Bool) (room : String)
    (hreads : w.failures.reads = none) (hreads' : w'.failures.reads = none)
    (hsummary : w'.summary = w.summary) :
    (Rehearsal.ports realCipher).Alike room w w' (w.recordsOf room) (w'.recordsOf room) where
  listed limit := by simp only [ports, listRecords, hreads, orFail]
  listed' limit := by simp only [ports, listRecords, hreads', orFail]
  summarized limit history := hsummary

namespace Rehearsal

/-- A marked record is read by its key. -/
theorem readable_markedEncrypt (key : RoomKey) (text : String) :
    (ports false).readable key (markedEncrypt key (Text.Utf8.encode text)) = some text := by
  simp only [Ports.readable, ports, Bool.false_eq_true, if_false, markedDecrypt_markedEncrypt,
    Text.Utf8.decode?_encode]

/-- A record of the lobby. -/
def greeting : List UInt8 :=
  markedEncrypt (.uniform 7) (Text.Utf8.encode (Memory.exchange "one" "1"))

/-- The record of the lobby between one of another key and one that opens to a byte
that no UTF-8 has. -/
def spoiled : List (List UInt8) := [[9, 1], greeting, [7, 248]]

end Rehearsal

namespace Hall

/-- A hall with the given records in its lobby, and a budget of one token. -/
def lobbyOf (records : List (List UInt8)) : Hall Rehearsal where
  desk := { Desk.ofSettings {} .small with memory := { tokenThreshold := 1 } }
  world := { records := Table.empty.put "lobby" records }
  now := 0

/-- The record that can be read is summarized as if it stood alone. -/
theorem unreadable_apart_around :
    ((lobbyOf Rehearsal.spoiled).window (Rehearsal.ports false) "lobby" (.uniform 7)).2 =
        { ((lobbyOf [Rehearsal.greeting]).window (Rehearsal.ports false) "lobby"
            (.uniform 7)).2 with recordsSkipped := 2 } ∧
      (lobbyOf Rehearsal.spoiled).windowUses (Rehearsal.ports false) "lobby" (.uniform 7) =
        [.listRecords "lobby" 100, .summarize (Memory.exchange "one" "1")] := by
  have hother : (Rehearsal.ports false).Unreadable (.uniform 7) [9, 1] :=
    .inl ⟨.decryptionFailed, rfl⟩
  have hinvalid : (Rehearsal.ports false).Unreadable (.uniform 7) [7, 248] :=
    .inr ⟨[255], rfl, rfl⟩
  have hread : [Rehearsal.greeting].filterMap ((Rehearsal.ports false).readable (.uniform 7)) =
      [Memory.exchange "one" "1"] :=
    List.filterMap_cons_some (Rehearsal.readable_markedEncrypt _ _)
  have hfits : Loading.fits (lobbyOf [Rehearsal.greeting]).desk.memory
      [Memory.exchange "one" "1"] = false := rfl
  have hmemory : (lobbyOf Rehearsal.spoiled).desk.memory =
      (lobbyOf [Rehearsal.greeting]).desk.memory := rfl
  obtain ⟨hwindow, huses, -⟩ :=
    unreadable_apart hmemory (Rehearsal.alike false "lobby" rfl rfl rfl)
      (.more hother (.kept (.more hinvalid .nil))) (by decide)
  have hstored : ((Rehearsal.ports false).listRecords "lobby"
      (lobbyOf [Rehearsal.greeting]).desk.memory.maxRecords
      (lobbyOf [Rehearsal.greeting]).world).2 = .ok [Rehearsal.greeting] := rfl
  refine ⟨?_, huses.trans ?_⟩
  · rw [hwindow, window_of_read hstored hread, (Loading.windowOf_counts _ _ _ _).2]
    rfl
  · rw [windowUses_of_read hstored hread,
      (Loading.windowOf_over (List.cons_ne_nil _ _) hfits 0 (.ok "summary")).2]
    rfl

end Hall

end Colloquy
