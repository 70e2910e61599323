import Colloquy.Proofs.Dispatch.Play
import Colloquy.Proofs.Text.Utf8
/-!
# What a pipeline is told

The context of a pipeline is the end of what has been said in its room since
its history was last forgotten. `told` reads that off the log of a run, with
nothing in it of how exchanges are stored; `context_eq_told` says that over a
store that does not fail and a cipher that reads back what it sealed, this is
the context of every attempt.
-/

namespace Colloquy

/-- Ports that do not fail, as long as their world is good: the records of
every room are listed, written and deleted, a room has no key but its own, and
what is sealed under a key opens again. -/
structure Ports.Steady {W : Type} (p : Ports W) (good : W → Prop)
    (records : W → String → List (List UInt8)) (keyOf : String → RoomKey) : Prop where
  keeps : ∀ w u, good w → good (p.after w u)
  read : ∀ w u, good w → u.isWrite = false → records (p.after w u) = records w
  listed : ∀ w room limit, good w →
    (p.listRecords room limit w).2 = .ok (Memory.lastOf limit (records w room))
  appended : ∀ w room record, good w → (p.appendRecord room record w).2 = .ok () ∧
    records (p.appendRecord room record w).1 = shelve (records w) room [record]
  deleted : ∀ w room, good w → (∃ count, (p.deleteRecords room w).2 = .ok count) ∧
    records (p.deleteRecords room w).1 = fun q => if q = room then [] else records w q
  keyed : ∀ w room key, good w → (p.lookupKey room w).2 = .ok (some key) → key = keyOf room
  sealed : ∀ w key plaintext, good w → ∃ record, (p.encrypt key plaintext w).2 = .ok record ∧
    p.decrypt key record = .ok plaintext

namespace Rehearsal

theorem markedDecrypt_markedEncrypt (key : RoomKey) (plaintext : List UInt8) :
    markedDecrypt key (markedEncrypt key plaintext) = .ok plaintext := by
  have hxor : ∀ b : UInt8, b ^^^ mark key ^^^ mark key = b := fun b => by
    rw [UInt8.xor_assoc, UInt8.xor_self, UInt8.xor_zero]
  simp only [markedEncrypt, markedDecrypt, if_true, List.map_map, Function.comp_def, hxor,
    List.map_id']

end Rehearsal

namespace Hall

/-- What is said in a room with one more entry of the log: an answer of the
pipeline adds its exchange, and nothing is left of a history that is
forgotten. -/
def tell (room : String) (said : List String) : Entry → List String
  | .command r _ _ (.replied ⟨text, .pipeline⟩) =>
    if r.room = room then said ++ [Memory.exchange r.command.content text] else said
  | .forgot q (.ok _) => if q = room then [] else said
  | _ => said

/-- **What has been said in a room** since its history was last forgotten, the
oldest first. -/
def told (room : String) (log : List Entry) : List String := log.foldl (tell room) []

/-- The end of it that is read back. -/
def recalled (m : MemorySettings) (room : String) (log : List Entry) : List String :=
  Memory.lastOf m.maxRecords (told room log)

theorem told_concat (room : String) (log : List Entry) (e : Entry) :
    told room (log ++ [e]) = tell room (told room log) e := by
  simp only [told, List.foldl_append, List.foldl_cons, List.foldl_nil]

variable {W : Type} {p : Ports W} {good : W → Prop} {records : W → String → List (List UInt8)}
  {keyOf : String → RoomKey}

/-- **The store holds what has been said**: the records of every room open to
its exchanges, in order. -/
structure Recalls (p : Ports W) (good : W → Prop) (records : W → String → List (List UInt8))
    (keyOf : String → RoomKey) (h : Hall W) (log : List Entry) : Prop where
  world : good h.world
  read : ∀ room,
    (records h.world room).map (p.readable (keyOf room)) = (told room log).map some

/-! ## One command -/

/-- An exchange that is filed by steady ports is behind the records of its
room, and opens. -/
theorem records_of_keep (hp : p.Steady good records keyOf) (room : String) (key : RoomKey)
    (plaintext : String) {s : Scene W} (hs : good s.world) :
    good (p.keep room key plaintext s).world ∧
      ∃ record, p.readable key record = some plaintext ∧
        records (p.keep room key plaintext s).world = shelve (records s.world) room [record] := by
  obtain ⟨record, hsealed, hopened⟩ := hp.sealed s.world key (Text.Utf8.encode plaintext) hs
  have hgood := hp.keeps s.world (.encrypt key (Text.Utf8.encode plaintext)) hs
  obtain ⟨hwritten, hbehind⟩ := hp.appended _ room record hgood
  have hread := hp.read s.world (.encrypt key (Text.Utf8.encode plaintext)) hs rfl
  have hkeep : (p.keep room key plaintext s).world =
      (p.appendRecord room record (p.after s.world (.encrypt key (Text.Utf8.encode plaintext)))).1 := by
    simp only [Ports.keep, Ports.file, Ports.write, Saving.recordOf, hsealed]
    simp only [Ports.after] at hwritten ⊢
    rw [hwritten]
  -- the first write goes through, so the store is never reopened
  refine ⟨?_, record, ?_, ?_⟩
  · rw [hkeep]
    exact hp.keeps _ (.appendRecord room record) hgood
  · simp only [Ports.readable, hopened, Text.Utf8.decode?_encode]
  · rw [hkeep, hbehind, hread]

/-- What a steady world keeps while it is only read. -/
theorem Steady.read_keeps (hp : p.Steady good records keyOf) (w₀ : W) (w : W) (u : PortUse)
    (hu : u.isWrite = false) (hw : good w ∧ records w = records w₀) :
    good (p.after w u) ∧ records (p.after w u) = records w₀ :=
  ⟨hp.keeps w u hw.1, (hp.read w u hw.1 hu).trans hw.2⟩

/-- An entry that says nothing, over records that are what they were. -/
theorem Recalls.quiet {h h' : Hall W} {log : List Entry} (hh : Recalls p good records keyOf h log)
    {e : Entry} (hw : good h'.world ∧ records h'.world = records h.world)
    (he : ∀ room said, tell room said e = said) :
    Recalls p good records keyOf h' (log ++ [e]) where
  world := hw.1
  read room := by
    rw [hw.2, told_concat, he]
    exact hh.read room

/-- **A command is recalled**: of its courses the answer of the pipeline alone
adds a record, and what it adds opens to the exchange. -/
theorem Recalls.course (hp : p.Steady good records keyOf) {h : Hall W} {log : List Entry}
    (hh : Recalls p good records keyOf h log) {r : Request} {out : Hall W × Outcome}
    (hc : Course p h r out) (asked ended : Nat) :
    Recalls p good records keyOf out.1 (log ++ [.command r asked ended out.2]) := by
  have hread := Steady.read_keeps hp h.world
  have hw : good h.world ∧ records h.world = records h.world := ⟨hh.world, rfl⟩
  cases hc with
  | overflow => exact hh.quiet hw fun _ _ => rfl
  | limited => exact hh.quiet hw fun _ _ => rfl
  | cached => exact hh.quiet hw fun _ _ => rfl
  | unknown _ _ hwhy =>
    rcases hwhy with ⟨-, rfl⟩ | ⟨-, -, rfl⟩
    · exact hh.quiet hw fun _ _ => rfl
    · exact hh.quiet hw fun _ _ => rfl
  | registryFailed _ hkey =>
    obtain ⟨rfl, -⟩ := Prod.mk.inj hkey
    exact hh.quiet (hread _ (.lookupKey r.room) rfl hw) fun _ _ => rfl
  | unregistered _ hkey =>
    obtain ⟨rfl, -⟩ := Prod.mk.inj hkey
    exact hh.quiet (hread _ (.lookupKey r.room) rfl hw) fun _ _ => rfl
  | failed _ hkey hwindow hask =>
    exact hh.quiet (Ports.asked_keeps hread hkey hwindow hask hw) fun _ _ => rfl
  | @answered agent task key s₁ s₂ s₃ s₄ window text _ hkey hwindow hask hkeep =>
    obtain ⟨hgood, hsame⟩ := Ports.asked_keeps hread hkey hwindow hask hw
    obtain ⟨hgood', record, hopens, hbehind⟩ := records_of_keep hp r.room key
      (Memory.exchange r.command.content text) hgood
    obtain rfl : key = keyOf r.room :=
      hp.keyed h.world r.room key hh.world (congrArg (fun found => found.2) hkey)
    rw [hkeep] at hgood' hbehind
    refine ⟨hgood', fun room => ?_⟩
    -- the new record is one of its own room, and so is the new exchange
    have hroom := hh.read room
    rw [told_concat, hbehind, hsame]
    simp only [shelve, tell]
    by_cases hq : room = r.room
    · subst hq
      rw [if_pos rfl, if_pos rfl, List.map_append, List.map_append, hroom, List.map_singleton,
        hopens]
      rfl
    · rw [if_neg hq, if_neg (Ne.symm hq)]
      exact hroom

/-- **Every act is recalled.** -/
theorem Recalls.perform (hp : p.Steady good records keyOf) (h : Hall W) (log : List Entry)
    (a : Act) (hh : Recalls p good records keyOf h log) :
    Recalls p good records keyOf (h.perform p a).1 (log ++ [(h.perform p a).2]) := by
  cases a with
  | command r =>
    exact hh.course hp (command_course_none p h r) _ _
  | forget room =>
    obtain ⟨⟨count, hok⟩, hgone⟩ := hp.deleted h.world room hh.world
    refine ⟨hp.keeps h.world (.deleteRecords room) hh.world, fun q => ?_⟩
    have hroom := hh.read q
    simp only [Hall.perform, forget, hok, told_concat, tell, hgone]
    by_cases hq : q = room
    · subst hq
      rw [if_pos rfl, if_pos rfl]
      rfl
    · rw [if_neg hq, if_neg (Ne.symm hq)]
      exact hroom
  | wait ms => exact hh.quiet ⟨hh.world, rfl⟩ fun _ _ => rfl

/-! ## What is loaded -/

theorem lastOf_map {α β : Type} (f : α → β) (count : Nat) (items : List α) :
    (Memory.lastOf count items).map f = Memory.lastOf count (items.map f) := by
  simp only [Memory.lastOf, List.map_drop, List.length_map]

/-- The window of readable records that fit their budget is all of them. -/
theorem fetchWindow_text {m : MemorySettings} {room : String} {key : RoomKey} {s : Scene W}
    {blobs : List (List UInt8)} {texts : List String}
    (hlist : (p.listRecords room m.maxRecords s.world).2 = .ok blobs)
    (hread : blobs.map (p.readable key) = texts.map some)
    (hfits : texts ≠ [] → Loading.fits m texts = true) :
    (p.fetchWindow m room key s).2.text = Memory.joined texts := by
  have hfilter : blobs.filterMap (p.readable key) = texts := by
    have hid := congrArg (List.filterMap id) hread
    rwa [List.filterMap_map, List.filterMap_map, Function.id_comp, Function.id_comp,
      List.filterMap_some] at hid
  simp only [Ports.fetchWindow, hlist, Loading.afterRead, hfilter, Loading.ofRecords]
  cases texts with
  | nil => rfl
  | cons text texts =>
    rw [if_neg (by simp), if_pos (hfits (by simp))]
    rfl

/-- The attempts that are asked for see one context. -/
theorem context_of_mem_askingUses {limit calls : Nat} {r : Request} {summaries : List String}
    {agent agent' : AgentSpec} {task task' : TaskSpec} {context context' input : String}
    (hu : .invoke agent' task' context' input ∈
      askingUses limit r summaries calls agent task context) : context' = context := by
  simp only [askingUses, List.mem_cons, List.mem_append, List.mem_map, List.mem_replicate,
    reduceCtorEq, false_or, and_false, exists_false, PortUse.invoke.injEq] at hu
  exact hu.2.2.2.1

/-- **A command that asks the pipeline** has loaded the window of its room, and
hands that on. -/
theorem Course.window {h : Hall W} {r : Request} {out : Hall (W × List PortUse) × Outcome}
    (hc : Course p.noted h.noting r out) {agent : AgentSpec} {task : TaskSpec}
    {context input : String} (hu : .invoke agent task context input ∈ out.1.world.2) :
    ∃ key s₁, p.noted.fetchKey r.room ⟨(h.world, []), h.now⟩ = (s₁, .ok (some key)) ∧
      context = (p.noted.fetchWindow h.desk.memory r.room key s₁).2.text := by
  cases hc with
  | overflow => cases hu
  | limited => cases hu
  | cached => cases hu
  | unknown => cases hu
  | registryFailed _ hkey =>
    rw [uses_of_fetchKey hkey] at hu
    simp at hu
  | unregistered _ hkey =>
    rw [uses_of_fetchKey hkey] at hu
    simp at hu
  | @failed _ _ key s₁ s₂ s₃ window e _ hkey hwindow hask =>
    obtain ⟨summaries, calls, -, -, -, -, huses⟩ := uses_of_ask hkey hwindow hask
    refine ⟨key, s₁, hkey, ?_⟩
    rw [huses] at hu
    rw [context_of_mem_askingUses hu]
    exact congrArg (fun found => found.2.text) hwindow.symm
  | @answered _ _ key s₁ s₂ s₃ s₄ window text _ hkey hwindow hask hkeep =>
    obtain ⟨summaries, calls, -, -, -, -, huses⟩ := uses_of_ask hkey hwindow hask
    obtain ⟨record, writes, hwrites, hkept⟩ :=
      Ports.keep_uses (p := p) r.room key (Memory.exchange r.command.content text) s₃
    rw [hkeep, huses] at hkept
    refine ⟨key, s₁, hkey, ?_⟩
    simp only [hkept, List.mem_append, List.mem_cons, reduceCtorEq, false_or] at hu
    rcases hu with hu | hu
    · rw [context_of_mem_askingUses hu]
      exact congrArg (fun found => found.2.text) hwindow.symm
    · -- a save calls no pipeline
      simp only [Ports.fileUses, List.mem_cons, List.not_mem_nil, or_false] at hwrites
      rcases hwrites with rfl | rfl | rfl <;> simp at hu

/-- What is recalled is what an attempt is told. -/
theorem Recalls.context (hp : p.Steady good records keyOf) {h : Hall W} {log : List Entry}
    (hh : Recalls p good records keyOf h log) {r : Request}
    (hfits : recalled h.desk.memory r.room log ≠ [] →
      Loading.fits h.desk.memory (recalled h.desk.memory r.room log) = true)
    {agent : AgentSpec} {task : TaskSpec} {context input : String}
    (hu : .invoke agent task context input ∈ h.usesOf p r none) :
    context = Memory.joined (recalled h.desk.memory r.room log) := by
  obtain ⟨key, s₁, hkey, rfl⟩ := (command_course_none p.noted h.noting r).window hu
  obtain rfl : key = keyOf r.room :=
    hp.keyed h.world r.room key hh.world (congrArg (fun found => found.2) hkey)
  obtain ⟨rfl, -⟩ := Prod.mk.inj hkey
  -- looking up the key leaves the records where they were
  obtain ⟨hgood, hsame⟩ :=
    Steady.read_keeps hp h.world h.world (.lookupKey r.room) rfl ⟨hh.world, rfl⟩
  have hlist := hp.listed _ r.room h.desk.memory.maxRecords hgood
  rw [hsame] at hlist
  refine fetchWindow_text (p := p.noted) hlist ?_ hfits
  rw [recalled, lastOf_map, lastOf_map, ← hh.read r.room]
  rfl

end Hall

end Colloquy
