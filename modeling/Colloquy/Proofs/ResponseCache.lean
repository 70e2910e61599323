import Colloquy.ResponseCache
import Colloquy.Proofs.Table
/-!
# What the cache holds

A look at a key finds the reply of a live entry, and what it does to the
cache is to drop the entry of that key when it has expired (`get_eq`). A
write adds one entry and never makes an older one appear (`get?_set`).
-/

namespace Colloquy.ResponseCache

variable (c : ResponseCache)

/-- The cache without the entry of a key, if that has expired. -/
def dropExpired (now : Nat) (key : String) : ResponseCache :=
  match c.entries.get? key with
  | some e => if c.isLive now e then c else { c with entries := c.entries.erase key }
  | none => c

/-- The reply of the live entry of a key. -/
def live? (now : Nat) (key : String) : Option String :=
  ((c.entries.get? key).filter (c.isLive now)).map CacheEntry.response

theorem live?_empty (maxSize ttl now : Nat) (key : String) :
    (empty maxSize ttl).live? now key = none := by
  simp only [live?, empty, Table.get?_empty, Option.filter_none, Option.map_none]

/-- **A look at a key** gives the live reply and drops an expired entry. -/
theorem get_eq (now : Nat) (key : String) :
    c.get now key = (c.live? now key, c.dropExpired now key) := by
  simp only [get, live?, dropExpired]
  cases c.entries.get? key with
  | none => rfl
  | some e => cases hlive : c.isLive now e <;> simp [Option.filter, hlive]

/-- A live reply stands in an entry that is young enough. -/
theorem exists_entry_of_live? {now : Nat} {key text : String} (h : c.live? now key = some text) :
    ∃ e, c.entries.get? key = some e ∧ e.response = text ∧ now - e.createdAt < c.ttl := by
  simp only [live?, Option.map_eq_some_iff, Option.filter_eq_some_iff] at h
  obtain ⟨e, ⟨hget, hlive⟩, htext⟩ := h
  exact ⟨e, hget, htext, by simpa [isLive] using hlive⟩

/-- Where a live reply is found nothing is dropped. -/
theorem dropExpired_of_live {now : Nat} {key text : String} (h : c.live? now key = some text) :
    c.dropExpired now key = c := by
  obtain ⟨e, hget, -, hage⟩ := c.exists_entry_of_live? h
  simp only [dropExpired, hget]
  exact if_pos (by simpa [isLive] using hage)

/-! ## Entries come from writes -/

/-- A cache with nothing in it that another one does not have. -/
structure Within (c c' : ResponseCache) : Prop where
  ttl : c.ttl = c'.ttl
  maxSize : c.maxSize = c'.maxSize
  held : ∀ key e, c.entries.get? key = some e → c'.entries.get? key = some e

theorem Within.refl : c.Within c := ⟨rfl, rfl, fun _ _ h => h⟩

/-- Erasing a key uncovers nothing. -/
theorem erase_within (key : String) : Within { c with entries := c.entries.erase key } c := by
  refine ⟨rfl, rfl, fun other e h => ?_⟩
  simp only [Table.get?_erase] at h
  split at h
  · cases h
  · exact h

/-- Dropping an expired entry puts nothing into a cache. -/
theorem dropExpired_within (now : Nat) (key : String) : (c.dropExpired now key).Within c := by
  simp only [dropExpired]
  split
  · split
    · exact .refl c
    · exact c.erase_within key
  · exact .refl c

/-- An eviction puts nothing into a cache. -/
theorem evict_within : c.evict.Within c := by
  simp only [evict]
  split
  · exact .refl c
  · exact c.erase_within _

/-- A cache of size zero holds nothing. -/
def EmptyAtZero : Prop := c.maxSize = 0 → ∀ key, c.entries.get? key = none

theorem Within.emptyAtZero {c c' : ResponseCache} (h : c.Within c') (hc : c'.EmptyAtZero) :
    c.EmptyAtZero := by
  intro hzero key
  have hnone := hc (h.maxSize ▸ hzero) key
  cases hget : c.entries.get? key with
  | none => rfl
  | some e => rw [h.held key e hget] at hnone; cases hnone

theorem set_ttl (now : Nat) (key text : String) : (c.set now key text).ttl = c.ttl := by
  simp only [set]
  split
  · rfl
  · split
    · exact c.evict_within.ttl
    · rfl

theorem set_maxSize (now : Nat) (key text : String) :
    (c.set now key text).maxSize = c.maxSize := by
  simp only [set]
  split
  · rfl
  · split
    · exact c.evict_within.maxSize
    · rfl

variable {c}

theorem EmptyAtZero.set (hc : c.EmptyAtZero) (now : Nat) (key text : String) :
    (c.set now key text).EmptyAtZero := by
  intro hzero other
  rw [set_maxSize] at hzero
  rw [ResponseCache.set, if_pos hzero]
  exact hc hzero other

/-- **What stands in a cache behind a write** is what was written, under its
key, and otherwise stood there before. -/
theorem get?_of_set (hc : c.EmptyAtZero) {now : Nat} {key other text : String} {e : CacheEntry}
    (h : (c.set now key text).entries.get? other = some e) :
    key = other ∧ e = ⟨text, now⟩ ∨ key ≠ other ∧ c.entries.get? other = some e := by
  simp only [set] at h
  split at h
  · rename_i hzero
    rw [hc hzero other] at h
    cases h
  · simp only [Table.get?_put] at h
    by_cases hkey : key = other
    · rw [if_pos hkey] at h
      exact .inl ⟨hkey, (Option.some.inj h).symm⟩
    · rw [if_neg hkey] at h
      refine .inr ⟨hkey, ?_⟩
      split at h
      · exact c.evict_within.held _ _ h
      · exact h

/-- An entry behind a write is as old as the write, or stood there before. -/
theorem createdAt_of_get?_set {now : Nat} {key other text : String} {e : CacheEntry}
    (h : (c.set now key text).entries.get? other = some e) :
    e.createdAt = now ∨ c.entries.get? other = some e := by
  simp only [set] at h
  split at h
  · exact .inr h
  · simp only [Table.get?_put] at h
    split at h
    · exact .inl (by rw [← Option.some.inj h])
    · split at h
      · exact .inr (c.evict_within.held _ _ h)
      · exact .inr h

/-- A reply that is written is found at once. -/
theorem live?_set_self (hsize : c.maxSize ≠ 0) (httl : 0 < c.ttl) (now : Nat) (key text : String) :
    (c.set now key text).live? now key = some text := by
  have hput : (c.set now key text).entries.get? key = some ⟨text, now⟩ := by
    rw [set, if_neg hsize]
    exact Table.get?_put_self _ _ _
  have hlive : (c.set now key text).isLive now ⟨text, now⟩ = true := by
    simpa [isLive, set_ttl] using httl
  simp only [live?, hput, Option.filter, hlive, if_true, Option.map_some]

/-! ## What changes -/

/-- **An expired entry is gone**: a key that had no entry, or one that has expired,
has none, and the entries of other keys stay. -/
structure Lapsed (before after : ResponseCache) (now : Nat) (key : String) : Prop where
  maxSize : after.maxSize = before.maxSize
  ttl : after.ttl = before.ttl
  expired : ∀ e, before.entries.get? key = some e → before.ttl ≤ now - e.createdAt
  own : after.entries.get? key = none
  others : ∀ other, other ≠ key → after.entries.get? other = before.entries.get? other

/-- A look at a key that has no live reply leaves it without an entry. -/
theorem lapsed_dropExpired {now : Nat} {key : String} (h : c.live? now key = none) :
    c.Lapsed (c.dropExpired now key) now key := by
  cases hget : c.entries.get? key with
  | none =>
    have hsame : c.dropExpired now key = c := by simp only [dropExpired, hget]
    have hnever : ∀ e, c.entries.get? key ≠ some e := fun e he => by
      rw [hget] at he
      cases he
    rw [hsame]
    exact ⟨rfl, rfl, fun e he => absurd he (hnever e), hget, fun _ _ => rfl⟩
  | some e =>
    have hdead : ¬ now - e.createdAt < c.ttl := fun hlive => by
      simp [live?, hget, Option.filter, isLive, hlive] at h
    have herased : c.dropExpired now key = { c with entries := c.entries.erase key } := by
      simp only [dropExpired, hget, isLive, decide_eq_true_eq, if_neg hdead]
    rw [herased]
    refine ⟨rfl, rfl, fun e' he' => ?_, ?_, fun other hother => ?_⟩
    · obtain rfl := Option.some.inj (hget.symm.trans he')
      exact Nat.not_lt.1 hdead
    · exact (Table.get?_erase _ _ _).trans (if_pos rfl)
    · exact (Table.get?_erase _ _ _).trans (if_neg (Ne.symm hother))

/-- **A reply is kept** under its key, unless the cache keeps nothing. The entries of
other keys stay; one of them may have made room, if the cache was full without the
key. -/
structure Keeps (before after : ResponseCache) (now : Nat) (key text : String) : Prop where
  maxSize : after.maxSize = before.maxSize
  ttl : after.ttl = before.ttl
  own : after.entries.get? key =
    if before.maxSize = 0 then before.entries.get? key else some ⟨text, now⟩
  others : ∃ victim, ∀ other, other ≠ key →
    after.entries.get? other = before.entries.get? other ∨
      other = victim ∧ after.entries.get? other = none ∧
        before.entries.get? key = none ∧ before.maxSize ≤ before.size

/-- An eviction takes the entry of one key away. -/
theorem exists_evict_eq (c : ResponseCache) :
    ∃ victim, ∀ other, c.evict.entries.get? other = c.entries.get? other ∨
      other = victim ∧ c.evict.entries.get? other = none := by
  rw [evict]
  split
  · exact ⟨"", fun _ => .inl rfl⟩
  · rename_i victim createdAt _
    refine ⟨victim, fun other => ?_⟩
    simp only [Table.get?_erase]
    by_cases hother : victim = other
    · exact .inr ⟨hother.symm, if_pos hother⟩
    · exact .inl (if_neg hother)

/-- A write keeps its reply. -/
theorem keeps_set (c : ResponseCache) (now : Nat) (key text : String) :
    c.Keeps (c.set now key text) now key text := by
  refine ⟨c.set_maxSize now key text, c.set_ttl now key text, ?_, ?_⟩
  · rw [set]
    split
    · rfl
    · exact Table.get?_put_self _ _ _
  · obtain ⟨victim, hvictim⟩ := c.exists_evict_eq
    refine ⟨victim, fun other hother => ?_⟩
    rw [set]
    split
    · exact .inl rfl
    simp only [Table.get?_put, if_neg (Ne.symm hother)]
    split
    · -- the cache is full and does not have the key
      rename_i hfull
      rw [Bool.and_eq_true, decide_eq_true_eq, Bool.not_eq_true', Table.contains,
        Option.isSome_eq_false_iff, Option.isNone_iff_eq_none] at hfull
      exact (hvictim other).imp_right fun hlost => ⟨hlost.1, hlost.2, hfull.2, hfull.1⟩
    · exact .inl rfl

/-! ## Texts do not matter -/

/-- An entry without its text. -/
def blankEntry (e : CacheEntry) : CacheEntry := { e with response := "" }

/-- A cache without its texts: which keys it holds, since when, in which
order. -/
def blank (c : ResponseCache) : ResponseCache :=
  { c with entries := c.entries.mapValues blankEntry }

variable (c)

theorem get?_blank (key : String) :
    c.blank.entries.get? key = (c.entries.get? key).map blankEntry :=
  Table.get?_mapValues blankEntry c.entries key

theorem erase_blank (key : String) :
    ({ c with entries := c.entries.erase key } : ResponseCache).blank =
      { c.blank with entries := c.blank.entries.erase key } := by
  simp only [blank, Table.erase_mapValues]

theorem live?_blank (now : Nat) (key : String) :
    c.blank.live? now key = (c.live? now key).map fun _ => "" := by
  simp only [live?, get?_blank]
  cases c.entries.get? key with
  | none => rfl
  | some e =>
    simp only [Option.map_some, Option.filter_some]
    by_cases hlive : c.isLive now e = true
    · have hblank : c.blank.isLive now (blankEntry e) = true := hlive
      simp only [if_pos hlive, if_pos hblank, Option.map_some]
      rfl
    · have hblank : ¬ c.blank.isLive now (blankEntry e) = true := hlive
      simp only [if_neg hlive, if_neg hblank, Option.map_none]

theorem dropExpired_blank (now : Nat) (key : String) :
    (c.dropExpired now key).blank = c.blank.dropExpired now key := by
  simp only [dropExpired, get?_blank]
  cases c.entries.get? key with
  | none => rfl
  | some e =>
    simp only [Option.map_some]
    by_cases hlive : c.isLive now e = true
    · have hblank : c.blank.isLive now (blankEntry e) = true := hlive
      simp only [if_pos hlive, if_pos hblank]
    · have hblank : ¬ c.blank.isLive now (blankEntry e) = true := hlive
      simp only [if_neg hlive, if_neg hblank]
      exact c.erase_blank key

theorem oldestIn_blank : oldestIn c.blank.entries.entries = oldestIn c.entries.entries := by
  simp only [blank, Table.mapValues]
  induction c.entries.entries with
  | nil => rfl
  | cons entry rest ih =>
    simp only [List.map_cons, oldestIn, ih]
    rfl

theorem evict_blank : c.evict.blank = c.blank.evict := by
  simp only [evict, oldestIn_blank]
  split
  · rfl
  · exact c.erase_blank _

theorem put_blank (now : Nat) (key text : String) :
    ({ c with entries := c.entries.put key ⟨text, now⟩ } : ResponseCache).blank =
      { c.blank with entries := c.blank.entries.put key ⟨"", now⟩ } := by
  simp only [blank, Table.put_mapValues]
  rfl

/-- **A write does the same to the cache whatever it writes.** -/
theorem set_blank (now : Nat) (key text : String) :
    (c.set now key text).blank = c.blank.set now key "" := by
  have hmax : c.blank.maxSize = c.maxSize := rfl
  have hsize : c.blank.entries.size = c.entries.size := Table.size_mapValues _ _
  have hcontains : c.blank.entries.contains key = c.entries.contains key :=
    Table.contains_mapValues _ _ _
  simp only [set, hmax, hsize, hcontains]
  by_cases hzero : c.maxSize = 0
  · simp only [if_pos hzero]
  · simp only [if_neg hzero, ← evict_blank]
    by_cases hfull : (decide (c.maxSize ≤ c.entries.size) && !c.entries.contains key) = true
    · simp only [if_pos hfull]
      exact c.evict.put_blank now key text
    · simp only [if_neg hfull]
      exact c.put_blank now key text

end Colloquy.ResponseCache
