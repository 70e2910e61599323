import Colloquy.Proofs.ResponseCache
import Colloquy.Proofs.Table.Keys
import Colloquy.Proofs.Timeline
/-!
# How long the cache keeps a reply

What a look at a key finds is told by the calls before it: the text last
written under the key, as long as it is young enough, nothing was cleared
since, and fewer than `maxSize` other keys have been written since
(`get_after_eq_some_iff`). The cache itself may hold less than that history or more.
It drops expired entries when it comes across them, and it evicts by age, be
the oldest entry expired or not. What makes both harmless is that entries only
ever go from the old end: what was written after a kept entry is kept too, or
has expired (`Kept.closed`).
-/

namespace Colloquy

/-- A call of the cache. -/
inductive CacheCall where
  | get (key : String)
  | set (key text : String)
  | clear
deriving DecidableEq, Repr

namespace ResponseCache

open Timed

/-- What a call gives, and the cache behind it. -/
def perform (c : ResponseCache) (t : Timed CacheCall) : Option String × ResponseCache :=
  match t.call with
  | .get key => c.get t.instant key
  | .set key text => (none, c.set t.instant key text)
  | .clear => (none, c.clear)

/-! ## What calls say of a key -/

/-- The writes among calls: when, and under which key. -/
def writes (calls : List (Timed CacheCall)) : List (Nat × String) :=
  calls.filterMap fun c =>
    match c.call with
    | .set key _ => some (c.instant, key)
    | _ => none

/-- The keys that calls write. -/
def written (calls : List (Timed CacheCall)) : Finset String :=
  ((writes calls).map Prod.snd).toFinset

/-- No two keys are written at one instant. -/
def Apart (calls : List (Timed CacheCall)) : Prop :=
  ∀ w ∈ writes calls, ∀ w' ∈ writes calls, w.1 = w'.1 → w.2 = w'.2

instance (calls : List (Timed CacheCall)) : Decidable (Apart calls) :=
  inferInstanceAs (Decidable (∀ w ∈ writes calls, _))

/-- What was last written under a key since everything was cleared, and the
other keys written after that. -/
structure Trail where
  entry : CacheEntry
  others : Finset String

/-- The trail of a key with one more call. -/
def follow (key : String) (found : Option Trail) (c : Timed CacheCall) : Option Trail :=
  match c.call with
  | .get _ => found
  | .set k text =>
    if k = key then some ⟨⟨text, c.instant⟩, ∅⟩
    else found.map fun t => { t with others := insert k t.others }
  | .clear => none

/-- **The trail of a key** in the calls so far. -/
def trail (key : String) (calls : List (Timed CacheCall)) : Option Trail :=
  calls.foldl (follow key) none

theorem trail_concat (key : String) (calls : List (Timed CacheCall)) (c : Timed CacheCall) :
    trail key (calls ++ [c]) = follow key (trail key calls) c := by
  simp only [trail, List.foldl_append, List.foldl_cons, List.foldl_nil]

theorem follow_self (key text : String) (found : Option Trail) (now : Nat) :
    follow key found ⟨now, .set key text⟩ = some ⟨⟨text, now⟩, ∅⟩ := if_pos rfl

theorem follow_other {key k : String} (hk : k ≠ key) (text : String) (found : Option Trail)
    (now : Nat) : follow key found ⟨now, .set k text⟩ =
      found.map fun t => { t with others := insert k t.others } := if_neg hk

theorem written_append (calls calls' : List (Timed CacheCall)) :
    written (calls ++ calls') = written calls ∪ written calls' := by
  rw [written, writes, List.filterMap_append, List.map_append, List.toFinset_append]
  rfl

theorem written_concat_get (calls : List (Timed CacheCall)) (now : Nat) (key : String) :
    written (calls ++ [⟨now, .get key⟩]) = written calls :=
  (written_append _ _).trans (Finset.union_empty _)

theorem written_concat_set (calls : List (Timed CacheCall)) (now : Nat) (key text : String) :
    written (calls ++ [⟨now, .set key text⟩]) = insert key (written calls) :=
  (written_append _ _).trans (Finset.union_comm _ _)

theorem mem_writes {calls : List (Timed CacheCall)} {now : Nat} {key text : String}
    (h : ⟨now, .set key text⟩ ∈ calls) : (now, key) ∈ writes calls :=
  List.mem_filterMap.2 ⟨_, h, rfl⟩

/-- Behind a write of a key that is neither cleared nor written again, the
other keys are those that are written. -/
theorem trail_behind {key text : String} {now : Nat} (before : List (Timed CacheCall))
    {behind : List (Timed CacheCall)} (hclear : ∀ c ∈ behind, c.call ≠ .clear)
    (hkey : key ∉ written behind) :
    trail key (before ++ ⟨now, .set key text⟩ :: behind) =
      some ⟨⟨text, now⟩, written behind⟩ := by
  induction behind using List.reverseRecOn with
  | nil => rw [trail_concat, follow_self]; rfl
  | append_singleton behind c ih =>
    have hprefix := ih (fun d hd => hclear d (List.mem_append_left _ hd)) fun hmem => hkey (by
      rw [written_append]
      exact Finset.mem_union_left _ hmem)
    rw [← List.cons_append, ← List.append_assoc, trail_concat, hprefix]
    obtain ⟨instant, call⟩ := c
    cases call with
    | get k => rw [written_concat_get]; rfl
    | set k text' =>
      rw [written_concat_set] at hkey ⊢
      have hne : k ≠ key := fun hk => hkey (Finset.mem_insert.2 (.inl hk.symm))
      rw [follow_other hne]
      rfl
    | clear => exact absurd rfl (hclear _ (List.mem_append_right _ (.head _)))

/-- **A trail is a last write** with what lies behind it. -/
theorem trail_eq_some_iff {key : String} {calls : List (Timed CacheCall)} {t : Trail} :
    trail key calls = some t ↔
      ∃ before behind, calls =
          before ++ ⟨t.entry.createdAt, .set key t.entry.response⟩ :: behind ∧
        (∀ c ∈ behind, c.call ≠ .clear) ∧ key ∉ written behind ∧ written behind = t.others := by
  refine ⟨fun h => ?_, ?_⟩
  · induction calls using List.reverseRecOn generalizing t with
    | nil => cases h
    | append_singleton calls c ih =>
      obtain ⟨instant, call⟩ := c
      rw [trail_concat] at h
      cases call with
      | get k =>
        obtain ⟨before, behind, rfl, hclear, hkey, hothers⟩ := ih h
        have hsame := written_concat_get behind instant k
        refine ⟨before, behind ++ [⟨instant, .get k⟩], by simp, fun d hd => ?_, ?_, ?_⟩
        · rcases List.mem_append.1 hd with hd | hd
          · exact hclear d hd
          · cases List.mem_singleton.1 hd
            nofun
        · rwa [hsame]
        · rwa [hsame]
      | set k text =>
        by_cases hk : k = key
        · subst hk
          rw [follow_self, Option.some.injEq] at h
          subst h
          exact ⟨calls, [], rfl, fun d hd => absurd hd List.not_mem_nil, Finset.notMem_empty _, rfl⟩
        · rw [follow_other hk, Option.map_eq_some_iff] at h
          obtain ⟨t, htrail, rfl⟩ := h
          obtain ⟨before, behind, rfl, hclear, hkey, hothers⟩ := ih htrail
          refine ⟨before, behind ++ [⟨instant, .set k text⟩], by simp, fun d hd => ?_, ?_, ?_⟩
          · rcases List.mem_append.1 hd with hd | hd
            · exact hclear d hd
            · cases List.mem_singleton.1 hd
              nofun
          · rw [written_concat_set, Finset.mem_insert, not_or]
            exact ⟨Ne.symm hk, hkey⟩
          · rw [written_concat_set, hothers]
      | clear => cases h
  · rintro ⟨before, behind, rfl, hclear, hkey, hothers⟩
    rw [trail_behind before hclear hkey, hothers]

/-- The entry of a trail was written. -/
theorem mem_of_trail {key : String} {calls : List (Timed CacheCall)} {t : Trail}
    (h : trail key calls = some t) :
    ⟨t.entry.createdAt, .set key t.entry.response⟩ ∈ calls := by
  obtain ⟨before, behind, hcalls, -⟩ := trail_eq_some_iff.1 h
  rw [hcalls]
  exact List.mem_append_right _ (.head _)

/-- A key written after another one has a trail of its own. -/
theorem trail_of_mem_others {key other : String} {calls : List (Timed CacheCall)} {t : Trail}
    (h : trail key calls = some t) (hother : other ∈ t.others) :
    key ≠ other ∧ ∃ u, trail other calls = some u := by
  induction calls using List.reverseRecOn generalizing t with
  | nil => cases h
  | append_singleton calls c ih =>
    obtain ⟨instant, call⟩ := c
    rw [trail_concat] at h ⊢
    cases call with
    | get k => exact ih h hother
    | set k text =>
      by_cases hk : k = key
      · subst hk
        rw [follow_self, Option.some.injEq] at h
        subst h
        exact absurd hother (Finset.notMem_empty other)
      · rw [follow_other hk, Option.map_eq_some_iff] at h
        obtain ⟨t, htrail, rfl⟩ := h
        by_cases ho : k = other
        · subst ho
          exact ⟨Ne.symm hk, _, follow_self _ _ _ _⟩
        · obtain ⟨hne, u, hu⟩ :=
            ih htrail ((Finset.mem_insert.1 hother).resolve_left (Ne.symm ho))
          refine ⟨hne, { u with others := insert k u.others }, ?_⟩
          rw [follow_other ho, hu]
          rfl
    | clear => cases h

theorem Apart.of_append {calls calls' : List (Timed CacheCall)} (h : Apart (calls ++ calls')) :
    Apart calls := by
  have hsub : ∀ w ∈ writes calls, w ∈ writes (calls ++ calls') := fun w hw => by
    rw [writes, List.filterMap_append]
    exact List.mem_append_left _ hw
  exact fun w hw w' hw' => h w (hsub w hw) w' (hsub w' hw')

/-- Entries of different keys differ in age. -/
theorem Apart.createdAt_ne {calls : List (Timed CacheCall)} (hcalls : Apart calls)
    {key other : String} (hne : key ≠ other) {t u : Trail} (ht : trail key calls = some t)
    (hu : trail other calls = some u) : t.entry.createdAt ≠ u.entry.createdAt := fun hsame =>
  hne (hcalls _ (mem_writes (mem_of_trail ht)) _ (mem_writes (mem_of_trail hu)) hsame)

/-- **The other keys of a trail are the younger ones.** -/
theorem mem_others_iff {calls : List (Timed CacheCall)} (horder : InOrder calls)
    (hapart : Apart calls) {key other : String} (hne : key ≠ other) {t u : Trail}
    (ht : trail key calls = some t) (hu : trail other calls = some u) :
    other ∈ t.others ↔ t.entry.createdAt < u.entry.createdAt := by
  induction calls using List.reverseRecOn generalizing t u with
  | nil => cases ht
  | append_singleton calls c ih =>
    obtain ⟨horder', hlast⟩ := inOrder_concat.1 horder
    have hdiffer := hapart.createdAt_ne hne ht hu
    obtain ⟨instant, call⟩ := c
    rw [trail_concat] at ht hu
    cases call with
    | get k => exact ih horder' hapart.of_append ht hu
    | set k text =>
      by_cases hk : k = key
      · -- the key itself is written: nothing is younger
        subst hk
        rw [follow_self, Option.some.injEq] at ht
        subst ht
        rw [follow_other hne, Option.map_eq_some_iff] at hu
        obtain ⟨u, hu, rfl⟩ := hu
        have hle := hlast _ (mem_of_trail hu)
        simp only [Finset.notMem_empty, false_iff]
        exact Nat.not_lt.2 hle
      · rw [follow_other hk, Option.map_eq_some_iff] at ht
        obtain ⟨t, ht, rfl⟩ := ht
        by_cases ho : k = other
        · -- the other key is written: it is the youngest
          subst ho
          rw [follow_self, Option.some.injEq] at hu
          subst hu
          have hle := hlast _ (mem_of_trail ht)
          simp only [Finset.mem_insert_self, true_iff]
          exact Nat.lt_of_le_of_ne hle hdiffer
        · rw [follow_other ho, Option.map_eq_some_iff] at hu
          obtain ⟨u, hu, rfl⟩ := hu
          have hbefore := ih horder' hapart.of_append ht hu
          rw [Finset.mem_insert, or_iff_right (Ne.symm ho)]
          exact hbefore
    | clear => cases ht

/-! ## What a write takes away -/

theorem oldestIn_ne_none {entries : List (String × CacheEntry)} (h : entries ≠ []) :
    oldestIn entries ≠ none := by
  cases entries with
  | nil => exact absurd rfl h
  | cons entry rest =>
    simp only [oldestIn]
    split
    · exact Option.some_ne_none _
    · split <;> exact Option.some_ne_none _

/-- The entry that is found oldest stands in the list, and none is older. -/
theorem oldestIn_eq_some {entries : List (String × CacheEntry)} {key : String} {createdAt : Nat}
    (h : oldestIn entries = some (key, createdAt)) :
    (∃ e, (key, e) ∈ entries ∧ e.createdAt = createdAt) ∧
      ∀ e ∈ entries, createdAt ≤ e.2.createdAt := by
  induction entries generalizing key createdAt with
  | nil => cases h
  | cons entry rest ih =>
    obtain ⟨k, e⟩ := entry
    simp only [oldestIn] at h
    cases hrest : oldestIn rest with
    | none =>
      rw [hrest] at h
      cases h
      obtain rfl : rest = [] := by_contra fun hne => oldestIn_ne_none hne hrest
      refine ⟨⟨e, .head _, rfl⟩, fun e' he' => ?_⟩
      cases List.mem_singleton.1 he'
      exact Nat.le_refl _
    | some found =>
      obtain ⟨k', oldest⟩ := found
      obtain ⟨⟨e', hmem, hage⟩, hleast⟩ := ih hrest
      rw [hrest] at h
      simp only at h
      split at h
      · cases h
        refine ⟨⟨e, .head _, rfl⟩, fun d hd => ?_⟩
        rcases List.mem_cons.1 hd with rfl | hd
        · exact Nat.le_refl _
        · exact Nat.le_trans ‹_› (hleast d hd)
      · cases h
        refine ⟨⟨e', .tail _ hmem, hage⟩, fun d hd => ?_⟩
        rcases List.mem_cons.1 hd with rfl | hd
        · exact Nat.le_of_not_le ‹_›
        · exact hleast d hd

variable {c : ResponseCache}

/-- A full cache evicts an entry than which none is older. -/
theorem evict_of_full (hsize : c.maxSize ≠ 0) (hfull : c.maxSize ≤ c.size) :
    ∃ victim e, (victim, e) ∈ c.entries.entries ∧
      (∀ d ∈ c.entries.entries, e.createdAt ≤ d.2.createdAt) ∧
      c.evict.entries = c.entries.erase victim := by
  have hne : c.entries.entries ≠ [] := fun hnil => by
    rw [size, Table.size, hnil, List.length_nil] at hfull
    omega
  obtain ⟨⟨victim, createdAt⟩, hvictim⟩ := Option.ne_none_iff_exists'.1 (oldestIn_ne_none hne)
  obtain ⟨⟨e, hmem, rfl⟩, hleast⟩ := oldestIn_eq_some hvictim
  exact ⟨victim, e, hmem, hleast, by simp only [evict, hvictim]⟩

/-- What a write leaves of the entries before it puts its own: all of them, or
all but an earliest one of a full cache, when the key is new. -/
structure Leaves (c : ResponseCache) (key : String) (left : Table String CacheEntry) : Prop where
  keyed : left.Keyed
  held : ∀ k e, left.get? k = some e → c.entries.get? k = some e
  lost : ∀ k e, c.entries.get? k = some e → left.get? k = none →
    c.entries.get? key = none ∧ c.maxSize ≤ c.size ∧
      ∀ k' e', c.entries.get? k' = some e' → e.createdAt ≤ e'.createdAt

/-- A write that takes nothing away. -/
theorem Leaves.all (hc : c.entries.Keyed) (key : String) : c.Leaves key c.entries :=
  ⟨hc, fun _ _ h => h, fun k e h hnone => by rw [h] at hnone; cases hnone⟩

/-- An eviction from a full cache. -/
theorem Leaves.evict (hc : c.entries.Keyed) (hsize : c.maxSize ≠ 0) {key : String}
    (hfull : c.maxSize ≤ c.size) (hnew : c.entries.get? key = none) :
    c.Leaves key c.evict.entries := by
  obtain ⟨victim, e, hmem, hleast, hevict⟩ := evict_of_full hsize hfull
  rw [hevict]
  refine ⟨hc.erase victim, fun k e' h => ?_, fun k e' hget hgone => ⟨hnew, hfull, ?_⟩⟩
  · rw [Table.get?_erase] at h
    split at h
    · cases h
    · exact h
  · rw [Table.get?_erase, hget] at hgone
    split at hgone
    · rename_i hk
      subst hk
      obtain rfl : e = e' := Option.some.inj ((Table.get?_of_mem hc hmem).symm.trans hget)
      exact fun k' d hd => hleast (k', d) (Table.mem_of_get? hd)
    · cases hgone

/-- **What a write does** to a cache that holds anything at all. -/
theorem set_eq (hc : c.entries.Keyed) (hsize : c.maxSize ≠ 0) (now : Nat) (key text : String) :
    ∃ left, c.Leaves key left ∧
      c.set now key text = { c with entries := left.put key ⟨text, now⟩ } := by
  simp only [set, if_neg hsize]
  split
  · rename_i hfull
    rw [Bool.and_eq_true, decide_eq_true_eq, Bool.not_eq_true', Table.contains,
      Option.isSome_eq_false_iff, Option.isNone_iff_eq_none] at hfull
    refine ⟨_, .evict hc hsize hfull.1 hfull.2, ?_⟩
    rw [ResponseCache.mk.injEq]
    exact ⟨c.evict_within.maxSize, c.evict_within.ttl, rfl⟩
  · exact ⟨_, .all hc key, rfl⟩

/-- **A write leaves no more than `maxSize` entries**, whichever of several
earliest ones it evicts. -/
theorem size_set_le (h : c.size ≤ c.maxSize) (now : Nat) (key text : String) :
    (c.set now key text).size ≤ c.maxSize := by
  simp only [set]
  split
  · exact h
  rename_i hzero
  simp only [size, Table.size_put] at h ⊢
  split
  · -- what is evicted makes room
    rename_i hfull
    rw [Bool.and_eq_true, decide_eq_true_eq] at hfull
    obtain ⟨victim, e, hmem, -, hevict⟩ := evict_of_full hzero hfull.1
    have hroom : (c.entries.erase victim).size < c.entries.size := Table.size_erase_lt hmem
    rw [hevict]
    split <;> omega
  · rename_i hroom
    rw [Bool.and_eq_true, decide_eq_true_eq, Bool.not_eq_true'] at hroom
    split
    · exact h
    · rename_i hnew
      have hless : ¬ c.maxSize ≤ c.entries.size := fun hle =>
        hroom ⟨hle, Bool.eq_false_iff.2 hnew⟩
      omega

/-! ## Entries that have expired -/

/-- A cache from which some expired entries are gone. -/
structure Pruned (now : Nat) (c c' : ResponseCache) : Prop where
  within : c'.Within c
  keyed : c'.entries.Keyed
  size_le : c'.size ≤ c.size
  gone : ∀ key e, c.entries.get? key = some e → c'.entries.get? key = none →
    c.ttl ≤ now - e.createdAt

theorem Pruned.refl (hc : c.entries.Keyed) (now : Nat) : c.Pruned now c :=
  ⟨.refl c, hc, Nat.le_refl _, fun key e h hnone => by rw [h] at hnone; cases hnone⟩

theorem not_isLive {now : Nat} {e : CacheEntry} :
    c.isLive now e = false ↔ c.ttl ≤ now - e.createdAt := by
  rw [isLive, decide_eq_false_iff_not, Nat.not_lt]

/-- A look drops its key alone. -/
theorem pruned_dropExpired (hc : c.entries.Keyed) (now : Nat) (key : String) :
    c.Pruned now (c.dropExpired now key) := by
  simp only [dropExpired]
  split
  · rename_i e hget
    split
    · exact .refl hc now
    · rename_i hdead
      refine ⟨c.erase_within key, hc.erase key, Table.size_erase_le _ _, fun k e' h hgone => ?_⟩
      rw [Table.get?_erase, h] at hgone
      split at hgone
      · rename_i hk
        subst hk
        obtain rfl : e = e' := Option.some.inj (hget.symm.trans h)
        exact not_isLive.1 (Bool.eq_false_iff.2 hdead)
      · cases hgone
  · exact .refl hc now

/-- A sweep drops what it finds. -/
theorem pruned_sweep (hc : c.entries.Keyed) (now : Nat) : c.Pruned now (c.sweep now).2 := by
  refine ⟨⟨rfl, rfl, fun key e h => ?_⟩, hc.keep _, Table.size_keep_le _ _, fun key e h hgone => ?_⟩
  · simp only [sweep, Table.get?_keep hc, Option.filter_eq_some_iff] at h
    exact h.1
  · simp only [sweep, Table.get?_keep hc, h, Option.filter_some] at hgone
    split at hgone
    · cases hgone
    · rename_i hdead
      exact not_isLive.1 (Bool.eq_false_iff.2 hdead)

/-! ## What is kept -/

/-- **What a cache holds behind some calls**, at an instant that none of them
comes after. A key that is missing has expired or been driven out, and what
was written after a kept entry is kept as well, or has expired. -/
structure Kept (maxSize ttl now : Nat) (calls : List (Timed CacheCall)) (c : ResponseCache) :
    Prop where
  maxSize_eq : c.maxSize = maxSize
  ttl_eq : c.ttl = ttl
  keyed : c.entries.Keyed
  small : c.size ≤ maxSize
  found : ∀ key e, c.entries.get? key = some e → ∃ others, trail key calls = some ⟨e, others⟩
  missing : ∀ key t, trail key calls = some t → c.entries.get? key = none →
    ttl ≤ now - t.entry.createdAt ∨ maxSize ≤ t.others.card
  closed : ∀ key e other u, c.entries.get? key = some e → trail other calls = some u →
    e.createdAt < u.entry.createdAt → c.entries.get? other = none →
    ttl ≤ now - u.entry.createdAt

variable {maxSize ttl now : Nat} {calls : List (Timed CacheCall)}

theorem kept_empty (maxSize ttl now : Nat) : Kept maxSize ttl now [] (empty maxSize ttl) where
  maxSize_eq := rfl
  ttl_eq := rfl
  keyed := Table.keyed_empty
  small := Nat.zero_le _
  found _ _ h := by cases h
  missing _ _ h := by cases h
  closed _ _ _ _ h := by cases h

/-- What has expired stays expired. -/
theorem Kept.later (hc : Kept maxSize ttl now calls c) {now' : Nat} (h : now ≤ now') :
    Kept maxSize ttl now' calls c where
  maxSize_eq := hc.maxSize_eq
  ttl_eq := hc.ttl_eq
  keyed := hc.keyed
  small := hc.small
  found := hc.found
  missing key t ht hnone := (hc.missing key t ht hnone).imp_left fun hdead => by omega
  closed key e other u he hu hage hnone := by
    have hdead := hc.closed key e other u he hu hage hnone
    omega

/-- **Expired entries may go.** -/
theorem Kept.pruned (hc : Kept maxSize ttl now calls c) {c' : ResponseCache}
    (hprune : c.Pruned now c') : Kept maxSize ttl now calls c' where
  maxSize_eq := hprune.within.maxSize.trans hc.maxSize_eq
  ttl_eq := hprune.within.ttl.trans hc.ttl_eq
  keyed := hprune.keyed
  small := Nat.le_trans hprune.size_le hc.small
  found key e h := hc.found key e (hprune.within.held key e h)
  missing key t ht hnone := by
    cases hget : c.entries.get? key with
    | none => exact hc.missing key t ht hget
    | some e =>
      obtain ⟨others, htrail⟩ := hc.found key e hget
      obtain rfl : t = ⟨e, others⟩ := Option.some.inj (ht.symm.trans htrail)
      exact .inl (hc.ttl_eq ▸ hprune.gone key e hget hnone)
  closed key e other u he hu hage hnone := by
    cases hget : c.entries.get? other with
    | none => exact hc.closed key e other u (hprune.within.held key e he) hu hage hget
    | some e' =>
      obtain ⟨others, htrail⟩ := hc.found other e' hget
      obtain rfl : u = ⟨e', others⟩ := Option.some.inj (hu.symm.trans htrail)
      exact hc.ttl_eq ▸ hprune.gone other e' hget hnone

/-- Behind an eviction `maxSize` keys have been written after the one that is
gone: those that are left, and the new one. -/
theorem Kept.driven_out (hc : Kept maxSize ttl now calls c) (horder : InOrder calls)
    (hapart : Apart calls) {key victim : String} {e : CacheEntry} {others : Finset String}
    (hnew : c.entries.get? key = none) (hfull : maxSize ≤ c.size)
    (hvictim : c.entries.get? victim = some e) (htrail : trail victim calls = some ⟨e, others⟩)
    (hleast : ∀ k e', c.entries.get? k = some e' → e.createdAt ≤ e'.createdAt) :
    maxSize ≤ (insert key others).card := by
  have hkeys : insert key (c.entries.keys.erase victim) ⊆ insert key others := by
    refine Finset.insert_subset_insert key fun k hk => ?_
    obtain ⟨hne, hmem⟩ := Finset.mem_erase.1 hk
    obtain ⟨e', hget⟩ := Table.mem_keys.1 hmem
    obtain ⟨others', hother⟩ := hc.found k e' hget
    refine (mem_others_iff horder hapart (Ne.symm hne) htrail hother).2 ?_
    exact Nat.lt_of_le_of_ne (hleast k e' hget)
      (hapart.createdAt_ne (Ne.symm hne) htrail hother)
  have hout : key ∉ c.entries.keys.erase victim := fun hmem => by
    obtain ⟨e', hget⟩ := Table.mem_keys.1 (Finset.mem_of_mem_erase hmem)
    rw [hnew] at hget
    cases hget
  have hcard := Finset.card_le_card hkeys
  rw [Finset.card_insert_of_notMem hout,
    Finset.card_erase_of_mem (Table.mem_keys.2 ⟨e, hvictim⟩), Table.card_keys hc.keyed] at hcard
  rw [size] at hfull
  omega

/-- Of a key that is missing behind what a write takes away, enough others
have been written once the new one is. -/
theorem Kept.missing_left (hc : Kept maxSize ttl now calls c) (horder : InOrder calls)
    (hapart : Apart calls) {key k : String} {left : Table String CacheEntry}
    (hleft : c.Leaves key left) {t : Trail} (ht : trail k calls = some t)
    (hnone : left.get? k = none) :
    ttl ≤ now - t.entry.createdAt ∨ maxSize ≤ (insert key t.others).card := by
  cases hold : c.entries.get? k with
  | none =>
    refine (hc.missing k t ht hold).imp_right fun hcard => Nat.le_trans hcard ?_
    exact Finset.card_le_card (Finset.subset_insert key t.others)
  | some e =>
    obtain ⟨hnew, hfull, hleast⟩ := hleft.lost k e hold hnone
    obtain ⟨others, hfound⟩ := hc.found k e hold
    obtain rfl : t = ⟨e, others⟩ := Option.some.inj (ht.symm.trans hfound)
    exact .inr (hc.driven_out horder hapart hnew (hc.maxSize_eq ▸ hfull) hold hfound hleast)

/-- A write takes nothing away that is younger than what it leaves. -/
theorem Kept.closed_left (hc : Kept maxSize ttl now calls c) {key k other : String}
    {left : Table String CacheEntry} (hleft : c.Leaves key left) {e : CacheEntry} {u : Trail}
    (he : left.get? k = some e) (hu : trail other calls = some u)
    (hage : e.createdAt < u.entry.createdAt) (hnone : left.get? other = none) :
    ttl ≤ now - u.entry.createdAt := by
  have hheld := hleft.held k e he
  cases hold : c.entries.get? other with
  | none => exact hc.closed k e other u hheld hu hage hold
  | some e' =>
    obtain ⟨-, -, hleast⟩ := hleft.lost other e' hold hnone
    obtain ⟨others, hfound⟩ := hc.found other e' hold
    obtain rfl : u = ⟨e', others⟩ := Option.some.inj (hu.symm.trans hfound)
    exact absurd hage (Nat.not_lt.2 (hleast k e hheld))

/-- A cache of size zero holds nothing, and every key counts as driven out. -/
theorem Kept.set_of_zero (hc : Kept maxSize ttl now calls c) (hzero : c.maxSize = 0)
    (key text : String) :
    Kept maxSize ttl now (calls ++ [⟨now, .set key text⟩]) (c.set now key text) := by
  have hempty : ∀ k e, c.entries.get? k ≠ some e := fun k e hget => by
    have hpos := Finset.card_pos.2 ⟨k, Table.mem_keys.2 ⟨e, hget⟩⟩
    have hsize := hc.small
    rw [Table.card_keys hc.keyed] at hpos
    rw [size, ← hc.maxSize_eq, hzero] at hsize
    omega
  have hset : c.set now key text = c := if_pos hzero
  rw [hset]
  refine ⟨hc.maxSize_eq, hc.ttl_eq, hc.keyed, hc.small, fun k e h => absurd h (hempty k e),
    fun k t _ _ => .inr ?_, fun k e _ _ h => absurd h (hempty k e)⟩
  rw [← hc.maxSize_eq, hzero]
  exact Nat.zero_le _

/-- **A write keeps what a cache holds in step with the calls.** -/
theorem Kept.set (hc : Kept maxSize ttl now calls c) (horder : InOrder calls)
    (hapart : Apart calls) (hpast : ∀ d ∈ calls, d.instant ≤ now) (key text : String) :
    Kept maxSize ttl now (calls ++ [⟨now, .set key text⟩]) (c.set now key text) := by
  by_cases hzero : c.maxSize = 0
  · exact hc.set_of_zero hzero key text
  have hsmall : (c.set now key text).size ≤ maxSize :=
    hc.maxSize_eq ▸ size_set_le (hc.maxSize_eq.symm ▸ hc.small) now key text
  obtain ⟨left, hleft, hset⟩ := set_eq hc.keyed hzero now key text
  have hget : ∀ k, (c.set now key text).entries.get? k =
      if key = k then some ⟨text, now⟩ else left.get? k := fun k => by
    rw [hset]
    exact Table.get?_put _ _ _ _
  refine ⟨(c.set_maxSize _ _ _).trans hc.maxSize_eq, (c.set_ttl _ _ _).trans hc.ttl_eq,
    by rw [hset]; exact hleft.keyed.put key _, hsmall, fun k e h => ?_, fun k t ht hnone => ?_,
    fun k e other u he hu hage hnone => ?_⟩
  · -- an entry is the one just written, or was held before
    rw [hget] at h
    rw [trail_concat]
    split at h
    · rename_i hk
      cases h
      subst hk
      exact ⟨∅, follow_self _ _ _ _⟩
    · rename_i hk
      obtain ⟨others, htrail⟩ := hc.found k e (hleft.held k e h)
      exact ⟨insert key others, by rw [follow_other hk, htrail]; rfl⟩
  · -- a missing key is another one, which counts the new key among its others
    rw [hget] at hnone
    rw [trail_concat] at ht
    split at hnone
    · cases hnone
    rename_i hk
    rw [follow_other hk, Option.map_eq_some_iff] at ht
    obtain ⟨t, htrail, rfl⟩ := ht
    exact hc.missing_left horder hapart hleft htrail hnone
  · rw [hget] at he hnone
    rw [trail_concat] at hu
    split at hnone
    · cases hnone
    rename_i ho
    rw [follow_other ho, Option.map_eq_some_iff] at hu
    obtain ⟨u, hother, rfl⟩ := hu
    have hpastu := hpast _ (mem_of_trail hother)
    split at he
    · -- nothing is younger than the entry that is written
      cases he
      simp only at hage hpastu
      omega
    · exact hc.closed_left (u := u) hleft he hother hage hnone

/-- **Every call keeps the law.** -/
theorem Kept.perform {t : Timed CacheCall} (hc : Kept maxSize ttl t.instant calls c)
    (horder : InOrder (calls ++ [t])) (hapart : Apart (calls ++ [t])) :
    Kept maxSize ttl t.instant (calls ++ [t]) (c.perform t).2 := by
  obtain ⟨horder', hpast⟩ := inOrder_concat.1 horder
  obtain ⟨instant, call⟩ := t
  cases call with
  | get key =>
    have hsame : ∀ k, trail k (calls ++ [⟨instant, .get key⟩]) = trail k calls :=
      fun k => trail_concat _ _ _
    have hprune := hc.pruned (pruned_dropExpired hc.keyed instant key)
    simp only [ResponseCache.perform, get_eq]
    exact ⟨hprune.maxSize_eq, hprune.ttl_eq, hprune.keyed, hprune.small,
      by simpa only [hsame] using hprune.found, by simpa only [hsame] using hprune.missing,
      by simpa only [hsame] using hprune.closed⟩
  | set key text => exact hc.set horder' hapart.of_append hpast key text
  | clear =>
    refine ⟨hc.maxSize_eq, hc.ttl_eq, Table.keyed_empty, Nat.zero_le _, fun _ _ h => ?_,
      fun k t ht => ?_, fun _ _ _ _ h => ?_⟩
    · cases h
    · rw [trail_concat] at ht
      cases ht
    · cases h

theorem kept_after {maxSize ttl now : Nat} {calls : List (Timed CacheCall)}
    (horder : InOrder calls) (hapart : Apart calls) (hpast : ∀ d ∈ calls, d.instant ≤ now) :
    Kept maxSize ttl now calls (after perform (empty maxSize ttl) calls) := by
  induction calls using List.reverseRecOn generalizing now with
  | nil => exact kept_empty maxSize ttl now
  | append_singleton calls t ih =>
    obtain ⟨horder', hpast'⟩ := inOrder_concat.1 horder
    rw [after_concat]
    exact ((ih horder' hapart.of_append hpast').perform horder hapart).later
      (hpast t (List.mem_append_right _ (.head _)))

/-- **What a look finds**, by the trail of its key. -/
theorem Kept.live?_eq_some_iff (hc : Kept maxSize ttl now calls c) (horder : InOrder calls)
    (hapart : Apart calls) {key text : String} :
    c.live? now key = some text ↔ ∃ t, trail key calls = some t ∧ t.entry.response = text ∧
      now - t.entry.createdAt < ttl ∧ t.others.card < maxSize := by
  constructor
  · intro h
    obtain ⟨e, hget, htext, hage⟩ := c.exists_entry_of_live? h
    rw [hc.ttl_eq] at hage
    obtain ⟨others, htrail⟩ := hc.found key e hget
    refine ⟨_, htrail, htext, hage, ?_⟩
    -- what was written since is younger still, so it is all there
    have hthere : others ⊆ c.entries.keys.erase key := fun other hother => by
      obtain ⟨hne, u, hu⟩ := trail_of_mem_others htrail hother
      have hyounger := (mem_others_iff horder hapart hne htrail hu).1 hother
      refine Finset.mem_erase.2 ⟨Ne.symm hne, Table.mem_keys.2 ?_⟩
      cases hother' : c.entries.get? other with
      | none =>
        have hdead := hc.closed key e other u hget hu hyounger hother'
        simp only at hyounger
        omega
      | some e' => exact ⟨e', rfl⟩
    have hcard := Finset.card_le_card hthere
    rw [Finset.card_erase_of_mem (Table.mem_keys.2 ⟨e, hget⟩), Table.card_keys hc.keyed] at hcard
    have hpos := Finset.card_pos.2 ⟨key, Table.mem_keys.2 ⟨e, hget⟩⟩
    rw [Table.card_keys hc.keyed] at hpos
    have hsmall := hc.small
    rw [size] at hsmall
    simp only
    omega
  · rintro ⟨t, htrail, htext, hage, hcard⟩
    cases hget : c.entries.get? key with
    | none =>
      rcases hc.missing key t htrail hget with hdead | hout <;> omega
    | some e =>
      obtain ⟨others, hfound⟩ := hc.found key e hget
      obtain rfl : t = ⟨e, others⟩ := Option.some.inj (htrail.symm.trans hfound)
      have hlive : c.isLive now e = true := by
        rw [isLive, decide_eq_true_eq, hc.ttl_eq]
        exact hage
      simp only [live?, hget, Option.filter_some, if_pos hlive, Option.map_some]
      exact congrArg some htext

/-- **No call makes the cache larger than `maxSize`.** -/
theorem size_perform_le (h : c.size ≤ c.maxSize) (t : Timed CacheCall) :
    (c.perform t).2.size ≤ c.maxSize ∧ (c.perform t).2.maxSize = c.maxSize := by
  obtain ⟨now, call⟩ := t
  cases call with
  | get key =>
    simp only [perform, get_eq]
    refine ⟨?_, (c.dropExpired_within now key).maxSize⟩
    simp only [dropExpired]
    split
    · split
      · exact h
      · exact Nat.le_trans (Table.size_erase_le _ _) h
    · exact h
  | set key text => exact ⟨size_set_le h now key text, c.set_maxSize now key text⟩
  | clear => exact ⟨Nat.zero_le _, rfl⟩

theorem size_after_le (h : c.size ≤ c.maxSize) (calls : List (Timed CacheCall)) :
    (after perform c calls).size ≤ c.maxSize := by
  have hrun : (after perform c calls).size ≤ c.maxSize ∧
      (after perform c calls).maxSize = c.maxSize := by
    refine after_keeps (I := fun d : ResponseCache => d.size ≤ c.maxSize ∧ d.maxSize = c.maxSize)
      ⟨h, rfl⟩ (fun d t hd => ?_) calls
    obtain ⟨hsize, hmax⟩ := hd
    have hstep := size_perform_le (hmax.symm ▸ hsize) t
    rwa [hmax] at hstep
  exact hrun.1

/-- **What a look finds**, by the calls before it: the text last written under
its key, if that is younger than `ttl`, nothing was cleared since, and fewer
than `maxSize` other keys have been written since. And however calls are timed,
a cache with no more than `maxSize` entries keeps to that, in whatever order
they stand: it does not matter which of several earliest ones are evicted. -/
theorem get_after_eq_some_iff (maxSize ttl : Nat) :
    (∀ c : ResponseCache, c.maxSize = maxSize → c.size ≤ maxSize →
        ∀ calls, (after perform c calls).size ≤ maxSize) ∧
      ∀ (calls : List (Timed CacheCall)) (now : Nat) (key text : String),
        InOrder (calls ++ [⟨now, .get key⟩]) → Apart calls →
        (((after perform (empty maxSize ttl) calls).get now key).1 = some text ↔
          ∃ before createdAt behind, calls = before ++ ⟨createdAt, .set key text⟩ :: behind ∧
            (∀ c ∈ behind, c.call ≠ .clear) ∧ key ∉ written behind ∧
            now - createdAt < ttl ∧ (written behind).card < maxSize) := by
  refine ⟨fun c hmax hsize calls => ?_, fun calls now key text horder hapart => ?_⟩
  · subst hmax
    exact size_after_le hsize calls
  obtain ⟨horder', hpast⟩ := inOrder_concat.1 horder
  rw [get_eq, (kept_after horder' hapart hpast).live?_eq_some_iff horder' hapart]
  constructor
  · rintro ⟨t, htrail, rfl, hage, hcard⟩
    obtain ⟨before, behind, hcalls, hclear, hkey, hothers⟩ := trail_eq_some_iff.1 htrail
    exact ⟨before, t.entry.createdAt, behind, hcalls, hclear, hkey, hage, hothers ▸ hcard⟩
  · rintro ⟨before, createdAt, behind, hcalls, hclear, hkey, hage, hcard⟩
    exact ⟨⟨⟨text, createdAt⟩, written behind⟩,
      trail_eq_some_iff.2 ⟨before, behind, hcalls, hclear, hkey, rfl⟩, rfl, hage, hcard⟩

/-- In a cache for two replies, one that was written again outlives an earlier
one until it expires. -/
theorem get_after_eq_some_iff_rewritten :
    let calls : List (Timed CacheCall) := [⟨0, .set "hi" "one"⟩, ⟨5, .set "yo" "two"⟩,
      ⟨10, .set "hi" "three"⟩, ⟨20, .get "yo"⟩, ⟨30, .set "sup" "four"⟩]
    (after perform (empty 2 60) calls).size ≤ 2 ∧
      ((after perform (empty 2 60) calls).get 69 "hi").1 = some "three" ∧
      ((after perform (empty 2 60) calls).get 69 "yo").1 = none := by
  intro calls
  obtain ⟨hsize, hlook⟩ := get_after_eq_some_iff 2 60
  have hhi := hlook calls 69 "hi" "three" (by decide) (by decide)
  refine ⟨hsize (empty 2 60) rfl (Nat.zero_le 2) calls, hhi.2 ?_, by decide⟩
  exact ⟨[⟨0, .set "hi" "one"⟩, ⟨5, .set "yo" "two"⟩], 10,
    [⟨20, .get "yo"⟩, ⟨30, .set "sup" "four"⟩], rfl, by decide, by decide, by decide, by decide⟩

end ResponseCache

end Colloquy
