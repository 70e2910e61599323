import Colloquy.Proofs.Session
import Mathlib.Data.List.Induction
/-!
# How long a session goes on

An access to a pair works on the session of the access before, if the pair was
not cleared in between and has not been idle for longer than `timeout`, and
otherwise on a new session (`due_of_story`). A session's context is what the
accesses since its beginning made of an empty one. Neither depends on what
happens to other pairs.
-/

namespace Colloquy

variable {R : Type}

/-- An access to a pair, with the session that it works on. -/
structure Visit (R : Type) where
  instant : Nat
  who : String × String
  access : SessionAccess R
  session : Session

/-- What the store has seen of a call. -/
inductive SessionEvent (R : Type) where
  | visited (v : Visit R)
  | cleared (who : String × String)

namespace Visit

/-- The session as an access leaves it. -/
def left (v : Visit R) : Session :=
  { v.session with context := v.access.mutate v.session.context, lastSeen := v.instant }

end Visit

namespace SessionStore

open Timed

/-- A call as the store sees it, and the store behind it. -/
def sees (s : SessionStore) (t : Timed (SessionCall R)) : SessionEvent R × SessionStore :=
  (match t.call with
    | .access who a => .visited ⟨t.instant, who, a, s.due t.instant who⟩
    | .clear who => .cleared who,
  (s.perform t).2)

/-- **The story of a store**: what it has seen, call by call. -/
def storyOf (timeout : Nat) (calls : List (Timed (SessionCall R))) : List (SessionEvent R) :=
  (log sees (empty timeout) calls).map Prod.snd

/-- The accesses to a pair end with this one, and these events follow. -/
def LastVisit (who : String × String) (v : Visit R) (between story : List (SessionEvent R)) :
    Prop :=
  ∃ before, story = before ++ .visited v :: between ∧ v.who = who ∧
    ∀ u, .visited u ∈ between → u.who ≠ who

/-- A session that nothing in the story is about, with an empty context. -/
def Fresh (session : Session) (story : List (SessionEvent R)) : Prop :=
  (∀ u, .visited u ∈ story → u.session.number ≠ session.number) ∧ session.context = []

/-- A context with what an event makes of it, if it is an access to the pair. -/
def becomes (who : String × String) (context : Context) : SessionEvent R → Context
  | .visited v => if v.who = who then v.access.mutate context else context
  | .cleared _ => context

/-- **What the accesses to a pair make of an empty context**, in order. -/
def contextOf (who : String × String) (events : List (SessionEvent R)) : Context :=
  events.foldl (becomes who) []

/-! ## What stands -/

/-- The access that stands for a pair, with one more event. -/
def stand (who : String × String) (found : Option (Visit R)) : SessionEvent R → Option (Visit R)
  | .visited v => if v.who = who then some v else found
  | .cleared q => if q = who then none else found

/-- The last access to a pair, unless the pair has been cleared since. -/
def standing? (who : String × String) (story : List (SessionEvent R)) : Option (Visit R) :=
  story.foldl (stand who) none

theorem standing?_concat (who : String × String) (story : List (SessionEvent R))
    (e : SessionEvent R) : standing? who (story ++ [e]) = stand who (standing? who story) e := by
  simp only [standing?, List.foldl_append, List.foldl_cons, List.foldl_nil]

theorem contextOf_concat (who : String × String) (events : List (SessionEvent R))
    (e : SessionEvent R) :
    contextOf who (events ++ [e]) = becomes who (contextOf who events) e := by
  simp only [contextOf, List.foldl_append, List.foldl_cons, List.foldl_nil]

variable {who : String × String} {v : Visit R} {story between : List (SessionEvent R)}

theorem LastVisit.mem (h : LastVisit who v between story) : .visited v ∈ story := by
  obtain ⟨before, rfl, -⟩ := h
  exact List.mem_append_right _ (.head _)

theorem LastVisit.who_eq (h : LastVisit who v between story) : v.who = who := by
  obtain ⟨before, -, hwho, -⟩ := h
  exact hwho

/-- The last access stands if it is not cleared. -/
theorem LastVisit.standing (h : LastVisit who v between story) (hclear : .cleared who ∉ between) :
    standing? who story = some v := by
  obtain ⟨before, rfl, hwho, hlast⟩ := h
  induction between using List.reverseRecOn with
  | nil => rw [standing?_concat, stand, if_pos hwho]
  | append_singleton between e ih =>
    rw [← List.cons_append, ← List.append_assoc, standing?_concat,
      ih (fun hmem => hclear (List.mem_append_left _ hmem))
        (fun u hu => hlast u (List.mem_append_left _ hu))]
    cases e with
    | visited u => exact if_neg (hlast u (List.mem_append_right _ (.head _)))
    | cleared q =>
      refine if_neg fun hq => hclear ?_
      subst hq
      exact List.mem_append_right _ (.head _)

/-- Nothing stands of a session that is cleared behind its last visit. -/
theorem LastVisit.not_standing (h : LastVisit who v between story)
    (hclear : .cleared who ∈ between) : standing? who story = none := by
  obtain ⟨before, rfl, hwho, hlast⟩ := h
  induction between using List.reverseRecOn with
  | nil => cases hclear
  | append_singleton between e ih =>
    rw [← List.cons_append, ← List.append_assoc, standing?_concat]
    have hlast' : ∀ u, .visited u ∈ between → u.who ≠ who :=
      fun u hu => hlast u (List.mem_append_left _ hu)
    cases e with
    | visited u =>
      rw [stand, if_neg (hlast u (List.mem_append_right _ (.head _)))]
      exact ih ((List.mem_append.1 hclear).resolve_right (by simp)) hlast'
    | cleared q =>
      rw [stand]
      split
      · rfl
      · rename_i hq
        refine ih ((List.mem_append.1 hclear).resolve_right fun hmem => hq ?_) hlast'
        cases List.mem_singleton.1 hmem
        rfl

/-- What stands is the last access. -/
theorem lastVisit_of_standing (h : standing? who story = some v) :
    ∃ between, LastVisit who v between story ∧ .cleared who ∉ between := by
  induction story using List.reverseRecOn with
  | nil => cases h
  | append_singleton story e ih =>
    rw [standing?_concat] at h
    -- an event that does not touch the pair lies behind what stood before
    have hbehind : standing? who story = some v → (∀ u, e = .visited u → u.who ≠ who) →
        e ≠ .cleared who → ∃ between, LastVisit who v between (story ++ [e]) ∧
          .cleared who ∉ between := by
      intro hstood hother hkept
      obtain ⟨between, ⟨before, rfl, hwho, hlast⟩, hclear⟩ := ih hstood
      refine ⟨between ++ [e], ⟨before, by simp, hwho, fun u hu => ?_⟩, fun hmem => ?_⟩
      · rcases List.mem_append.1 hu with hu | hu
        · exact hlast u hu
        · exact hother u (List.mem_singleton.1 hu).symm
      · rcases List.mem_append.1 hmem with hmem | hmem
        · exact hclear hmem
        · exact hkept (List.mem_singleton.1 hmem).symm
    cases e with
    | visited u =>
      rw [stand] at h
      split at h
      · rename_i hwho
        cases h
        exact ⟨[], ⟨story, rfl, hwho, fun x hx => absurd hx List.not_mem_nil⟩, List.not_mem_nil⟩
      · rename_i hwho
        exact hbehind h (fun x hx => by cases hx; exact hwho) fun hx => by cases hx
    | cleared q =>
      rw [stand] at h
      split at h
      · cases h
      · rename_i hq
        exact hbehind h (fun x hx => by cases hx) fun hx => hq (by cases hx; rfl)

theorem mem_of_standing (h : standing? who story = some v) : .visited v ∈ story := by
  obtain ⟨between, hlast, -⟩ := lastVisit_of_standing h
  exact hlast.mem

/-! ## What the store holds -/

/-- **The part of a story that a session has lasted for**: no access before it
is one to the session, and every access of the pair in it is. -/
structure Lasts (who : String × String) (number : Nat) (story since : List (SessionEvent R)) :
    Prop where
  suffix : ∃ before, story = before ++ since ∧
    ∀ u, .visited u ∈ before → u.session.number ≠ number
  own : ∀ u, .visited u ∈ since → u.who = who → u.session.number = number

/-- A session lasts through an event that is no other one's access of its
pair. -/
theorem Lasts.concat {number : Nat} {since : List (SessionEvent R)}
    (h : Lasts who number story since) (e : SessionEvent R)
    (he : ∀ u, e = .visited u → u.who = who → u.session.number = number) :
    Lasts who number (story ++ [e]) (since ++ [e]) := by
  obtain ⟨before, rfl, hbefore⟩ := h.suffix
  refine ⟨⟨before, List.append_assoc _ _ _, hbefore⟩, fun u hu hwho => ?_⟩
  rcases List.mem_append.1 hu with hu | hu
  · exact h.own u hu hwho
  · exact he u (List.mem_singleton.1 hu).symm hwho

/-- **What a store holds behind a story**: of each pair the session that its
standing access left, whose context is the work of the accesses since the
session began. -/
structure Follows (timeout : Nat) (story : List (SessionEvent R)) (s : SessionStore) : Prop where
  timeout_eq : s.timeout = timeout
  numbered : ∀ v, .visited v ∈ story → v.session.number < s.opened
  held : ∀ who, s.sessions.get? who = (standing? who story).map Visit.left
  lasting : ∀ who v, standing? who story = some v → ∃ since,
    Lasts who v.session.number story since ∧ v.left.context = contextOf who since

variable {timeout : Nat} {s : SessionStore}

theorem follows_empty (timeout : Nat) : Follows (R := R) timeout [] (empty timeout) where
  timeout_eq := rfl
  numbered _ h := by cases h
  held _ := rfl
  lasting _ _ h := by cases h

/-- **The session that is due** is the one that stands, unless that has been
idle for too long. -/
theorem Follows.current (h : Follows timeout story s) (now : Nat) (who : String × String) :
    (∃ v, standing? who story = some v ∧ now - v.instant ≤ timeout ∧
        s.current now who.1 who.2 = ({ v.left with lastSeen := now }, s.opened)) ∨
      (∀ v, standing? who story = some v → ¬ now - v.instant ≤ timeout) ∧
        s.current now who.1 who.2 = (⟨s.opened, [], now⟩, s.opened + 1) := by
  rw [current_eq, live?, h.held]
  cases hstand : standing? who story with
  | none => exact .inr ⟨fun v hv => (by cases hv), rfl⟩
  | some v =>
    have halive : (!s.isExpired now v.left) = true ↔ now - v.instant ≤ timeout :=
      h.timeout_eq ▸ not_isExpired
    rw [Option.map_some, Option.filter_some]
    by_cases hidle : now - v.instant ≤ timeout
    · exact .inl ⟨v, rfl, hidle, by rw [if_pos (halive.2 hidle)]⟩
    · refine .inr ⟨fun u hu => ?_, by rw [if_neg fun hlive => hidle (halive.1 hlive)]⟩
      cases hu
      exact hidle

/-- The session that is due is the one that stands, or a fresh one. -/
theorem Follows.due_eq (h : Follows timeout story s) (now : Nat) (who : String × String) :
    (∃ v, standing? who story = some v ∧ now - v.instant ≤ timeout ∧
        s.due now who = { v.left with lastSeen := now }) ∨
      (∀ v, standing? who story = some v → ¬ now - v.instant ≤ timeout) ∧
        s.due now who = ⟨s.opened, [], now⟩ := by
  rcases h.current now who with ⟨v, hstand, hidle, hdue⟩ | ⟨hidle, hdue⟩
  · exact .inl ⟨v, hstand, hidle, congrArg Prod.fst hdue⟩
  · exact .inr ⟨hidle, congrArg Prod.fst hdue⟩

/-- The context of the session that is due is the work of the accesses since
it began. -/
theorem Follows.due_context (h : Follows timeout story s) (now : Nat) (who : String × String) :
    ∃ since, Lasts who (s.due now who).number story since ∧
      (s.due now who).context = contextOf who since := by
  rcases h.due_eq now who with ⟨v, hstand, -, hdue⟩ | ⟨-, hdue⟩
  · rw [hdue]
    exact h.lasting who v hstand
  · -- a new session has lasted for nothing yet
    rw [hdue]
    refine ⟨[], ⟨⟨story, (List.append_nil _).symm, fun u hu => ?_⟩,
      fun u hu => absurd hu List.not_mem_nil⟩, rfl⟩
    exact Nat.ne_of_lt (h.numbered u hu)

/-- **An access is told** by what it does to the store. -/
theorem Follows.visit (h : Follows timeout story s) (now : Nat) (who : String × String)
    (a : SessionAccess R) :
    Follows timeout (story ++ [.visited ⟨now, who, a, s.due now who⟩]) (s.access now who a).2 := by
  rw [access_eq]
  have hopened : (s.due now who).number < (s.current now who.1 who.2).2 ∧
      s.opened ≤ (s.current now who.1 who.2).2 := by
    rcases h.current now who with ⟨v, hstand, -, hdue⟩ | ⟨-, hdue⟩
    · rw [due, hdue]
      exact ⟨h.numbered v (mem_of_standing hstand), Nat.le_refl _⟩
    · rw [due, hdue]
      exact ⟨Nat.lt_succ_self _, Nat.le_succ _⟩
  refine ⟨h.timeout_eq, fun v hv => ?_, fun q => ?_, fun q v hv => ?_⟩
  · rcases List.mem_append.1 hv with hv | hv
    · exact Nat.lt_of_lt_of_le (h.numbered v hv) hopened.2
    · cases List.mem_singleton.1 hv
      exact hopened.1
  · rw [Table.get?_put, standing?_concat, stand]
    split
    · simp only [Option.map_some, Visit.left, due_lastSeen]
    · exact h.held q
  · rw [standing?_concat, stand] at hv
    split at hv
    · -- the access goes on with what has lasted, or begins with nothing
      rename_i hq
      cases hv
      subst hq
      obtain ⟨since, hlasts, hcontext⟩ := h.due_context now who
      refine ⟨_, hlasts.concat _ fun u hu _ => by cases hu; rfl, ?_⟩
      rw [contextOf_concat, becomes, if_pos rfl, ← hcontext]
      rfl
    · rename_i hq
      obtain ⟨since, hlasts, hcontext⟩ := h.lasting q v hv
      refine ⟨_, hlasts.concat _ fun u hu hwho => absurd hwho (by cases hu; exact hq), ?_⟩
      rw [contextOf_concat, becomes, if_neg hq, hcontext]

/-- **The store follows the story when a session is cleared.** -/
theorem Follows.clear (h : Follows timeout story s) (who : String × String) :
    Follows timeout (story ++ [.cleared who]) (s.clear who.1 who.2) := by
  refine ⟨h.timeout_eq, fun v hv => ?_, fun q => ?_, fun q v hv => ?_⟩
  · exact h.numbered v ((List.mem_append.1 hv).resolve_right (by simp))
  · rw [SessionStore.clear, Table.get?_erase, standing?_concat, stand]
    split
    · rfl
    · exact h.held q
  · rw [standing?_concat, stand] at hv
    split at hv
    · cases hv
    · obtain ⟨since, hlasts, hcontext⟩ := h.lasting q v hv
      refine ⟨_, hlasts.concat _ fun u hu => (by cases hu), ?_⟩
      rw [contextOf_concat, becomes, hcontext]

theorem storyOf_concat (timeout : Nat) (calls : List (Timed (SessionCall R)))
    (t : Timed (SessionCall R)) : storyOf timeout (calls ++ [t]) =
      storyOf timeout calls ++ [(sees (after perform (empty timeout) calls) t).1] := by
  rw [storyOf, log_concat, List.map_append]
  rfl

theorem follows_after (timeout : Nat) (calls : List (Timed (SessionCall R))) :
    Follows timeout (storyOf timeout calls) (after perform (empty timeout) calls) := by
  induction calls using List.reverseRecOn with
  | nil => exact follows_empty timeout
  | append_singleton calls t ih =>
    rw [storyOf_concat, after_concat]
    obtain ⟨instant, call⟩ := t
    cases call with
    | access who a => exact ih.visit instant who a
    | clear who => exact ih.clear who

/-- **Which session an access works on.** It is the one of the access to the
same pair before, exactly if the pair has not been cleared in between and no
more than `timeout` has passed; otherwise, and at the first access, its number
is new and its context is empty. Its context is what the accesses to the pair
have made of an empty one, in order, since the session began. -/
theorem due_of_story (timeout : Nat) (calls : List (Timed (SessionCall R))) (now : Nat)
    (who : String × String) (a : SessionAccess R) :
    let s := after perform (empty timeout) calls
    let story := storyOf timeout calls
    let session := s.due now who
    (s.access now who a).1 = a.answer session ∧
      (∀ v between, LastVisit who v between story →
        (session.number = v.session.number ↔
          .cleared who ∉ between ∧ now - v.instant ≤ timeout) ∧
        (¬ (.cleared who ∉ between ∧ now - v.instant ≤ timeout) → Fresh session story)) ∧
      ((∀ u, .visited u ∈ story → u.who ≠ who) → Fresh session story) ∧
      ∃ since, Lasts who session.number story since ∧ session.context = contextOf who since := by
  intro s story session
  have hs : Follows timeout story s := follows_after timeout calls
  have hanswer : (s.access now who a).1 = a.answer session := by rw [access_eq]
  rcases hs.due_eq now who with ⟨v, hstand, hidle, hdue⟩ | ⟨hidle, hdue⟩
  · -- what stands is the last access, and was not cleared
    have hnumber : session.number = v.session.number := (congrArg Session.number hdue).trans rfl
    refine ⟨hanswer, fun u between hu => ?_, fun hfirst => ?_, hs.due_context now who⟩
    · have hclear : .cleared who ∉ between := fun hmem => by
        rw [hu.not_standing hmem] at hstand
        cases hstand
      obtain rfl : u = v := Option.some.inj ((hu.standing hclear).symm.trans hstand)
      exact ⟨iff_of_true hnumber ⟨hclear, hidle⟩, fun hover => absurd ⟨hclear, hidle⟩ hover⟩
    · obtain ⟨between, hlast, -⟩ := lastVisit_of_standing hstand
      exact absurd hlast.who_eq (hfirst v hlast.mem)
  · have hnumber : session.number = s.opened := congrArg Session.number hdue
    have hfresh : Fresh session story := by
      refine ⟨fun u hu => ?_, congrArg Session.context hdue⟩
      have hold := hs.numbered u hu
      omega
    refine ⟨hanswer, fun u between hu => ⟨?_, fun _ => hfresh⟩, fun _ => hfresh,
      hs.due_context now who⟩
    exact iff_of_false (hfresh.1 u hu.mem).symm fun h => hidle u (hu.standing h.1) h.2

/-- Alice's session in the lobby goes on after a minute, what Bob does there
set aside, and not a moment later. -/
theorem due_of_story_minute :
    let calls : List (Timed (SessionCall Unit)) :=
      [⟨0, .access ("alice", "lobby") (.update "topic" (.text "rust"))⟩,
        ⟨30, .access ("bob", "lobby") .getOrCreate⟩, ⟨45, .clear ("bob", "lobby")⟩]
    let s := after perform (empty 60) calls
    (s.due 60 ("alice", "lobby")).number = 0 ∧
      (s.due 61 ("alice", "lobby")).number ≠ 0 ∧ (s.due 61 ("alice", "lobby")).context = [] := by
  intro calls s
  have hlast : LastVisit ("alice", "lobby")
      ⟨0, ("alice", "lobby"), .update "topic" (.text "rust"), ⟨0, [], 0⟩⟩
      [.visited ⟨30, ("bob", "lobby"), .getOrCreate, ⟨1, [], 30⟩⟩, .cleared ("bob", "lobby")]
      (storyOf 60 calls) := by
    refine ⟨[], rfl, rfl, fun u hu => ?_⟩
    simp only [List.mem_cons, SessionEvent.visited.injEq, reduceCtorEq, List.not_mem_nil,
      or_false] at hu
    subst hu
    decide
  have hnow := (due_of_story 60 calls 60 ("alice", "lobby") .getOrCreate).2.1 _ _ hlast
  have hlater := (due_of_story 60 calls 61 ("alice", "lobby") .getOrCreate).2.1 _ _ hlast
  have hover : ¬ 61 - 0 ≤ 60 := by decide
  exact ⟨hnow.1.2 ⟨by simp, by decide⟩, fun hsame => hover (hlater.1.1 hsame).2,
    (hlater.2 fun h => hover h.2).2⟩

end SessionStore

end Colloquy
