import Colloquy.Proofs.Table
import Colloquy.Proofs.Timeline
import Colloquy.Session
/-!
# Accesses to sessions

There are four ways to a pair's session, and each is one look at it: the store
finds the session that is due, hands it over, and keeps what becomes of its
context (`access_eq`). Which session is due depends on the live one of the pair
alone (`current_eq`).
-/

namespace Colloquy

/-- What an access does with a session. `R` is what a change of the context
gives back. -/
inductive SessionAccess (R : Type) where
  | getOrCreate
  | update (key : String) (value : Json)
  | updateWith (change : Context → R × Context)
  | getContext (key : String) (default : Json)

/-- What an access gives. -/
inductive SessionAnswer (R : Type) where
  | session (session : Session)
  | done
  | result (result : R)
  | value (value : Json)

/-- A call of the store, for a pair of user and room. -/
inductive SessionCall (R : Type) where
  | access (who : String × String) (access : SessionAccess R)
  | clear (who : String × String)

namespace SessionAccess

variable {R : Type}

/-- What an access gives of a session. -/
def answer (a : SessionAccess R) (session : Session) : SessionAnswer R :=
  match a with
  | .getOrCreate => .session session
  | .update _ _ => .done
  | .updateWith change => .result (change session.context).1
  | .getContext key default => .value ((Named.find? key session.context).getD default)

/-- What an access makes of a context. -/
def mutate (a : SessionAccess R) (context : Context) : Context :=
  match a with
  | .getOrCreate => context
  | .update key value => Named.insert key value context
  | .updateWith change => (change context).2
  | .getContext _ _ => context

end SessionAccess

namespace SessionStore

variable {R : Type}

/-- An access, by the operation that it is. -/
def access (s : SessionStore) (now : Nat) (who : String × String) :
    SessionAccess R → SessionAnswer R × SessionStore
  | .getOrCreate =>
    let (session, s) := s.getOrCreate now who.1 who.2
    (.session session, s)
  | .update key value => (.done, s.update now who.1 who.2 key value)
  | .updateWith change =>
    let (result, s) := s.updateWith now who.1 who.2 change
    (.result result, s)
  | .getContext key default =>
    let (value, s) := s.getContext now who.1 who.2 key default
    (.value value, s)

/-- The session that an access works on. -/
def due (s : SessionStore) (now : Nat) (who : String × String) : Session :=
  (s.current now who.1 who.2).1

/-- What a call gives, and the store behind it. -/
def perform (s : SessionStore) (t : Timed (SessionCall R)) :
    Option (SessionAnswer R) × SessionStore :=
  match t.call with
  | .access who a => ((s.access t.instant who a).1, (s.access t.instant who a).2)
  | .clear who => (none, s.clear who.1 who.2)

/-- **Every access is a look at the session that is due.** -/
theorem access_eq (s : SessionStore) (now : Nat) (who : String × String) (a : SessionAccess R) :
    s.access now who a = (a.answer (s.due now who), { s with
      sessions := s.sessions.put who
        { s.due now who with context := a.mutate (s.due now who).context }
      opened := (s.current now who.1 who.2).2 }) := by
  cases a <;> rfl

theorem not_isExpired {s : SessionStore} {now : Nat} {session : Session} :
    (!s.isExpired now session) = true ↔ now - session.lastSeen ≤ s.timeout := by
  rw [Bool.not_eq_true', isExpired, decide_eq_false_iff_not, Nat.not_lt]

/-- The session of a pair that has not expired. -/
def live? (s : SessionStore) (now : Nat) (who : String × String) : Option Session :=
  (s.sessions.get? who).filter fun session => !s.isExpired now session

/-- **The session that is due** is the live one, refreshed, or else a new one
with the next number. -/
theorem current_eq (s : SessionStore) (now : Nat) (who : String × String) :
    s.current now who.1 who.2 =
      match s.live? now who with
      | some session => ({ session with lastSeen := now }, s.opened)
      | none => (⟨s.opened, [], now⟩, s.opened + 1) := by
  simp only [current, live?]
  cases s.sessions.get? who with
  | none => rfl
  | some session => cases hdead : s.isExpired now session <;> simp [Option.filter, hdead]

theorem due_lastSeen (s : SessionStore) (now : Nat) (who : String × String) :
    (s.due now who).lastSeen = now := by
  rw [due, current_eq]
  split <;> rfl

/-- **What stands in a store behind a visit**: the session of the pair as the
visit has left it, and the others as they were. -/
theorem get?_visit {α : Type} (s : SessionStore) (now : Nat) (user room : String)
    (change : Session → α × Context) (who : String × String) :
    (s.visit now user room change).2.sessions.get? who =
      if (user, room) = who then
        some { s.due now (user, room) with
          context := (change (s.due now (user, room))).2 }
      else s.sessions.get? who := by
  simp only [visit, due, Table.get?_put]

/-- The context of a session that is due is that of the stored one, or empty. -/
theorem due_context (s : SessionStore) (now : Nat) (who : String × String) :
    (s.due now who).context = [] ∨
      ∃ session, s.sessions.get? who = some session ∧
        (s.due now who).context = session.context := by
  simp only [due, current]
  cases hget : s.sessions.get? who with
  | none => exact .inl rfl
  | some session =>
    dsimp only
    split
    · exact .inl rfl
    · exact .inr ⟨session, rfl, rfl⟩

/-- A count is the value of its name, and zero where that is no number. -/
theorem count_eq (key : String) (context : Context) :
    count key context = ((Named.find? key context).bind Json.nat?).getD 0 := by
  rw [count]
  cases Named.find? key context <;> rfl

/-- **The session of a pair is touched**: it is live at an instant, and a change has
been made to its context. It is the stored session, or, when that has been idle for
longer than the timeout or there is none, a new one that was empty. The sessions of
other pairs stay as they are. -/
structure Touched (before after : SessionStore) (now : Nat) (who : String × String)
    (change : Context → Context → Prop) : Prop where
  timeout : after.timeout = before.timeout
  others : ∀ other, other ≠ who → after.sessions.get? other = before.sessions.get? other
  kept : ∀ old, before.sessions.get? who = some old → now - old.lastSeen ≤ before.timeout →
    after.opened = before.opened ∧ ∃ context, change old.context context ∧
      after.sessions.get? who = some ⟨old.number, context, now⟩
  fresh : (∀ old, before.sessions.get? who = some old → before.timeout < now - old.lastSeen) →
    after.opened = before.opened + 1 ∧ ∃ context, change [] context ∧
      after.sessions.get? who = some ⟨before.opened, context, now⟩

/-- A visit touches the session of its pair. -/
theorem touched_visit {α : Type} {change : Context → Context → Prop} (s : SessionStore)
    (now : Nat) (user room : String) (f : Session → α × Context)
    (hf : ∀ session, change session.context (f session).2) :
    s.Touched (s.visit now user room f).2 now (user, room) change where
  timeout := rfl
  others other hother := by rw [get?_visit, if_neg (Ne.symm hother)]
  kept old hold hidle := by
    have hcurrent : s.current now user room = ({ old with lastSeen := now }, s.opened) := by
      simp only [current, hold, isExpired, decide_eq_true_eq, if_neg (Nat.not_lt.2 hidle)]
    rw [get?_visit, if_pos rfl, due, visit, hcurrent]
    exact ⟨rfl, _, hf { old with lastSeen := now }, rfl⟩
  fresh hnone := by
    have hcurrent : s.current now user room = (⟨s.opened, [], now⟩, s.opened + 1) := by
      rw [current]
      split
      · rename_i old hold
        rw [isExpired, if_pos (decide_eq_true (hnone old hold))]
      · rfl
    rw [get?_visit, if_pos rfl, due, visit, hcurrent]
    exact ⟨rfl, _, hf ⟨s.opened, [], now⟩, rfl⟩

end SessionStore

end Colloquy
