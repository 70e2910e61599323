import Colloquy.Proofs.Dispatch.Step
import Mathlib.Data.List.Induction
/-!
# Commands that interleave

Any number of commands are under way at once. Each of them waits for a call;
the call is carried out at some time, and at some later time the command takes
its step behind the answer. `Floor.run` plays moves of this kind in any order,
with any time between them. `Floor.Step` is what one move can do, and a sum
over the commands changes with it at one place (`total_split`).
-/

namespace Colloquy

/-- A command under way: where it stands, and the answer that it has not yet
seen. -/
structure Ticket where
  request : Request
  stage : Stage
  answer : Option Answer := none

/-- The reply that a command has been given, with the request that it
answers. -/
def Ticket.reply? (t : Ticket) : Option (Request × Reply) :=
  match t.stage with
  | .finished reply => some (t.request, reply)
  | _ => none

/-- A hall with the commands in it, in the order in which they came. -/
structure Floor (W : Type) where
  hall : Hall W
  tickets : List Ticket := []

/-- What can happen next. -/
inductive Move where
  /-- A command comes and takes its first step. -/
  | arrive (r : Request)
  /-- The call that a command waits for is carried out. -/
  | serve (i : Nat)
  /-- A command takes its step behind the answer. -/
  | resume (i : Nat)
  | wait (ms : Nat)

/-- How long a move takes. -/
def Move.takes : Move → Nat
  | .wait ms => ms
  | _ => 0

namespace Floor

variable {W : Type}

/-- One move. A command that does not exist, or is not ready for the move,
stays as it is. -/
def move (p : Ports W) (f : Floor W) : Move → Floor W
  | .arrive r =>
    let (desk, stage) := Stage.start f.hall.desk f.hall.now r
    ⟨{ f.hall with desk := desk }, f.tickets ++ [⟨r, stage, none⟩]⟩
  | .serve i =>
    match f.tickets[i]? with
    | some ⟨r, stage, none⟩ =>
      match stage.call? f.hall.desk r with
      | some call =>
        let (world, _, answer) := p.serve f.hall.world call
        ⟨{ f.hall with world := world }, f.tickets.set i ⟨r, stage, some answer⟩⟩
      | none => f
    | _ => f
  | .resume i =>
    match f.tickets[i]? with
    | some ⟨r, stage, some answer⟩ =>
      let (desk, world, stage) :=
        stage.resume p f.hall.desk f.hall.world f.hall.now r answer
      ⟨⟨desk, world, f.hall.now⟩, f.tickets.set i ⟨r, stage, none⟩⟩
    | _ => f
  | .wait ms => { f with hall := f.hall.advance ms }

/-- Moves one after another. -/
def run (p : Ports W) (f : Floor W) (moves : List Move) : Floor W :=
  moves.foldl (move p) f

/-- The replies that have been given. -/
def replies (f : Floor W) : List (Request × Reply) := f.tickets.filterMap Ticket.reply?

/-- **The moves**, by what they do to the commands: one comes, one is served,
one goes on, or none is concerned. -/
inductive Step (p : Ports W) (f : Floor W) : Floor W → Prop
  /-- The move does not apply. -/
  | idle : Step p f f
  | arrived {r : Request} {next : Desk × Stage} : Stage.Begun f.hall.desk f.hall.now r next →
      Step p f ⟨{ f.hall with desk := next.1 }, f.tickets ++ [⟨r, next.2, none⟩]⟩
  | served {r : Request} {stage : Stage} {call : Call} {before after : List Ticket} :
      f.tickets = before ++ ⟨r, stage, none⟩ :: after →
      stage.call? f.hall.desk r = some call →
      Step p f ⟨{ f.hall with world := (p.serve f.hall.world call).1 },
        before ++ ⟨r, stage, some (p.serve f.hall.world call).2.2⟩ :: after⟩
  | resumed {r : Request} {stage : Stage} {answer : Answer} {next : Desk × W × Stage}
      {before after : List Ticket} :
      f.tickets = before ++ ⟨r, stage, some answer⟩ :: after →
      Stage.Next p f.hall.desk f.hall.world f.hall.now r stage answer next →
      Step p f ⟨⟨next.1, next.2.1, f.hall.now⟩, before ++ ⟨r, next.2.2, none⟩ :: after⟩
  | waited {ms : Nat} : Step p f { f with hall := f.hall.advance ms }

/-- A list around the place of an item, and with another item there. -/
theorem split_set {α : Type} {items : List α} {i : Nat} {a : α} (h : items[i]? = some a) :
    ∃ before after, items = before ++ a :: after ∧ ∀ b, items.set i b = before ++ b :: after := by
  obtain ⟨hi, rfl⟩ := List.getElem?_eq_some_iff.1 h
  refine ⟨items.take i, items.drop (i + 1), ?_, fun b => ?_⟩
  · rw [List.getElem_cons_drop, List.take_append_drop]
  · rw [List.set_eq_take_append_cons_drop, if_pos hi]

/-- What holds of all items holds of them with another one in a place, if it
holds of that. -/
theorem forall_mem_split {α : Type} {good : α → Prop} {before after : List α} {a b : α}
    (h : ∀ x ∈ before ++ a :: after, good x) (hb : good b) :
    ∀ x ∈ before ++ b :: after, good x := by
  intro x hx
  rcases List.mem_append.1 hx with hx | hx
  · exact h x (by simp [hx])
  · rcases List.mem_cons.1 hx with rfl | hx
    · exact hb
    · exact h x (by simp [hx])

/-- What there is of an item in a list is there with another in its place that has it, too. -/
theorem exists_mem_split {α : Type} {good : α → Prop} {before after : List α} {a b : α}
    (h : ∃ x ∈ before ++ a :: after, good x) (hb : good a → good b) :
    ∃ x ∈ before ++ b :: after, good x := by
  obtain ⟨x, hx, hgood⟩ := h
  rcases List.mem_append.1 hx with hx | hx
  · exact ⟨x, List.mem_append_left _ hx, hgood⟩
  · rcases List.mem_cons.1 hx with rfl | hx
    · exact ⟨b, List.mem_append_right _ (.head _), hb hgood⟩
    · exact ⟨x, List.mem_append_right _ (.tail _ hx), hgood⟩

/-- **Every move is one of these steps.** -/
theorem move_step (p : Ports W) (f : Floor W) (m : Move) : Step p f (f.move p m) := by
  cases m with
  | arrive r => exact .arrived (Stage.start_begun _ _ _)
  | wait ms => exact .waited
  | serve i =>
    simp only [move]
    split
    · rename_i r stage hticket
      obtain ⟨before, after, htickets, hset⟩ := split_set hticket
      split
      · rename_i call hc
        rw [hset]
        exact .served htickets hc
      · exact .idle
    · exact .idle
  | resume i =>
    simp only [move]
    split
    · rename_i r stage answer hticket
      obtain ⟨before, after, htickets, hset⟩ := split_set hticket
      rw [hset]
      exact .resumed htickets (Stage.resume_next p _ _ _ _ _ _)
    · exact .idle

theorem move_resume {p : Ports W} {f : Floor W} {i : Nat} {r : Request} {stage : Stage}
    {answer : Answer} (h : f.tickets[i]? = some ⟨r, stage, some answer⟩) :
    f.move p (.resume i) =
      (let next := stage.resume p f.hall.desk f.hall.world f.hall.now r answer
       ⟨⟨next.1, next.2.1, f.hall.now⟩, f.tickets.set i ⟨r, next.2.2, none⟩⟩) := by
  simp only [move, h]

theorem run_concat (p : Ports W) (f : Floor W) (moves : List Move) (m : Move) :
    run p f (moves ++ [m]) = (run p f moves).move p m := by
  simp only [run, List.foldl_append, List.foldl_cons, List.foldl_nil]

/-- **What every step keeps, a run keeps**, where something else is known of the
floors on the way. -/
theorem run_keeps {p : Ports W} {A I : Floor W → Prop} {f : Floor W} {moves : List Move}
    (hway : ∀ before, before <+: moves → A (run p f before)) (h0 : I f)
    (hstep : ∀ g g', A g → I g → Step p g g' → I g') : I (run p f moves) := by
  induction moves using List.reverseRecOn with
  | nil => exact h0
  | append_singleton moves m ih =>
    have hbefore := ih fun before hb => hway before (hb.trans (List.prefix_append _ _))
    rw [run_concat]
    exact hstep _ _ (hway moves (List.prefix_append _ _)) hbefore (move_step p _ m)

/-- The sum of a number for each command. -/
def total (g : Ticket → Nat) : List Ticket → Nat
  | [] => 0
  | t :: rest => g t + total g rest

/-- **A sum at one of its places.** -/
theorem total_split (g : Ticket → Nat) (before after : List Ticket) (t : Ticket) :
    total g (before ++ t :: after) = total g before + g t + total g after := by
  induction before with
  | nil => simp only [List.nil_append, total, Nat.zero_add]
  | cons first before ih =>
    simp only [List.cons_append, total, ih]
    omega

theorem total_concat (g : Ticket → Nat) (tickets : List Ticket) (t : Ticket) :
    total g (tickets ++ [t]) = total g tickets + g t :=
  total_split g tickets [] t

end Floor

end Colloquy
