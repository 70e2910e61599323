import Colloquy.Proofs.Dispatch.Effect
/-!
# A hall over time

Commands follow one another, histories are forgotten, and time passes in
between. `Hall.play` runs such a list of acts and logs each of them with the
instants and the result it had. A fact about every run is proved once at the
start and once for an act (`play_keeps`).
-/

namespace Colloquy

/-- What happens in a hall. -/
inductive Act where
  | command (r : Request)
  | forget (room : String)
  | wait (ms : Nat)

/-- What a log says of an act. -/
inductive Entry where
  /-- A command, when it was asked, when it ended, and how. -/
  | command (r : Request) (asked ended : Nat) (outcome : Outcome)
  | forgot (room : String) (result : Except StorageError Nat)
  | waited (ms : Nat)

namespace Hall

variable {W : Type} {p : Ports W} {s : Settings} {catalog : Catalog}

/-- One act, and what the log says of it. -/
def perform (p : Ports W) (h : Hall W) : Act → Hall W × Entry
  | .command r =>
    let (h', outcome) := h.command p r none
    (h', .command r h.now h'.now outcome)
  | .forget room =>
    let (h', result) := h.forget p room
    (h', .forgot room result)
  | .wait ms => (h.advance ms, .waited ms)

/-- One act behind a log. -/
def logged (p : Ports W) (played : Hall W × List Entry) (a : Act) : Hall W × List Entry :=
  ((played.1.perform p a).1, played.2 ++ [(played.1.perform p a).2])

/-- Acts one after another, and their log. -/
def play (p : Ports W) (h : Hall W) (acts : List Act) : Hall W × List Entry :=
  acts.foldl (logged p) (h, [])

theorem play_command (p : Ports W) (h : Hall W) (r : Request) :
    play p h [.command r] = ((h.command p r none).1,
      [.command r h.now (h.command p r none).1.now (h.command p r none).2]) := by
  simp only [play, List.foldl_cons, List.foldl_nil, logged, perform, List.nil_append]

/-- One more act. -/
theorem play_concat (p : Ports W) (h : Hall W) (acts : List Act) (a : Act) :
    play p h (acts ++ [a]) = logged p (play p h acts) a := by
  simp only [play, List.foldl_append, List.foldl_cons, List.foldl_nil]

/-- **What every act keeps, a run keeps.** -/
theorem play_keeps {I : Hall W → List Entry → Prop} {h : Hall W} {acts : List Act} (h0 : I h [])
    (hstep : ∀ h log, ∀ a ∈ acts, I h log → I (perform p h a).1 (log ++ [(perform p h a).2])) :
    I (play p h acts).1 (play p h acts).2 := by
  -- by induction on what is left to play, over any hall and log reached so far
  have hrun : ∀ (rest : List Act) (played : Hall W × List Entry), (∀ a ∈ rest, a ∈ acts) →
      I played.1 played.2 →
        I (rest.foldl (logged p) played).1 (rest.foldl (logged p) played).2 := by
    intro rest
    induction rest with
    | nil => intro played _ hplayed; exact hplayed
    | cons a rest ih =>
      intro played hrest hplayed
      exact ih _ (fun b hb => hrest b (.tail a hb))
        (hstep _ _ a (hrest a (.head rest)) hplayed)
  exact hrun acts (h, []) (fun _ ha => ha) h0

/-- An act stays among the reachable halls. -/
theorem Reachable.perform {h : Hall W} (hh : Reachable p s catalog h) (a : Act) :
    Reachable p s catalog (h.perform p a).1 := by
  cases a with
  | command r => exact hh.command r none
  | forget room => exact hh.later _ (Nat.le_refl _)
  | wait ms => exact hh.elapsed h.world ms

/-- A run leads from one reachable hall to another. -/
theorem Reachable.play {h : Hall W} (hh : Reachable p s catalog h) (acts : List Act) :
    Reachable p s catalog (h.play p acts).1 :=
  play_keeps (I := fun h _ => Reachable p s catalog h) hh fun _ _ a _ hh => hh.perform a

end Hall

end Colloquy
