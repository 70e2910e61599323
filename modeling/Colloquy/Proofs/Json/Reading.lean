import Mathlib.Data.List.Forall2
import Colloquy.Proofs.Json.Scalar
import Colloquy.Proofs.Text.Prefix
/-!
# Reading what has been printed

`Reads` says that a text is read as a value of a shape whatever closes it. Texts,
counts and names are read so, and a record is when its members are, in any order
and with any space between them (`Reads.record`); so is a list when its items are
(`Reads.list`).
-/

namespace Colloquy.Json

/-! ## Space -/

/-- A text of nothing but space. -/
def IsSpaces (s : List Char) : Prop := ∀ c ∈ s, isSpace c = true

theorem skipSpace_append {space : List Char} (h : IsSpaces space) (s : List Char) :
    skipSpace (space ++ s) = skipSpace s :=
  List.dropWhile_append_of_pos h

theorem skipSpace_cons {c : Char} (h : isSpace c = false) (s : List Char) :
    skipSpace (c :: s) = c :: s :=
  List.dropWhile_cons_of_neg (by rw [h]; decide)

theorem isSpace_of_isDigit {c : Char} (h : isDigit c = true) : isSpace c = false := by
  rw [Bool.eq_false_iff]
  intro hspace
  simp only [isSpace, Bool.or_eq_true, decide_eq_true_eq] at hspace
  rcases hspace with ((rfl | rfl) | rfl) | rfl <;> exact absurd h (by decide)

/-- Every value may have space in front of it. -/
theorem readShape_append {space : List Char} (h : IsSpaces space) (fuel depth : Nat) (shape : Shape)
    (s : List Char) : readShape fuel depth shape (space ++ s) = readShape fuel depth shape s := by
  cases fuel with
  | zero => rw [readShape, readShape]
  | succ fuel =>
    cases shape <;> simp only [readShape, readAny, readTag, readLeaf, skipSpace_append h]

/-! ## Values -/

/-- **A text is read as a value**, with so many calls, whatever closes it. -/
def Reads (calls depth : Nat) (shape : Shape) (s : List Char) (j : Json) : Prop :=
  ∀ fuel rest, calls ≤ fuel → Closes rest →
    readShape fuel depth shape (s ++ rest) = .ok (j, rest)

variable {calls depth : Nat} {shape : Shape} {s : List Char} {j : Json}

/-- The first character of a text with its quotes is a quote. -/
theorem quote_append (t : String) (rest : List Char) :
    quote t ++ rest = '"' :: (t.toList.flatMap escapeChar ++ '"' :: rest) := by
  rw [quote, List.cons_append, List.append_assoc]
  rfl

theorem Reads.text {accepts : String → Bool} {t : String} (h : accepts t = true) :
    Reads 1 depth (.text accepts) (quote t) (.text t) := by
  rintro (_ | fuel) rest hfuel -
  · omega
  · rw [quote_append]
    simp [readShape, readLeaf, skipSpace_cons (show isSpace '"' = false by decide),
      textBody_escaped, h, bind, Except.bind]

theorem Reads.name {names : List String} {t : String} (h : t ∈ names) :
    Reads 1 depth (.tag names) (quote t) (.text t) := by
  rintro (_ | fuel) rest hfuel -
  · omega
  · rw [quote_append]
    simp [readShape, readTag, skipSpace_cons (show isSpace '"' = false by decide),
      textBody_escaped, h, bind, Except.bind]

theorem Reads.count {max n : Nat} (hn : n ≤ max) (hmax : max < Nat.pow 2 64) :
    Reads 1 depth (.nat max) (toString (n : Int)).toList (.nat n) := by
  rintro (_ | fuel) rest hfuel hrest
  · omega
  · have hcount := signedNumeral_count (Nat.lt_of_le_of_lt hn hmax) hrest
    obtain ⟨c, front, htext, -, hc⟩ := digits_count n
    rw [htext, List.cons_append] at hcount ⊢
    have hnumeral : beginsNumeral c = true := by rw [beginsNumeral, hc, Bool.or_true]
    simp [readShape, readLeaf, skipSpace_cons (isSpace_of_isDigit hc), hnumeral, hcount, hn,
      bind, Except.bind, Json.nat]

/-- Where a value may be missing, `null` says that it is. -/
theorem Reads.missing : Reads 1 depth (.optional shape) "null".toList .null := by
  rintro (_ | fuel) rest hfuel -
  · omega
  · have hnull : "null".toList ++ rest = 'n' :: ("ull".toList ++ rest) := rfl
    rw [hnull]
    simp only [readShape, skipSpace_cons (show isSpace 'n' = false by decide), literal,
      Text.afterPrefix?_append]

/-- An optional value that does not begin as `null` does is read as the value. -/
theorem Reads.given (h : Reads calls depth shape s j)
    (hs : ∃ c tail, s = c :: tail ∧ isSpace c = false ∧ c ≠ 'n') :
    Reads (calls + 1) depth (.optional shape) s j := by
  obtain ⟨c, tail, rfl, hc, hn⟩ := hs
  rintro (_ | fuel) rest hfuel hrest
  · omega
  · have hvalue := h fuel rest (by omega) hrest
    simp only [readShape, List.cons_append, skipSpace_cons hc] at hvalue ⊢
    split
    · rename_i heq
      exact absurd (List.cons.inj heq).1 hn
    · exact hvalue

/-! ## Records -/

/-- The space of a layout: in front of an item, in front of the end, and behind a
colon. -/
structure Spacing where
  item : List Char
  close : List Char
  colon : List Char
  item_spaces : IsSpaces item
  close_spaces : IsSpaces close
  colon_spaces : IsSpaces colon

namespace Spacing

/-- Members up to the end of their object, each with the text of its value, and with a
comma in front of all but the first one. -/
def membersText (l : Spacing) : Bool → List (String × List Char) → List Char
  | _, [] => l.close ++ ['\x7d']
  | first, (name, value) :: ms =>
    (if first then [] else [',']) ++
      (l.item ++ (quote name ++ ':' :: (l.colon ++ (value ++ l.membersText false ms))))

end Spacing

theorem closes_of_space {c : Char} (h : isSpace c = true) (rest : List Char) :
    Closes (c :: rest) := by
  rintro _ ⟨⟩
  simp only [isSpace, Bool.or_eq_true, decide_eq_true_eq] at h
  rcases h with ((rfl | rfl) | rfl) | rfl <;> decide

/-- Spaces close a value, and so does what is behind them. -/
theorem closes_append {space rest : List Char} (hspace : IsSpaces space) (hrest : Closes rest) :
    Closes (space ++ rest) := by
  cases space with
  | nil => exact hrest
  | cons c space => exact closes_of_space (hspace c (.head _)) _

theorem closes_cons {c : Char} (h : isDigit c = false ∧ c ≠ '.' ∧ c ≠ 'e' ∧ c ≠ 'E')
    (rest : List Char) : Closes (c :: rest) := by
  rintro _ ⟨⟩
  exact h

/-- What stands between two items, or behind the last, closes the one before it. -/
theorem Spacing.closes_membersText (l : Spacing) (ms : List (String × List Char))
    (rest : List Char) : Closes (l.membersText false ms ++ rest) := by
  cases ms with
  | nil =>
    rw [membersText, List.append_assoc]
    exact closes_append l.close_spaces (closes_cons (c := '\x7d') (by decide) rest)
  | cons m ms => exact closes_cons (c := ',') (by decide) _

/-! ### Turns -/

theorem turn_done {space : List Char} (h : IsSpaces space) {close : Char}
    (hclose : isSpace close = false) (first : Bool) (rest : List Char) :
    turn close first (space ++ close :: rest) = .ok (.done rest) := by
  rw [turn, skipSpace_append h, skipSpace_cons hclose]
  exact if_pos rfl

/-- The first item has no comma in front of it. -/
theorem turn_first {space : List Char} (h : IsSpaces space) {close c : Char}
    (hc : isSpace c = false) (hclose : c ≠ close) (rest : List Char) :
    turn close true (space ++ c :: rest) = .ok (.next (c :: rest)) := by
  rw [turn, skipSpace_append h, skipSpace_cons hc]
  exact (if_neg hclose).trans (if_pos rfl)

/-- Every item behind the first has a comma in front of it. -/
theorem turn_next {space : List Char} (h : IsSpaces space) {close c : Char}
    (hc : isSpace c = false) (hclose : c ≠ close) (hcomma : ',' ≠ close) (rest : List Char) :
    turn close false (',' :: (space ++ c :: rest)) = .ok (.next (c :: rest)) := by
  rw [turn, skipSpace_cons (by decide)]
  simp only [if_neg hcomma, skipSpace_append h, skipSpace_cons hc, if_neg hclose,
    Bool.false_eq_true, if_false, if_true]

/-! ### Members -/

/-- The turn to a member, the first one or another. -/
theorem Spacing.turn_membersText (l : Spacing) (first : Bool) (name : String)
    (value rest : List Char) (ms : List (String × List Char)) :
    turn '\x7d' first (l.membersText first ((name, value) :: ms) ++ rest) =
      .ok (.next
        (quote name ++ ':' :: (l.colon ++ (value ++ (l.membersText false ms ++ rest))))) := by
  cases first with
  | true =>
    simp only [membersText, if_true, List.nil_append, List.append_assoc, List.cons_append,
      quote_append]
    exact turn_first l.item_spaces (by decide) (by decide) _
  | false =>
    simp only [membersText, Bool.false_eq_true, if_false, List.append_assoc, List.cons_append,
      List.nil_append, quote_append]
    exact turn_next l.item_spaces (by decide) (by decide) (by decide) _

theorem memberName_quote (name : String) (rest : List Char) :
    memberName (quote name ++ rest) = .ok (name, rest) := by
  rw [quote_append, memberName, quoted?, skipSpace_cons (by decide)]
  simp only [textBody_escaped, Except.map, String.ofList_toList]

/-- A member that is new is read and found from there on. -/
theorem readFields_next {fields : List Shape.Field} {first : Bool} {found : List (String × Json)}
    {name : String} {value : Json} {fuel : Nat} {space written rest : List Char}
    (hturn : turn '\x7d' first s = .ok (.next (quote name ++ ':' :: (space ++ (written ++ rest)))))
    (hshape : Shape.fieldShape? name fields = some shape) (hnew : Named.find? name found = none)
    (hspace : IsSpaces space) (hvalue : Reads calls depth shape written value)
    (hfuel : calls ≤ fuel) (hrest : Closes rest) :
    readFields (fuel + 1) depth fields first found s =
      readFields fuel depth fields false ((name, value) :: found) rest := by
  have hcolon : ∀ s, colon (':' :: s) = .ok ((), s) := fun _ => rfl
  rw [readFields]
  simp only [hturn, bind, Except.bind, memberName_quote, hshape, hnew, hcolon, Option.isSome_none,
    Bool.false_eq_true, if_false, readShape_append hspace, hvalue fuel rest hfuel hrest]

theorem readFields_done {fields : List Shape.Field} {first : Bool} {found : List (String × Json)}
    {fuel : Nat} {rest : List Char} (hturn : turn '\x7d' first s = .ok (.done rest)) :
    readFields (fuel + 1) depth fields first found s =
      (arrange fields found).map fun ms => (ms, rest) := by
  rw [readFields]
  simp only [hturn, bind, Except.bind]

/-- The text of a member is read as the value that a record has under its name. -/
def ReadsMember (calls depth : Nat) (fields : List Shape.Field) (m : String × List Char)
    (m' : String × Json) : Prop :=
  m.1 = m'.1 ∧ ∃ shape, Shape.fieldShape? m.1 fields = some shape ∧ Reads calls depth shape m.2 m'.2

/-- **The members of an object are read one after another.** -/
theorem readFields_membersText (l : Spacing) {fields : List Shape.Field}
    {texts : List (String × List Char)} {values : List (String × Json)}
    (h : List.Forall₂ (ReadsMember calls depth fields) texts values) :
    ∀ {first : Bool} {found : List (String × Json)} {fuel : Nat}, (texts.map Prod.fst).Nodup →
      (∀ m ∈ texts, Named.find? m.1 found = none) → calls + texts.length < fuel →
      ∀ rest, readFields fuel depth fields first found (l.membersText first texts ++ rest) =
        (arrange fields (values.reverse ++ found)).map fun ms => (ms, rest) := by
  induction h with
  | nil =>
    rintro first found (_ | fuel) - - hfuel rest
    · omega
    · rw [Spacing.membersText, List.append_assoc]
      exact readFields_done (turn_done l.close_spaces (by decide) first rest)
  | @cons m m' texts values hmember _ ih =>
    obtain ⟨name, written⟩ := m
    obtain ⟨_, value⟩ := m'
    obtain ⟨rfl, shape, hshape, hvalue⟩ := hmember
    rintro first found (_ | fuel) hnames hnew hfuel rest
    · omega
    · rw [List.map_cons, List.nodup_cons] at hnames
      rw [List.length_cons] at hfuel
      have hnew' : ∀ m ∈ texts, Named.find? m.1 ((name, value) :: found) = none := by
        intro m hm
        have hmem : m.1 ∈ texts.map Prod.fst := List.mem_map_of_mem hm
        have hne : name ≠ m.1 := by
          rintro rfl
          exact hnames.1 hmem
        rw [Named.find?, if_neg hne]
        exact hnew m (.tail _ hm)
      rw [readFields_next (l.turn_membersText first name written rest texts) hshape
          (hnew _ (.head _)) l.colon_spaces hvalue (by omega) (l.closes_membersText texts rest),
        ih hnames.2 hnew' (by omega) rest, List.reverse_cons, List.append_assoc]
      rfl

/-- **A record is read from an object** whose members are read as values for it, and
give it all that it needs. -/
theorem Reads.record (l : Spacing) {fields : List Shape.Field} {texts : List (String × List Char)}
    {values ms : List (String × Json)}
    (h : List.Forall₂ (ReadsMember calls depth fields) texts values)
    (hnames : (texts.map Prod.fst).Nodup) (hms : arrange fields values.reverse = .ok ms) :
    Reads (calls + texts.length + 2) (depth + 1) (.record fields)
      ('\x7b' :: l.membersText true texts) (.object ms) := by
  rintro (_ | fuel) rest hfuel -
  · omega
  · have hread : readFields fuel depth fields true [] (l.membersText true texts ++ rest) = _ :=
      readFields_membersText l h hnames (fun _ _ => rfl) (by omega) rest
    rw [List.append_nil, hms] at hread
    rw [List.cons_append]
    simp only [readShape, skipSpace_cons (show isSpace '\x7b' = false by decide),
      Nat.add_sub_cancel, Nat.succ_ne_zero, if_false, hread, Except.map]

/-! ## Lists -/

namespace Spacing

/-- Items up to the end of their list, with a comma in front of all but the first one. -/
def itemsText (l : Spacing) : Bool → List (List Char) → List Char
  | _, [] => l.close ++ [']']
  | first, item :: items =>
    (if first then [] else [',']) ++ (l.item ++ (item ++ l.itemsText false items))

end Spacing

/-- A text that can stand behind the bracket of a list. -/
def BeginsItem (s : List Char) : Prop := ∃ c tail, s = c :: tail ∧ isSpace c = false ∧ c ≠ ']'

theorem Spacing.closes_itemsText (l : Spacing) (items : List (List Char)) (rest : List Char) :
    Closes (l.itemsText false items ++ rest) := by
  cases items with
  | nil =>
    rw [itemsText, List.append_assoc]
    exact closes_append l.close_spaces (closes_cons (c := ']') (by decide) rest)
  | cons item items => exact closes_cons (c := ',') (by decide) _

/-- The turn to an item, the first one or another. -/
theorem Spacing.turn_itemsText (l : Spacing) (first : Bool) {item : List Char}
    (hitem : BeginsItem item) (items : List (List Char)) (rest : List Char) :
    turn ']' first (l.itemsText first (item :: items) ++ rest) =
      .ok (.next (item ++ (l.itemsText false items ++ rest))) := by
  obtain ⟨c, tail, rfl, hspace, hclose⟩ := hitem
  cases first with
  | true =>
    simp only [itemsText, if_true, List.nil_append, List.append_assoc, List.cons_append]
    exact turn_first l.item_spaces hspace hclose _
  | false =>
    simp only [itemsText, Bool.false_eq_true, if_false, List.append_assoc, List.cons_append,
      List.nil_append]
    exact turn_next l.item_spaces hspace hclose (by decide) _

/-- The text of an item is read as a value. -/
def ReadsItem (calls depth : Nat) (shape : Shape) (text : List Char) (value : Json) : Prop :=
  BeginsItem text ∧ Reads calls depth shape text value

/-- **The items of a list are read one after another.** -/
theorem readList_itemsText (l : Spacing) {texts : List (List Char)} {values : List Json}
    (h : List.Forall₂ (ReadsItem calls depth shape) texts values) :
    ∀ {first : Bool} {fuel : Nat}, calls + texts.length < fuel → ∀ rest,
      readList fuel depth shape first (l.itemsText first texts ++ rest) = .ok (values, rest) := by
  induction h with
  | nil =>
    rintro first (_ | fuel) hfuel rest
    · omega
    · rw [Spacing.itemsText, List.append_assoc, readList]
      simp only [turn_done l.close_spaces (show isSpace ']' = false by decide) first rest,
        List.cons_append, List.nil_append, bind, Except.bind]
  | @cons text value texts values hitem _ ih =>
    rintro first (_ | fuel) hfuel rest
    · omega
    · rw [List.length_cons] at hfuel
      have hvalue := hitem.2 fuel (l.itemsText false texts ++ rest) (by omega)
        (l.closes_itemsText texts rest)
      have hrest : readList fuel depth shape false (l.itemsText false texts ++ rest) = _ :=
        ih (by omega) rest
      rw [readList]
      simp only [l.turn_itemsText first hitem.1, hvalue, hrest, bind, Except.bind]

/-- **A list is read** when its items are. -/
theorem Reads.list (l : Spacing) {texts : List (List Char)} {values : List Json}
    (h : List.Forall₂ (ReadsItem calls depth shape) texts values) :
    Reads (calls + texts.length + 2) (depth + 1) (.listOf shape) ('[' :: l.itemsText true texts)
      (.list values) := by
  rintro (_ | fuel) rest hfuel -
  · omega
  · have hread : readList fuel depth shape true (l.itemsText true texts ++ rest) = _ :=
      readList_itemsText l h (by omega) rest
    rw [List.cons_append]
    simp only [readShape, skipSpace_cons (show isSpace '[' = false by decide),
      Nat.add_sub_cancel, Nat.succ_ne_zero, if_false, hread, Except.map]

end Colloquy.Json
