import Colloquy.Proofs.Json.Reading
/-!
# Both layouts are read alike

The two layouts of a value differ in the space between its tokens alone. `ReadsAs`
says that a printed value is read in either of them; an object is read so when its
members are.
-/

namespace Colloquy.Json

/-- No space at all. -/
def Spacing.none : Spacing := ⟨[], [], [], nofun, nofun, nofun⟩

theorem isSpaces_newline (depth : Nat) : IsSpaces (newline depth) := by
  intro c hc
  rcases List.mem_cons.1 hc with rfl | hc
  · decide
  · rw [List.eq_of_mem_replicate hc]
    decide

/-- An item a line, below what holds them at a depth. -/
def Spacing.lines (depth : Nat) : Spacing :=
  ⟨newline (depth + 1), newline depth, [' '], isSpaces_newline _, isSpaces_newline _,
    fun c hc => by rw [List.mem_singleton.1 hc]; decide⟩

theorem compactMembers_eq (ms : List (String × Json)) :
    compactMembers ms =
      Spacing.none.membersText false (ms.map fun m => (m.1, compactChars m.2)) := by
  induction ms with
  | nil => rfl
  | cons m ms ih =>
    obtain ⟨name, value⟩ := m
    rw [compactMembers, ih]
    rfl

theorem compactChars_object (ms : List (String × Json)) :
    compactChars (.object ms) =
      '\x7b' :: Spacing.none.membersText true (ms.map fun m => (m.1, compactChars m.2)) := by
  cases ms with
  | nil => rfl
  | cons m ms =>
    obtain ⟨name, value⟩ := m
    rw [compactChars, compactMembers_eq]
    rfl

theorem prettyMembers_eq (depth : Nat) (ms : List (String × Json)) :
    prettyMembers depth ms =
      (Spacing.lines depth).membersText false
        (ms.map fun m => (m.1, prettyChars (depth + 1) m.2)) := by
  induction ms with
  | nil => rfl
  | cons m ms ih =>
    obtain ⟨name, value⟩ := m
    rw [prettyMembers, ih]
    simp [Spacing.membersText, Spacing.lines]

theorem prettyChars_object (depth : Nat) (m : String × Json) (ms : List (String × Json)) :
    prettyChars depth (.object (m :: ms)) =
      '\x7b' :: (Spacing.lines depth).membersText true
        ((m :: ms).map fun m => (m.1, prettyChars (depth + 1) m.2)) := by
  obtain ⟨name, value⟩ := m
  rw [prettyChars, prettyMembers_eq]
  simp [Spacing.membersText, Spacing.lines]

theorem compactItems_eq (xs : List Json) :
    compactItems xs = Spacing.none.itemsText false (xs.map compactChars) := by
  induction xs with
  | nil => rfl
  | cons x xs ih =>
    rw [compactItems, ih]
    rfl

theorem compactChars_list (xs : List Json) :
    compactChars (.list xs) = '[' :: Spacing.none.itemsText true (xs.map compactChars) := by
  cases xs with
  | nil => rfl
  | cons x xs =>
    rw [compactChars, compactItems_eq]
    rfl

theorem prettyItems_eq (depth : Nat) (xs : List Json) :
    prettyItems depth xs =
      (Spacing.lines depth).itemsText false (xs.map (prettyChars (depth + 1))) := by
  induction xs with
  | nil => rfl
  | cons x xs ih =>
    rw [prettyItems, ih]
    simp [Spacing.itemsText, Spacing.lines]

theorem prettyChars_list (depth : Nat) (x : Json) (xs : List Json) :
    prettyChars depth (.list (x :: xs)) =
      '[' :: (Spacing.lines depth).itemsText true ((x :: xs).map (prettyChars (depth + 1))) := by
  rw [prettyChars, prettyItems_eq]
  simp [Spacing.itemsText, Spacing.lines]

/-! ## Printed values -/

/-- **A printed value is read as a value**, in both layouts, whatever closes it. -/
def ReadsAs (calls depth : Nat) (shape : Shape) (j j' : Json) : Prop :=
  Reads calls depth shape (compactChars j) j' ∧
    ∀ indent, Reads calls depth shape (prettyChars indent j) j'

variable {calls depth : Nat} {shape : Shape}

theorem ReadsAs.text {accepts : String → Bool} {t : String} (h : accepts t = true) :
    ReadsAs 1 depth (.text accepts) (.text t) (.text t) :=
  ⟨.text h, fun _ => .text h⟩

theorem ReadsAs.name {names : List String} {t : String} (h : t ∈ names) :
    ReadsAs 1 depth (.tag names) (.text t) (.text t) :=
  ⟨.name h, fun _ => .name h⟩

theorem ReadsAs.count {max n : Nat} (hn : n ≤ max) (hmax : max < Nat.pow 2 64) :
    ReadsAs 1 depth (.nat max) (.nat n) (.nat n) :=
  ⟨.count hn hmax, fun _ => .count hn hmax⟩

/-- A bound on the calls may be larger. -/
theorem ReadsAs.mono {j j' : Json} {more : Nat} (h : ReadsAs calls depth shape j j')
    (hmore : calls ≤ more) : ReadsAs more depth shape j j' :=
  ⟨fun fuel rest hfuel => h.1 fuel rest (by omega),
    fun indent fuel rest hfuel => h.2 indent fuel rest (by omega)⟩

theorem ReadsAs.missing : ReadsAs 1 depth (.optional shape) .null .null :=
  ⟨.missing, fun _ => .missing⟩

/-- A text is no `null`. -/
theorem ReadsAs.given {t : String} {j : Json} (h : ReadsAs calls depth shape (.text t) j) :
    ReadsAs (calls + 1) depth (.optional shape) (.text t) j := by
  have hquote : ∃ c tail, quote t = c :: tail ∧ isSpace c = false ∧ c ≠ 'n' :=
    ⟨'"', _, rfl, by decide, by decide⟩
  exact ⟨h.1.given hquote, fun indent => (h.2 indent).given hquote⟩

/-- A printed member is read as the value that a record has under its name. -/
def MemberAs (calls depth : Nat) (fields : List Shape.Field) (m m' : String × Json) : Prop :=
  m.1 = m'.1 ∧ ∃ shape, Shape.fieldShape? m.1 fields = some shape ∧
    ReadsAs calls depth shape m.2 m'.2

theorem MemberAs.value {fields : List Shape.Field} {name : String} {j j' : Json}
    (h : Shape.fieldShape? name fields = some shape) (hvalue : ReadsAs calls depth shape j j') :
    MemberAs calls depth fields (name, j) (name, j') :=
  ⟨rfl, shape, h, hvalue⟩

/-- A member with any text. -/
theorem MemberAs.text {fields : List Shape.Field} {name t : String}
    (h : Shape.fieldShape? name fields = some .anyText) :
    MemberAs 2 depth fields (name, .text t) (name, .text t) :=
  .value h ((ReadsAs.text rfl).mono (by decide))

/-- A member with a text that may be missing. -/
theorem MemberAs.givenText {fields : List Shape.Field} {name t : String}
    (h : Shape.fieldShape? name fields = some (.optional .anyText)) :
    MemberAs 2 depth fields (name, .text t) (name, .text t) :=
  .value h (ReadsAs.text rfl).given

/-- A member without a value. -/
theorem MemberAs.missing {fields : List Shape.Field} {name : String}
    (h : Shape.fieldShape? name fields = some (.optional shape)) :
    MemberAs 2 depth fields (name, .null) (name, .null) :=
  .value h (ReadsAs.missing.mono (by decide))

/-- A member with one of some names. -/
theorem MemberAs.tag {fields : List Shape.Field} {names : List String} {name t : String}
    (h : Shape.fieldShape? name fields = some (.tag names)) (ht : t ∈ names) :
    MemberAs 2 depth fields (name, .text t) (name, .text t) :=
  .value h ((ReadsAs.name ht).mono (by decide))

/-- A member with a count of at most 64 bits. -/
theorem MemberAs.count {fields : List Shape.Field} {name : String} {max n : Nat}
    (h : Shape.fieldShape? name fields = some (.nat max)) (hn : n ≤ max)
    (hmax : max < Nat.pow 2 64) : MemberAs 2 depth fields (name, .nat n) (name, .nat n) :=
  .value h ((ReadsAs.count hn hmax).mono (by decide))

/-- A bound on the calls may be larger here, too. -/
theorem MemberAs.mono {fields : List Shape.Field} {m m' : String × Json} {more : Nat}
    (h : MemberAs calls depth fields m m') (hmore : calls ≤ more) :
    MemberAs more depth fields m m' := by
  obtain ⟨hname, shape, hshape, hvalue⟩ := h
  exact ⟨hname, shape, hshape, hvalue.mono hmore⟩

/-- **An object is read as a record** whose fields its members are, in any order, and which
lacks none that it needs. -/
theorem ReadsAs.record {fields : List Shape.Field} {m : String × Json}
    {ms values fitted : List (String × Json)}
    (h : List.Forall₂ (MemberAs calls depth fields) (m :: ms) values)
    (hnames : ((m :: ms).map Prod.fst).Nodup)
    (hfitted : arrange fields values.reverse = .ok fitted) :
    ReadsAs (calls + (m :: ms).length + 2) (depth + 1) (.record fields) (.object (m :: ms))
      (.object fitted) := by
  have hread : ∀ (l : Spacing) (print : Json → List Char),
      (∀ shape j j', ReadsAs calls depth shape j j' → Reads calls depth shape (print j) j') →
      Reads (calls + (m :: ms).length + 2) (depth + 1) (.record fields)
        ('\x7b' :: l.membersText true ((m :: ms).map fun m => (m.1, print m.2)))
        (.object fitted) := by
    intro l print hprint
    have hnames' : (((m :: ms).map fun m => (m.1, print m.2)).map Prod.fst).Nodup := by
      rwa [List.map_map]
    have hmembers : List.Forall₂ (ReadsMember calls depth fields)
        ((m :: ms).map fun m => (m.1, print m.2)) values :=
      List.forall₂_map_left_iff.2 (h.imp fun m m' ⟨hname, shape, hshape, hvalue⟩ =>
        ⟨hname, shape, hshape, hprint shape _ _ hvalue⟩)
    have hobject := Reads.record l hmembers hnames' hfitted
    rwa [List.length_map] at hobject
  refine ⟨?_, fun indent => ?_⟩
  · rw [compactChars_object]
    exact hread Spacing.none compactChars fun _ _ _ hvalue => hvalue.1
  · rw [prettyChars_object]
    exact hread (Spacing.lines indent) (prettyChars (indent + 1)) fun _ _ _ hvalue => hvalue.2 _

/-- An object begins with its brace in either layout. -/
theorem beginsItem_object (ms : List (String × Json)) :
    BeginsItem (compactChars (.object ms)) ∧
      ∀ indent, BeginsItem (prettyChars indent (.object ms)) := by
  have hbrace : ∀ s, BeginsItem ('\x7b' :: s) := fun s => ⟨_, s, rfl, by decide, by decide⟩
  refine ⟨by rw [compactChars_object]; exact hbrace _, fun indent => ?_⟩
  cases ms with
  | nil => exact hbrace _
  | cons m ms => rw [prettyChars_object]; exact hbrace _

/-- **A list of objects is read** when each of them is. -/
theorem ReadsAs.list {objects : List (List (String × Json))} {values : List Json}
    (h : List.Forall₂ (fun ms value => ReadsAs calls depth shape (.object ms) value)
      objects values) :
    ReadsAs (calls + objects.length + 2) (depth + 1) (.listOf shape)
      (.list (objects.map .object)) (.list values) := by
  have hread : ∀ (l : Spacing) (print : Json → List Char),
      (∀ ms value, ReadsAs calls depth shape (.object ms) value →
        ReadsItem calls depth shape (print (.object ms)) value) →
      Reads (calls + objects.length + 2) (depth + 1) (.listOf shape)
        ('[' :: l.itemsText true ((objects.map .object).map print)) (.list values) := by
    intro l print hprint
    have hitems : List.Forall₂ (ReadsItem calls depth shape) ((objects.map .object).map print)
        values := by
      rw [List.map_map]
      exact List.forall₂_map_left_iff.2 (h.imp hprint)
    have hlist := Reads.list l hitems
    rwa [List.length_map, List.length_map] at hlist
  refine ⟨?_, fun indent => ?_⟩
  · rw [compactChars_list]
    exact hread Spacing.none compactChars fun ms value hms => ⟨(beginsItem_object ms).1, hms.1⟩
  · cases objects with
    -- without items there are no lines
    | nil =>
      exact hread Spacing.none compactChars fun ms value hms => ⟨(beginsItem_object ms).1, hms.1⟩
    | cons ms objects =>
      rw [List.map_cons, prettyChars_list]
      exact hread (Spacing.lines indent) (prettyChars (indent + 1)) fun ms value hms =>
        ⟨(beginsItem_object ms).2 _, hms.2 _⟩

/-! ## Whole texts -/

theorem read_of_reads {s : List Char} {j : Json} (h : Reads calls depthLimit shape s j)
    (hcalls : calls ≤ 2 * s.length + 8) : read shape s = .ok j := by
  have hread := h (2 * s.length + 8) [] hcalls nofun
  rw [List.append_nil] at hread
  rw [read, hread]
  rfl

/-! ### How long a text is -/

/-- A member takes its value, a colon and two quotes at least. -/
theorem length_membersText (l : Spacing) (ms : List (String × List Char)) (first : Bool) :
    (ms.flatMap Prod.snd).length + 3 * ms.length ≤ (l.membersText first ms).length := by
  induction ms generalizing first with
  | nil => exact Nat.zero_le _
  | cons m ms ih =>
    have hrest := ih false
    have hquote : 2 ≤ (quote m.1).length := by simp [quote]
    simp only [List.flatMap_cons, Spacing.membersText, List.length_append, List.length_cons]
    omega

/-- An item takes a comma, or the bracket behind the last one. -/
theorem length_itemsText (l : Spacing) (items : List (List Char)) :
    items.length + 1 ≤ (l.itemsText false items).length := by
  induction items with
  | nil => simp [Spacing.itemsText]
  | cons item items ih =>
    simp only [Spacing.itemsText, Bool.false_eq_true, if_false, List.length_append,
      List.length_cons]
    omega

theorem length_compactChars_list (xs : List Json) :
    xs.length ≤ (compactChars (.list xs)).length := by
  rw [compactChars_list]
  cases xs with
  | nil => exact Nat.zero_le _
  | cons x xs =>
    have hrest := length_itemsText Spacing.none (xs.map compactChars)
    rw [List.length_map] at hrest
    simp only [Spacing.itemsText, List.map_cons, if_true, List.length_append, List.length_cons]
    omega

/-- **A printed object is read back** in both layouts, if it has few members. -/
theorem read_printed {ms : List (String × Json)} {j : Json}
    (h : ReadsAs calls depthLimit shape (.object ms) j) (hcalls : calls ≤ 10) :
    ∀ s ∈ [compact (.object ms), pretty (.object ms)], read shape s.toList = .ok j := by
  have hlong : ∀ c s, calls ≤ 2 * (c :: s : List Char).length + 8 := fun c s => by
    rw [List.length_cons]
    omega
  intro s hs
  simp only [List.mem_cons, List.not_mem_nil, or_false] at hs
  rcases hs with rfl | rfl
  · rw [compact, String.toList_ofList]
    exact read_of_reads h.1 (by rw [compactChars_object]; exact hlong _ _)
  · rw [pretty, String.toList_ofList]
    refine read_of_reads (h.2 0) ?_
    cases ms with
    | nil => exact hlong _ _
    | cons m ms => rw [prettyChars_object]; exact hlong _ _

end Colloquy.Json
