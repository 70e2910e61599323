import Colloquy.Proofs.Cipher.Base64
/-!
# What reading base64 takes and what it refuses

Reading takes the written form of bytes and no other text: the padding is
counted, and the bits that the last symbol has to spare are looked at
(`eq_encodeBytes_of_decode`). What it refuses it refuses for a fault that the text
shows (`shows_of_decode`). Both are parts of one statement, `Tells`, that is proved
of the last group, of the groups and of the text, and `Finds` says the same of
looking for the symbols of the last group.
-/

namespace Colloquy.Base64

/-! ## Symbols -/

/-- **A byte that has a value is the symbol of it.** -/
theorem eq_symbol_of_value? {b : UInt8} {n : Nat} (h : value? b = some n) :
    n < 64 ∧ b = symbol n := by
  have hall : ∀ k : Fin 256, ∀ n ∈ value? (UInt8.ofNat k), n < 64 ∧ UInt8.ofNat k = symbol n := by
    decide +kernel
  have hbyte := hall ⟨b.toNat, b.toNat_lt⟩ n
  rw [UInt8.ofNat_toNat] at hbyte
  exact hbyte h

theorem eq_symbol_of_valueAt {b : UInt8} {offset n : Nat} (h : valueAt b offset = .ok n) :
    n < 64 ∧ b = symbol n := by
  rw [valueAt] at h
  split at h
  · cases h
    exact eq_symbol_of_value? ‹_›
  · cases h

theorem fault_of_valueAt {b : UInt8} {offset : Nat} {fault : Fault}
    (h : valueAt b offset = .error fault) : fault = .symbol b offset := by
  rw [valueAt] at h
  split at h
  · cases h
  · cases h
    rfl

/-! ## Faults -/

/-- What a fault tells of a text that starts at an offset: a byte that it names
stands where it says. -/
def Fault.Shows (start : Nat) (text : List UInt8) : Fault → Prop
  | .symbol byte offset => ∃ i, offset = start + i ∧ text[i]? = some byte
  | .lastSymbol byte offset => ∃ i, offset = start + i ∧ text[i]? = some byte
  | .length count => count = start + text.length ∧ text.length % 4 = 1
  | .padding => 2 ≤ text.length % 4

/-- What the outcome of reading tells of a text that starts at an offset. -/
def Tells (start : Nat) (text : List UInt8) : Except Fault (List UInt8) → Prop
  | .ok bytes => text = encodeBytes bytes
  | .error fault => fault.Shows start text

variable {start i : Nat} {text : List UInt8} {fault : Fault}

theorem shows_of_valueAt {b : UInt8} (hat : text[i]? = some b)
    (h : valueAt b (start + i) = .error fault) : fault.Shows start text := by
  rw [fault_of_valueAt h]
  exact ⟨i, rfl, hat⟩

/-- A fault of a text shows with whole groups in front of the text, too. -/
theorem Fault.Shows.behind (before : List UInt8) (hbefore : before.length % 4 = 0)
    (h : fault.Shows (start + before.length) text) : fault.Shows start (before ++ text) := by
  have hat : ∀ i, (before ++ text)[before.length + i]? = text[i]? := fun i => by
    rw [List.getElem?_append_right (by omega), Nat.add_sub_cancel_left]
  have hlength : (before ++ text).length % 4 = text.length % 4 := by
    rw [List.length_append]
    omega
  cases fault with
  | symbol byte offset =>
    obtain ⟨i, hoffset, hbyte⟩ := h
    exact ⟨before.length + i, by omega, (hat i).trans hbyte⟩
  | lastSymbol byte offset =>
    obtain ⟨i, hoffset, hbyte⟩ := h
    exact ⟨before.length + i, by omega, (hat i).trans hbyte⟩
  | length count =>
    obtain ⟨hcount, hone⟩ := h
    exact ⟨by rw [List.length_append]; omega, hlength.trans hone⟩
  | padding =>
    unfold Shows at h ⊢
    omega

/-! ## Written forms from their symbols -/

variable {a b c d : Nat}

/-- The first byte of a group, from its first two symbols. -/
theorem toNat_firstByte (ha : a < 64) (hb : b < 64) :
    (UInt8.ofNat (a * 4 + b / 16)).toNat = a * 4 + b / 16 :=
  UInt8.toNat_ofNat_of_lt (show a * 4 + b / 16 < 256 by omega)

theorem toNat_secondByte (b : Nat) (hc : c < 64) :
    (UInt8.ofNat (b % 16 * 16 + c / 4)).toNat = b % 16 * 16 + c / 4 :=
  UInt8.toNat_ofNat_of_lt (show b % 16 * 16 + c / 4 < 256 by omega)

theorem toNat_thirdByte (c : Nat) (hd : d < 64) :
    (UInt8.ofNat (c % 4 * 64 + d)).toNat = c % 4 * 64 + d :=
  UInt8.toNat_ofNat_of_lt (show c % 4 * 64 + d < 256 by omega)

theorem encodeBytes_two (ha : a < 64) (hb : b < 64) (hspare : b % 16 = 0) :
    encodeBytes [UInt8.ofNat (a * 4 + b / 16)] = [symbol a, symbol b, pad, pad] := by
  simp only [encodeBytes, toNat_firstByte ha hb]
  rw [show (a * 4 + b / 16) / 4 = a by omega, show (a * 4 + b / 16) % 4 * 16 = b by omega]

theorem encodeBytes_three (ha : a < 64) (hb : b < 64) (hc : c < 64) (hspare : c % 4 = 0) :
    encodeBytes [UInt8.ofNat (a * 4 + b / 16), UInt8.ofNat (b % 16 * 16 + c / 4)] =
      [symbol a, symbol b, symbol c, pad] := by
  simp only [encodeBytes, toNat_firstByte ha hb, toNat_secondByte b hc]
  generalize hn : (a * 4 + b / 16) * 256 + (b % 16 * 16 + c / 4) = n
  rw [show n / 1024 = a by omega, show n / 16 % 64 = b by omega, show n % 16 * 4 = c by omega]

theorem encodeBytes_four (ha : a < 64) (hb : b < 64) (hc : c < 64) (hd : d < 64)
    (rest : List UInt8) :
    encodeBytes (UInt8.ofNat (a * 4 + b / 16) :: UInt8.ofNat (b % 16 * 16 + c / 4) ::
        UInt8.ofNat (c % 4 * 64 + d) :: rest) =
      symbol a :: symbol b :: symbol c :: symbol d :: encodeBytes rest := by
  simp only [encodeBytes, toNat_firstByte ha hb, toNat_secondByte b hc, toNat_thirdByte c hd]
  generalize hn : (a * 4 + b / 16) * 65536 + (b % 16 * 16 + c / 4) * 256 + (c % 4 * 64 + d) = n
  rw [show n / 262144 = a by omega, show n / 4096 % 64 = b by omega,
    show n / 64 % 64 = c by omega, show n % 64 = d by omega]

/-! ## The last group -/

/-- What looking for the symbols of the last group tells of its bytes from an index on:
the symbols stand in front of the padding, which comes at the index two at the earliest,
or a byte is at fault. -/
def Finds (start index : Nat) (group : List UInt8) :
    Except Fault (List (Nat × UInt8) × Nat) → Prop
  | .ok (symbols, pads) =>
    group = symbols.map (fun s => symbol s.1) ++ List.replicate pads pad ∧
      (∀ s ∈ symbols, s.1 < 64 ∧ s.2 = symbol s.1) ∧ (pads = 0 ∨ 2 ≤ index + symbols.length)
  | .error fault => ∃ i byte, fault = .symbol byte (start + index + i) ∧ group[i]? = some byte

/-- Where padding begins, everything behind is padding. -/
theorem finds_pad (start index : Nat) (rest : List UInt8) :
    Finds start index (pad :: rest) (groupSymbols start index (pad :: rest)) := by
  rw [groupSymbols, if_pos rfl]
  split
  · exact ⟨0, pad, rfl, rfl⟩
  · split
    · rename_i hindex hall
      refine ⟨?_, fun s hs => (List.not_mem_nil hs).elim, .inr (Nat.not_lt.1 hindex)⟩
      rw [List.map_nil, List.nil_append, List.replicate_succ]
      exact congrArg _ (List.eq_replicate_of_mem fun b hb => by
        simpa using List.all_eq_true.1 hall b hb)
    · exact ⟨0, pad, rfl, rfl⟩

theorem finds_groupSymbols (start index : Nat) (group : List UInt8) :
    Finds start index group (groupSymbols start index group) := by
  induction group generalizing index with
  | nil => exact ⟨rfl, fun s hs => (List.not_mem_nil hs).elim, .inl rfl⟩
  | cons b rest ih =>
    by_cases hpad : b = pad
    · rw [hpad]
      exact finds_pad start index rest
    · rw [groupSymbols, if_neg hpad]
      cases hvalue : valueAt b (start + index) with
      | error fault => exact ⟨0, b, fault_of_valueAt hvalue, rfl⟩
      | ok n =>
        have hmore := ih (index + 1)
        cases hrest : groupSymbols start (index + 1) rest with
        | error fault =>
          rw [hrest] at hmore
          obtain ⟨i, byte, hfault, hbyte⟩ := hmore
          exact ⟨i + 1, byte, by rw [hfault]; congr 1; omega, hbyte⟩
        | ok found =>
          rw [hrest] at hmore
          obtain ⟨htail, hvalues, hfront⟩ := hmore
          obtain ⟨hn, hb⟩ := eq_symbol_of_valueAt hvalue
          refine ⟨?_, List.forall_mem_cons.2 ⟨⟨hn, hb⟩, hvalues⟩, ?_⟩
          · rw [List.map_cons, List.cons_append, ← htail, hb]
          · rw [List.length_cons]
            omega

/-- A last group of two symbols is the written form of a byte, or its second symbol
has bits to spare. -/
theorem tells_two {group : List UInt8} {last : UInt8} (ha : a < 64) (hb : b < 64)
    (hlast : last = symbol b) (hgroup : group = [symbol a, symbol b, pad, pad]) :
    Tells start group (if b % 16 = 0 then .ok [UInt8.ofNat (a * 4 + b / 16)]
      else .error (.lastSymbol last (start + 1))) := by
  by_cases hspare : b % 16 = 0
  · rw [if_pos hspare]
    exact hgroup.trans (encodeBytes_two ha hb hspare).symm
  · rw [if_neg hspare]
    exact ⟨1, rfl, by rw [hgroup, hlast]; rfl⟩

theorem tells_three {group : List UInt8} {last : UInt8} (ha : a < 64) (hb : b < 64) (hc : c < 64)
    (hlast : last = symbol c) (hgroup : group = [symbol a, symbol b, symbol c, pad]) :
    Tells start group (if c % 4 = 0 then
        .ok [UInt8.ofNat (a * 4 + b / 16), UInt8.ofNat (b % 16 * 16 + c / 4)]
      else .error (.lastSymbol last (start + 2))) := by
  by_cases hspare : c % 4 = 0
  · rw [if_pos hspare]
    exact hgroup.trans (encodeBytes_three ha hb hc hspare).symm
  · rw [if_neg hspare]
    exact ⟨2, rfl, by rw [hgroup, hlast]; rfl⟩

theorem tells_lastGroup (start : Nat) {group : List UInt8} (hne : group ≠ [])
    (hlength : group.length ≤ 4) : Tells start group (lastGroup start group) := by
  have hfinds := finds_groupSymbols start 0 group
  rw [lastGroup]
  cases hfound : groupSymbols start 0 group with
  | error fault =>
    rw [hfound] at hfinds
    obtain ⟨i, byte, rfl, hbyte⟩ := hfinds
    exact ⟨i, rfl, hbyte⟩
  | ok found =>
    obtain ⟨symbols, pads⟩ := found
    rw [hfound] at hfinds
    obtain ⟨hgroup, hvalues, hfront⟩ := hfinds
    have hcount : group.length = symbols.length + pads := by
      rw [hgroup, List.length_append, List.length_map, List.length_replicate]
    have hpos := List.length_pos_iff.2 hne
    simp only [Bind.bind, Except.bind]
    by_cases hpadding : (pads + symbols.length) % 4 ≠ 0 ∧ 2 ≤ symbols.length
    · rw [if_pos (by simpa using hpadding)]
      show 2 ≤ group.length % 4
      omega
    · rw [if_neg (by simpa using hpadding)]
      -- the number of symbols leaves one number of padding bytes
      rcases symbols with _ | ⟨⟨a, a'⟩, _ | ⟨⟨b, b'⟩, _ | ⟨⟨c, c'⟩, _ | ⟨⟨d, d'⟩, more⟩⟩⟩⟩
      · simp only [List.length_nil] at hcount hfront
        omega
      · simp only [List.length_cons, List.length_nil] at hcount hfront
        exact ⟨by omega, by omega⟩
      · simp only [List.length_cons, List.length_nil] at hcount hpadding
        obtain rfl : pads = 2 := by omega
        have ha := (hvalues _ (.head _)).1
        obtain ⟨hb, hlast⟩ := hvalues _ (.tail _ (.head _))
        exact tells_two ha hb hlast hgroup
      · simp only [List.length_cons, List.length_nil] at hcount hpadding
        obtain rfl : pads = 1 := by omega
        have ha := (hvalues _ (.head _)).1
        have hb := (hvalues _ (.tail _ (.head _))).1
        obtain ⟨hc, hlast⟩ := hvalues _ (.tail _ (.tail _ (.head _)))
        exact tells_three ha hb hc hlast hgroup
      · simp only [List.length_cons] at hcount
        obtain rfl : pads = 0 := by omega
        obtain rfl : more = [] := List.eq_nil_of_length_eq_zero (by omega)
        have ha := (hvalues _ (.head _)).1
        have hb := (hvalues _ (.tail _ (.head _))).1
        have hc := (hvalues _ (.tail _ (.tail _ (.head _)))).1
        have hd := (hvalues _ (.tail _ (.tail _ (.tail _ (.head _))))).1
        exact hgroup.trans (encodeBytes_four ha hb hc hd []).symm

/-! ## Whole texts -/

theorem tells_groups (start : Nat) {text : List UInt8} (hne : text ≠ []) :
    Tells start text (groups start text) := by
  fun_induction groups start text with
  | case1 start a b c d e rest ih =>
    cases hw : valueAt a start with
    | error fault => exact shows_of_valueAt (i := 0) rfl hw
    | ok w =>
      cases hx : valueAt b (start + 1) with
      | error fault => exact shows_of_valueAt (i := 1) rfl hx
      | ok x =>
        cases hy : valueAt c (start + 2) with
        | error fault => exact shows_of_valueAt (i := 2) rfl hy
        | ok y =>
          cases hz : valueAt d (start + 3) with
          | error fault => exact shows_of_valueAt (i := 3) rfl hz
          | ok z =>
            have hmore := ih (List.cons_ne_nil e rest)
            cases hrest : groups (start + 4) (e :: rest) with
            | error fault =>
              rw [hrest] at hmore
              exact hmore.behind [a, b, c, d] (Nat.mod_self 4)
            | ok bytes =>
              rw [hrest] at hmore
              obtain ⟨ha, rfl⟩ := eq_symbol_of_valueAt hw
              obtain ⟨hb, rfl⟩ := eq_symbol_of_valueAt hx
              obtain ⟨hc, rfl⟩ := eq_symbol_of_valueAt hy
              obtain ⟨hd, rfl⟩ := eq_symbol_of_valueAt hz
              show _ = encodeBytes _
              rw [encodeBytes_four ha hb hc hd, ← hmore]
  | case2 start group hshort =>
    refine tells_lastGroup start hne (Nat.not_lt.1 fun hlong => ?_)
    match group, hlong with
    | a :: b :: c :: d :: e :: rest, _ => exact hshort a b c d e rest rfl

/-- **What reading tells of a text**: that it is the written form of the bytes that
are read, or the fault that it shows. -/
theorem tells_decode (text : List UInt8) : Tells 0 text (decode text) := by
  rw [decode]
  split
  · rename_i last hlast
    have hne : text ≠ [] := by
      rintro rfl
      cases hlast
    split
    · rw [List.getLast?_eq_getElem?] at hlast
      exact ⟨text.length - 1, (Nat.zero_add _).symm, hlast⟩
    · exact tells_groups 0 hne
  · rename_i hnone
    rw [List.getLast?_eq_none_iff.1 hnone]
    rfl

theorem eq_encodeBytes_of_decode {bytes : List UInt8} (h : decode text = .ok bytes) :
    text = encodeBytes bytes := by
  have htells := tells_decode text
  rw [h] at htells
  exact htells

theorem shows_of_decode (h : decode text = .error fault) : fault.Shows 0 text := by
  have htells := tells_decode text
  rw [h] at htells
  exact htells

/-- The length of a written form and its padding leave one number of bytes. -/
theorem three_mul_length_encodeBytes (bytes : List UInt8) :
    3 * (encodeBytes bytes).length = 4 * (bytes.length + (encodeBytes bytes).count pad) := by
  have hsymbol : ∀ {n}, n < 64 → ∀ rest : List UInt8,
      (symbol n :: rest).count pad = rest.count pad :=
    fun hn rest => List.count_cons_of_ne (symbol_ne_pad hn)
  fun_induction encodeBytes bytes with
  | case1 => rfl
  | case2 a n =>
    have ha := a.toNat_lt
    rw [hsymbol (by omega), hsymbol (by omega)]
    rfl
  | case3 a b n =>
    have ha := a.toNat_lt
    have hb := b.toNat_lt
    rw [hsymbol (by omega), hsymbol (by omega), hsymbol (by omega)]
    rfl
  | case4 a b c rest n ih =>
    obtain ⟨hlead, -⟩ := bytes_of_symbols (rfl : _ = n)
    rw [hsymbol hlead, hsymbol (by omega), hsymbol (by omega), hsymbol (by omega)]
    simp only [List.length_cons]
    omega

end Colloquy.Base64
