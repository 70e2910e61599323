import Colloquy.Proofs.Text.Percent
import Colloquy.Proofs.Text.Prefix
import Colloquy.Settings.Place
/-!
# The file that a data directory's database is

The address of a database is put together from the data directory as it stands,
and taken apart by rules of its own: a scheme before it, parameters behind a
question mark, percent escapes between. So the directory comes through when it
has none of those (`Addressable`). When it has one, the file that is opened is
another one, or none.

That no other directory comes through by chance, say by an escaped point or
slash, is a matter of weight (`Text.Percent.weight`): two spellings of one path
weigh the same, and whatever is taken off an address weighs something.
-/

namespace Colloquy.Place

open Text Text.Percent

/-- The parts of a path that lead anywhere: neither empty nor a single point. -/
def parts (path : String) : List (List Char) :=
  (splitOnChar '/' path.toList).filter fun part => part ≠ [] && part ≠ ['.']

/-- Whether a path starts at the root. -/
def IsAbsolute (path : String) : Prop := path.toList.head? = some '/'

instance (path : String) : Decidable (IsAbsolute path) :=
  inferInstanceAs (Decidable (_ = _))

/-- Whether two paths lead to one file by their spelling alone. -/
def SamePath (a b : String) : Prop :=
  (IsAbsolute a ↔ IsAbsolute b) ∧ parts a = parts b

instance (a b : String) : Decidable (SamePath a b) :=
  inferInstanceAs (Decidable (_ ∧ _))

/-- Whether two paths lead to files in one directory. -/
def SameDirectory (a b : String) : Prop :=
  (IsAbsolute a ↔ IsAbsolute b) ∧ (parts a).dropLast = (parts b).dropLast

instance (a b : String) : Decidable (SameDirectory a b) :=
  inferInstanceAs (Decidable (_ ∧ _))

/-- Whether a data directory stands in an address for itself. -/
structure Addressable (dir : String) : Prop where
  /-- With none at all the address is one of a file at the root. -/
  named : dir ≠ ""
  /-- What begins as an address does is taken for a part of it. -/
  bare : ¬ "sqlite:".toList <+: dir.toList
  /-- A question mark starts parameters. -/
  unasked : '?' ∉ dir.toList
  /-- An escape stands for another character. -/
  unescaped : ¬ Escaped dir.toList

/-- What the address of a data directory's database locates. -/
def located (dir : String) : String := dir ++ "/" ++ "parley.db"

theorem toList_located (dir : String) :
    (located dir).toList = dir.toList ++ '/' :: "parley.db".toList := by
  simp [located]

theorem toList_databaseUrl (dir : String) :
    (databaseUrl dir).toList = databaseScheme.toList ++ (located dir).toList := by
  simp [databaseUrl, located]

/-! ## Spellings of one path -/

/-- The pieces of a text weigh what it does, as the slashes between them weigh
nothing. -/
theorem weight_splitOnChar (s : List Char) : weight (splitOnChar '/' s).flatten = weight s := by
  induction s with
  | nil => rfl
  | cons c s ih =>
    obtain ⟨piece, pieces, hs⟩ := List.exists_cons_of_ne_nil (splitOnChar_ne_nil '/' s)
    rw [hs] at ih
    rw [weight_cons, ← ih, splitOnChar, hs]
    split
    next hslash =>
      have hnone : weight [c] = 0 := hslash ▸ rfl
      rw [List.flatten_cons, List.nil_append, hnone, Nat.zero_add]
    next => rw [List.flatten_cons, List.cons_append, weight_cons, List.flatten_cons]

/-- The parts that lead anywhere weigh as much as the path. -/
theorem weight_parts (path : String) : weight (parts path).flatten = weight path.toList := by
  rw [← weight_splitOnChar path.toList, parts]
  induction splitOnChar '/' path.toList with
  | nil => rfl
  | cons part rest ih =>
    rw [List.filter_cons, List.flatten_cons, weight_append, ← ih]
    split
    next => rw [List.flatten_cons, weight_append]
    next hpart =>
      have hnone : weight part = 0 := by
        obtain rfl | rfl : part = [] ∨ part = ['.'] := by
          simpa only [Bool.and_eq_true, decide_eq_true_eq, Decidable.not_and_iff_or_not,
            Decidable.not_not] using hpart
        · rfl
        · rfl
      rw [hnone, Nat.zero_add]

theorem SamePath.weight_eq {a b : String} (h : SamePath a b) :
    weight a.toList = weight b.toList := by
  rw [← weight_parts a, ← weight_parts b, h.2]

/-! ## Files in a directory -/

theorem parts_append (a b : String) : parts (a ++ "/" ++ b) = parts a ++ parts b := by
  have hlist : (a ++ "/" ++ b).toList = a.toList ++ '/' :: b.toList := by simp
  rw [parts, hlist, splitOnChar_append, List.filter_append]
  rfl

/-- A slash at the end leads nowhere else. -/
theorem parts_slash (a : String) : parts (a ++ "/") = parts a := by
  rw [← String.append_empty (s := a ++ "/"), parts_append]
  exact List.append_nil _

/-- A path that is not empty begins as all that it is continued to. -/
theorem isAbsolute_append {a : String} (ha : a ≠ "") (b : String) :
    IsAbsolute (a ++ b) ↔ IsAbsolute a := by
  obtain ⟨c, rest, hlist⟩ := List.exists_cons_of_ne_nil (mt String.toList_eq_nil_iff.1 ha)
  rw [IsAbsolute, IsAbsolute, String.toList_append, hlist]
  rfl

variable {name : String} (hname : ¬ IsAbsolute name)
include hname

/-- A name is put behind a slash, behind the one that the directory ends in, or
behind nothing. -/
theorem join_cases (dir : String) :
    dir ≠ "" ∧ join dir name = dir ++ "/" ++ name ∨
      (dir = "" ∨ ∃ front, dir = front ++ "/") ∧ join dir name = dir ++ name := by
  have hrelative : ¬ name.toList.head? = some '/' := hname
  rw [join, if_neg hrelative]
  split
  · rename_i hdir
    refine .inr ⟨?_, rfl⟩
    rw [Bool.or_eq_true, decide_eq_true_eq, decide_eq_true_eq] at hdir
    refine hdir.imp_right fun hlast => ?_
    obtain ⟨front, hfront⟩ := List.getLast?_eq_some_iff.1 hlast
    exact ⟨String.ofList front, String.toList_injective (by simp [hfront])⟩
  · rename_i hdir
    exact .inl ⟨fun hnil => hdir (by simp [hnil]), rfl⟩

/-- The parts of a file's path are those of its directory, and its name. -/
theorem parts_join (dir : String) : parts (join dir name) = parts dir ++ parts name := by
  obtain ⟨-, hjoin⟩ | ⟨rfl | ⟨front, rfl⟩, hjoin⟩ := join_cases hname dir
  · rw [hjoin, parts_append]
  · rw [hjoin, String.empty_append]
    rfl
  · rw [hjoin, parts_append, parts_slash]

/-- A file joined to a directory starts at the root just when the directory does. -/
theorem isAbsolute_join (dir : String) : IsAbsolute (join dir name) ↔ IsAbsolute dir := by
  obtain ⟨hdir, hjoin⟩ | ⟨rfl | ⟨front, rfl⟩, hjoin⟩ := join_cases hname dir
  · rw [hjoin, String.append_assoc, isAbsolute_append hdir]
  · rw [hjoin, String.empty_append]
    exact iff_of_false hname (by decide)
  · have hends : front ++ "/" ≠ "" := by simp
    rw [hjoin, isAbsolute_append hends]

omit hname

theorem weight_join (dir : String) :
    weight (join dir "parley.db").toList = weight (located dir).toList := by
  rw [← weight_parts, ← weight_parts, parts_join (by decide), located, parts_append]

/-- A directory has its database where its address does. -/
theorem samePath_join {dir : String} (hdir : dir ≠ "") :
    SamePath (located dir) (join dir "parley.db") := by
  constructor
  · rw [isAbsolute_join (by decide), located, String.append_assoc, isAbsolute_append hdir]
  · rw [parts_join (by decide), located, parts_append]

/-- The settings of a directory lie beside its database. -/
theorem SamePath.sameDirectory {file dir : String} (h : SamePath file (join dir "parley.db")) :
    SameDirectory file (settingsFile dir) := by
  obtain ⟨hroot, hparts⟩ := h
  rw [isAbsolute_join (by decide)] at hroot
  rw [parts_join (by decide)] at hparts
  constructor
  · rw [hroot, settingsFile, isAbsolute_join (by decide)]
  · have hdb : parts "parley.db" = ["parley.db".toList] := by decide
    have htoml : parts "parley.toml" = ["parley.toml".toList] := by decide
    rw [hparts, settingsFile, parts_join (by decide), hdb, htoml, List.dropLast_concat,
      List.dropLast_concat]

/-! ## Taking the scheme off -/

theorem dropAll_suffix (start : List Char) (fuel : Nat) (s : List Char) :
    dropAll start fuel s <:+ s := by
  induction fuel generalizing s with
  | zero => exact List.suffix_refl s
  | succ fuel ih =>
    rw [dropAll]
    split
    · rename_i rest hrest
      rw [afterPrefix?_eq_some_iff.1 hrest]
      exact (ih rest).trans (List.suffix_append start rest)
    · exact List.suffix_refl s

/-- A text that does not begin so stays as it is. Another loses the beginning
at least. -/
theorem dropAll_cases {start s : List Char} {fuel : Nat} (hfuel : 0 < fuel) :
    dropAll start fuel s = s ∧ ¬ start <+: s ∨
      start <+: s ∧ weight start + weight (dropAll start fuel s) ≤ weight s := by
  obtain ⟨fuel, rfl⟩ := Nat.exists_eq_add_of_lt hfuel
  rw [Nat.zero_add, dropAll]
  split
  · rename_i rest hrest
    obtain rfl := afterPrefix?_eq_some_iff.1 hrest
    refine .inr ⟨List.prefix_append start rest, ?_⟩
    rw [weight_append]
    exact Nat.add_le_add_left (weight_le_of_suffix (dropAll_suffix start fuel rest)) _
  · rename_i hnone
    refine .inl ⟨rfl, fun hstart => ?_⟩
    rw [← isSome_afterPrefix?_iff, hnone] at hstart
    cases hstart

theorem prefix_located_iff {dir : String} :
    "sqlite:".toList <+: (located dir).toList ↔ "sqlite:".toList <+: dir.toList := by
  rw [toList_located]
  exact ⟨fun h => prefix_of_prefix_append_cons h (by decide),
    fun h => h.trans (List.prefix_append _ _)⟩

/-- **The scheme alone is taken off**, unless the directory begins as an address
does. Then more is, and what is left weighs less. -/
theorem withoutScheme_cases (dir : String) :
    withoutScheme (databaseUrl dir) = (located dir).toList ∧ ¬ "sqlite:".toList <+: dir.toList ∨
      "sqlite:".toList <+: dir.toList ∧
        weight (withoutScheme (databaseUrl dir)) < weight (located dir).toList := by
  have hlength : 1 < (databaseUrl dir).length := by
    rw [← String.length_toList, toList_databaseUrl, toList_located]
    simp [databaseScheme]
  obtain ⟨fuel, hfuel⟩ := Nat.exists_eq_add_of_lt hlength
  have honce : dropAll databaseScheme.toList (databaseUrl dir).length (databaseUrl dir).toList =
      dropAll databaseScheme.toList (fuel + 1) (located dir).toList := by
    rw [hfuel, toList_databaseUrl, show 1 + fuel + 1 = fuel + 1 + 1 by omega, dropAll,
      afterPrefix?_append]
  rw [withoutScheme, honce, ← prefix_located_iff]
  obtain ⟨hsame, -⟩ | ⟨hstart, hless⟩ :=
    @dropAll_cases databaseScheme.toList (located dir).toList _ fuel.succ_pos
  · rw [hsame]
    refine (dropAll_cases (Nat.zero_lt_of_lt hlength)).imp_right fun ⟨hshort, hless⟩ => ⟨hshort, ?_⟩
    exact Nat.lt_of_lt_of_le (Nat.lt_add_of_pos_left (by decide)) hless
  · refine .inr ⟨List.IsPrefix.trans (by decide) hstart, ?_⟩
    exact Nat.lt_of_le_of_lt (weight_le_of_suffix (dropAll_suffix _ _ _))
      (Nat.lt_of_lt_of_le (Nat.lt_add_of_pos_left (by decide)) hless)

/-! ## What is opened -/

theorem openedFile_eq_ok_iff {url file : String} :
    openedFile url = .ok file ↔
      '?' ∉ withoutScheme url ∧ decode? (String.ofList (withoutScheme url)) = some file := by
  rw [← cutAt?_singleton_eq_none_iff, openedFile]
  split
  · rename_i hcut
    simp [hcut]
  · rename_i hcut
    rw [hcut]
    split <;> simp_all

theorem escaped_located_iff {dir : String} :
    Escaped (located dir).toList ↔ Escaped dir.toList := by
  rw [toList_located]
  constructor
  · rintro ⟨a, b, ha, hb, hin⟩
    have hsep : '/' ∉ ['%', a, b] := by
      simp only [List.mem_cons, List.not_mem_nil, or_false, not_or]
      exact ⟨by decide, fun h => absurd (h ▸ ha) (by decide), fun h => absurd (h ▸ hb) (by decide)⟩
    obtain hdir | hname := infix_of_infix_append_cons hin hsep
    · exact ⟨a, b, ha, hb, hdir⟩
    · exact absurd (hname.subset List.mem_cons_self) (by decide)
  · rintro ⟨a, b, ha, hb, hin⟩
    exact ⟨a, b, ha, hb, hin.trans (List.prefix_append _ _).isInfix⟩

theorem mem_located_iff {dir : String} : '?' ∈ (located dir).toList ↔ '?' ∈ dir.toList := by
  have hname : '?' ∉ '/' :: "parley.db".toList := by decide
  rw [toList_located, List.mem_append, or_iff_left hname]

/-- **The database of an addressable directory is opened in it.** -/
theorem Addressable.openedFile_eq {dir : String} (h : Addressable dir) :
    openedFile (databaseUrl dir) = .ok (located dir) := by
  obtain ⟨hbare, -⟩ := (withoutScheme_cases dir).resolve_right fun hstart => h.bare hstart.1
  rw [openedFile_eq_ok_iff, hbare, String.ofList_toList, mem_located_iff]
  exact ⟨h.unasked, decode?_of_not_escaped (mt escaped_located_iff.1 h.unescaped)⟩

/-- **No other directory has its file opened.** What weighs as much as the address has
lost nothing on the way: neither a scheme nor an escape. -/
theorem addressable_of_samePath {dir file : String}
    (hopened : openedFile (databaseUrl dir) = .ok file)
    (hsame : SamePath file (join dir "parley.db")) : Addressable dir := by
  have hweight : weight file.toList = weight (located dir).toList :=
    hsame.weight_eq.trans (weight_join dir)
  obtain ⟨hunasked, hdecode⟩ := openedFile_eq_ok_iff.1 hopened
  have hleft : weight (withoutScheme (databaseUrl dir)) ≤ weight (located dir).toList := by
    obtain ⟨hbare, -⟩ | ⟨-, hless⟩ := withoutScheme_cases dir
    · exact Nat.le_of_eq (congrArg weight hbare)
    · exact Nat.le_of_lt hless
  -- an escape on the way would have cost weight, and so would more than the scheme
  have hfree : ¬ Escaped (withoutScheme (databaseUrl dir)) := fun hescaped => by
    have hless := weight_lt_of_decode? hdecode (by rwa [String.toList_ofList])
    rw [String.toList_ofList] at hless
    omega
  rw [decode?_of_not_escaped (by rwa [String.toList_ofList]), Option.some_inj] at hdecode
  obtain ⟨hbare, hdir⟩ : withoutScheme (databaseUrl dir) = (located dir).toList ∧ _ :=
    (withoutScheme_cases dir).resolve_right fun ⟨_, hless⟩ => by
      rw [← hdecode, String.toList_ofList] at hweight
      omega
  rw [hbare] at hunasked hfree hdecode
  refine ⟨?_, hdir, mt mem_located_iff.2 hunasked, mt escaped_located_iff.2 hfree⟩
  -- with no directory, one path starts at the root and the other does not
  rintro rfl
  rw [← hdecode] at hsame
  exact absurd hsame.1 (by decide)

/-- **The file that is opened is the database's in the data directory**, where the
settings file is, just when the directory is addressable. -/
theorem opened_in_directory_iff (dir : String) :
    (∃ file, openedFile (databaseUrl dir) = .ok file ∧ SamePath file (join dir "parley.db") ∧
      SameDirectory file (settingsFile dir)) ↔ Addressable dir := by
  constructor
  · rintro ⟨file, hopened, hsame, -⟩
    exact addressable_of_samePath hopened hsame
  · intro h
    have hsame := samePath_join h.named
    exact ⟨located dir, h.openedFile_eq, hsame, hsame.sameDirectory⟩

/-- The settings are read from a directory, and the database is opened in the
directory that an escape in its name stands for. -/
theorem escaped_directory :
    openedFile (databaseUrl "rel%41") = .ok "relA/parley.db" ∧
      ¬ SamePath "relA/parley.db" (join "rel%41" "parley.db") ∧
      ¬ SameDirectory "relA/parley.db" (settingsFile "rel%41") :=
  ⟨openedFile_eq_ok_iff.2 (by decide +kernel), by decide +kernel, by decide +kernel⟩

end Colloquy.Place
