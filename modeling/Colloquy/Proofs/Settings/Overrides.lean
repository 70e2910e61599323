import Colloquy.Proofs.Named
import Colloquy.Proofs.Text.Utf8
import Colloquy.Proofs.Toml.Records
import Colloquy.Settings.File
/-!
# A settings file overrides field by field or not at all

`sections` lists the keys that a settings file may hold, and what each takes.
A document fits (`Fits`) when every section it has can be read and every key in
it holds what it takes, and then `overridden` gives each field from the value of
its own key, or else from the defaults. `ofDocument?_eq` says that a document is
read just so, and a file that is no such document gives the defaults.
-/

namespace Colloquy

namespace Toml.Value

/-- The text of a text. -/
def text? : Value → Option String
  | .text s => some s
  | _ => none

/-- The number of a whole number that is not negative. -/
def nat? : Value → Option Nat
  | .int (.ofNat n) => some n
  | _ => none

/-- The single next to a number. -/
def single? : Value → Option Float32
  | .float x => some x.toFloat32
  | .int n => some (Number.singleOfInt n)
  | _ => none

end Toml.Value

namespace Settings

/-! ## What a settings file may hold -/

/-- What the value of a key has to be. -/
inductive Kind where
  | text
  /-- A whole number from zero to a bound. -/
  | count (most : Nat)
  /-- A whole number or any other. -/
  | number

namespace Kind

/-- A number of 64 bits without a sign. -/
def word64 : Kind := .count (UInt64.size - 1)

/-- A number of 32 bits without a sign. -/
def word32 : Kind := .count (UInt32.size - 1)

/-- Whether a key of the kind takes a value. -/
def takes : Kind → Toml.Value → Bool
  | .text, v => v.text?.isSome
  | .count most, v => v.nat?.any (· ≤ most)
  | .number, v => v.single?.isSome

/-- The shape of a value of the kind. -/
def shape : Kind → Shape
  | .text => .anyText
  | .count most => .nat most
  | .number => .single

end Kind

/-- The sections, with their keys and what each takes. -/
def sections : List (String × List (String × Kind)) :=
  [("cache", [("max_size", .word64), ("ttl_seconds", .word64)]),
    ("session", [("timeout_seconds", .word64)]),
    ("rate_limit", [("window_seconds", .word64), ("max_requests", .word32)]),
    ("retry", [("max_attempts", .word32), ("delay_seconds", .word64)]),
    ("memory", [("token_threshold", .word32), ("max_records", .word32),
      ("truncate_chars", .word64), ("recent_records", .word64)]),
    ("sweep", [("interval_seconds", .word64)]),
    ("llm", [("base_url", .text), ("model", .text), ("api_key_env", .text),
      ("temperature", .number), ("summary_temperature", .number), ("max_tokens", .word32)]),
    ("catalog", [("agents_path", .text), ("tasks_path", .text)])]

/-- The keys of a section. -/
def keysOf (name : String) : List (String × Kind) :=
  (Named.find? name sections).getD []

/-- The document's value of a key of a section. -/
def given? (root : Toml.Entries) (name key : String) : Option Toml.Value := do
  let v ← Toml.lookup name root
  let entries ← v.entriesFor? ((keysOf name).map (·.1))
  Toml.lookup key entries

/-- **A document fits** when every section it has can be read, and every key in
it that is known holds what it takes. -/
def Fits (root : Toml.Entries) : Prop :=
  ∀ s ∈ sections, ∀ v ∈ Toml.lookup s.1 root, ∃ entries ∈ v.entriesFor? (s.2.map (·.1)),
    ∀ k ∈ s.2, ∀ w ∈ Toml.lookup k.1 entries, k.2.takes w

instance (root : Toml.Entries) : Decidable (Fits root) :=
  inferInstanceAs (Decidable (∀ s ∈ sections, ∀ v ∈ Toml.lookup s.1 root,
    ∃ entries ∈ v.entriesFor? (s.2.map (·.1)),
      ∀ k ∈ s.2, ∀ w ∈ Toml.lookup k.1 entries, k.2.takes w))

/-- **The settings with what a document gives**: every field is the value of its
own key, and the default where there is none. -/
def overridden (root : Toml.Entries) : Settings :=
  let d : Settings := {}
  let nat (name key : String) (default : Nat) : Nat :=
    ((given? root name key).bind Toml.Value.nat?).getD default
  let text (name key : String) (default : String) : String :=
    ((given? root name key).bind Toml.Value.text?).getD default
  let single (name key : String) (default : Float32) : Float32 :=
    ((given? root name key).bind Toml.Value.single?).getD default
  { cache :=
      { maxSize := nat "cache" "max_size" d.cache.maxSize
        ttlSeconds := nat "cache" "ttl_seconds" d.cache.ttlSeconds }
    session :=
      { timeoutSeconds := nat "session" "timeout_seconds" d.session.timeoutSeconds }
    rateLimit :=
      { windowSeconds := nat "rate_limit" "window_seconds" d.rateLimit.windowSeconds
        maxRequests := nat "rate_limit" "max_requests" d.rateLimit.maxRequests }
    retry :=
      { maxAttempts := nat "retry" "max_attempts" d.retry.maxAttempts
        delaySeconds := nat "retry" "delay_seconds" d.retry.delaySeconds }
    memory :=
      { tokenThreshold := nat "memory" "token_threshold" d.memory.tokenThreshold
        maxRecords := nat "memory" "max_records" d.memory.maxRecords
        truncateChars := nat "memory" "truncate_chars" d.memory.truncateChars
        recentRecords := nat "memory" "recent_records" d.memory.recentRecords }
    sweep := { intervalSeconds := nat "sweep" "interval_seconds" d.sweep.intervalSeconds }
    model :=
      { baseUrl := text "llm" "base_url" d.model.baseUrl
        model := text "llm" "model" d.model.model
        apiKeyEnv := text "llm" "api_key_env" d.model.apiKeyEnv
        temperature := single "llm" "temperature" d.model.temperature
        summaryTemperature := single "llm" "summary_temperature" d.model.summaryTemperature
        maxTokens := nat "llm" "max_tokens" d.model.maxTokens }
    catalog :=
      { agentsPath := text "catalog" "agents_path" d.catalog.agentsPath
        tasksPath := text "catalog" "tasks_path" d.catalog.tasksPath } }

/-! ## The shape of settings -/

/-- The fields of a section. -/
def fieldsOf (keys : List (String × Kind)) : List Shape.Field :=
  Shape.allowing Kind.shape keys

theorem shape_eq : shape = .record (Shape.allowing (fun keys => .record (fieldsOf keys)) sections) :=
  rfl

theorem nodup_keys : ∀ s ∈ sections, (s.2.map (·.1)).Nodup := by decide

/-- A section is read from what stands under its keys. -/
theorem conform?_section {name : String} {keys : List (String × Kind)}
    (hs : (name, keys) ∈ sections) (v : Toml.Value) :
    Toml.Value.conform? (.record (fieldsOf keys)) v =
      ((v.entriesFor? (keys.map (·.1))).bind (Toml.Value.conformFields? (fieldsOf keys))).map
        .object := by
  have hnames : (keys.map (·.1)).Nodup := nodup_keys _ hs
  rw [fieldsOf, Toml.Value.conform?_record (Shape.defaulted_allowing _ keys)
    (by rwa [Shape.map_fst_allowing]), Shape.map_fst_allowing]

/-! ## One value -/

/-- A value has the shape of the kind that takes it. -/
theorem isSome_conform?_kind (kind : Kind) (v : Toml.Value) :
    (Toml.Value.conform? kind.shape v).isSome ↔ kind.takes v := by
  cases kind with
  | text => cases v <;> simp [Kind.takes, Kind.shape, Shape.anyText, Toml.Value.text?,
      Toml.Value.conform?]
  | count most =>
    cases v with
    | int n => cases n <;> simp [Kind.takes, Kind.shape, Toml.Value.nat?, Toml.Value.conform?]
    | _ => simp [Kind.takes, Kind.shape, Toml.Value.nat?, Toml.Value.conform?]
  | number => cases v <;> simp [Kind.takes, Kind.shape, Toml.Value.single?, Toml.Value.conform?]

variable {value : Option Toml.Value}

theorem textOr_conform? (default : String) :
    ((value.bind (Toml.Value.conform? Kind.text.shape)).getD .null).textOr default =
      (value.bind Toml.Value.text?).getD default := by
  cases value with
  | none => rfl
  | some v => cases v <;> simp [Kind.shape, Shape.anyText, Toml.Value.text?, Toml.Value.conform?,
      Json.textOr, Json.text?]

/-- A count that is not taken would be left out here, and not there. -/
theorem natOr_conform? {most : Nat} (htakes : ∀ v ∈ value, (Kind.count most).takes v)
    (default : Nat) :
    ((value.bind (Toml.Value.conform? (Kind.count most).shape)).getD .null).natOr default =
      (value.bind Toml.Value.nat?).getD default := by
  cases value with
  | none => rfl
  | some v =>
    have htaken := htakes v rfl
    cases v with
    | int n =>
      cases n <;> simp_all [Kind.takes, Kind.shape, Toml.Value.nat?, Toml.Value.conform?,
        Json.natOr, Json.nat?]
    | _ => simp [Kind.takes, Toml.Value.nat?] at htaken

theorem singleOr_conform? (default : Float32) :
    singleOr default ((value.bind (Toml.Value.conform? Kind.number.shape)).getD .null) =
      (value.bind Toml.Value.single?).getD default := by
  cases value with
  | none => rfl
  | some v => cases v <;> simp [Kind.shape, Toml.Value.single?, Toml.Value.conform?, singleOr]

/-! ## The document -/

variable {name : String} {keys : List (String × Kind)} {root : Toml.Entries}
  {members : List (String × Json)}

/-- A section has its shape when its keys hold what they take. -/
theorem isSome_conform?_section (hs : (name, keys) ∈ sections) (v : Toml.Value) :
    (Toml.Value.conform? (.record (fieldsOf keys)) v).isSome ↔
      ∃ entries ∈ v.entriesFor? (keys.map (·.1)),
        ∀ k ∈ keys, ∀ w ∈ Toml.lookup k.1 entries, k.2.takes w := by
  rw [conform?_section hs, Option.isSome_map]
  cases v.entriesFor? (keys.map (·.1)) with
  | none => simp
  | some entries =>
    rw [Option.bind_some, fieldsOf,
      Toml.Value.isSome_conformFields?_iff (Shape.defaulted_allowing _ keys),
      Shape.forall_allowing]
    simp [Shape.allows, isSome_conform?_kind]

/-- **What fits is what the shape allows.** -/
theorem isSome_conformFields?_iff_fits :
    (Toml.Value.conformFields?
      (Shape.allowing (fun keys => .record (fieldsOf keys)) sections) root).isSome ↔ Fits root := by
  rw [Toml.Value.isSome_conformFields?_iff (Shape.defaulted_allowing _ sections),
    Shape.forall_allowing]
  exact forall₂_congr fun s hs => forall₂_congr fun v _ => isSome_conform?_section hs v

/-- A known key holds what it takes. -/
theorem Fits.takes_given {key : String} {kind : Kind} (hfits : Fits root)
    (hs : Named.find? name sections = some keys) (hk : Named.find? key keys = some kind) :
    ∀ w ∈ given? root name key, kind.takes w := by
  intro w hw
  obtain ⟨v, hv, hw⟩ := Option.bind_eq_some_iff.1 hw
  obtain ⟨entries, hentries, hw⟩ := Option.bind_eq_some_iff.1 hw
  obtain ⟨held, hheld, htakes⟩ := hfits _ (Named.mem_of_find? hs) v hv
  rw [keysOf, hs, Option.getD_some, Option.mem_def.1 hheld, Option.some_inj] at hentries
  exact htakes _ (Named.mem_of_find? hk) w (hentries ▸ hw)

theorem field_object (members : List (String × Json)) (name : String) :
    (Json.object members).field name = (Named.find? name members).getD .null := rfl

/-- **A field is read from the value of its own key.** -/
theorem field_of_given {key : String} {kind : Kind}
    (h : Toml.Value.conformFields?
      (Shape.allowing (fun keys => .record (fieldsOf keys)) sections) root = some members)
    (hs : Named.find? name sections = some keys) (hk : Named.find? key keys = some kind) :
    ((Json.object members).field name).field key =
      ((given? root name key).bind (Toml.Value.conform? kind.shape)).getD .null := by
  have hfits : Fits root := isSome_conformFields?_iff_fits.1 (h ▸ rfl)
  have hsection := Toml.Value.find?_of_conformFields? h name
  rw [Shape.fieldShape?_allowing, hs, Option.map_some, Option.bind_some] at hsection
  rw [field_object, hsection, given?, keysOf, hs, Option.getD_some]
  cases hv : Toml.lookup name root with
  | none => rfl
  | some v =>
    obtain ⟨j, hj⟩ := Option.isSome_iff_exists.1
      ((isSome_conform?_section (Named.mem_of_find? hs) v).2 (hfits _ (Named.mem_of_find? hs) v hv))
    rw [Option.bind_some, hj]
    rw [conform?_section (Named.mem_of_find? hs)] at hj
    obtain ⟨found, hfound, rfl⟩ := Option.map_eq_some_iff.1 hj
    obtain ⟨entries, hentries, hfound⟩ := Option.bind_eq_some_iff.1 hfound
    have hkey := Toml.Value.find?_of_conformFields? hfound key
    rw [fieldsOf, Shape.fieldShape?_allowing, hk, Option.map_some, Option.bind_some] at hkey
    rw [Option.getD_some, field_object, hkey]
    simp [hentries]

/-- **The settings of a document that fits** are the defaults with what it gives. -/
theorem ofJson_eq_overridden
    (h : Toml.Value.conformFields?
      (Shape.allowing (fun keys => .record (fieldsOf keys)) sections) root = some members) :
    ofJson (.object members) = overridden root := by
  have hfits : Fits root := isSome_conformFields?_iff_fits.1 (h ▸ rfl)
  have nat {name key : String} {keys : List (String × Kind)} {most : Nat}
      (hs : Named.find? name sections = some keys)
      (hk : Named.find? key keys = some (.count most)) (default : Nat) :
      (((Json.object members).field name).field key).natOr default =
        ((given? root name key).bind Toml.Value.nat?).getD default := by
    rw [field_of_given h hs hk, natOr_conform? (hfits.takes_given hs hk)]
  have text {name key : String} {keys : List (String × Kind)}
      (hs : Named.find? name sections = some keys)
      (hk : Named.find? key keys = some .text) (default : String) :
      (((Json.object members).field name).field key).textOr default =
        ((given? root name key).bind Toml.Value.text?).getD default := by
    rw [field_of_given h hs hk, textOr_conform?]
  have single {name key : String} {keys : List (String × Kind)}
      (hs : Named.find? name sections = some keys)
      (hk : Named.find? key keys = some .number) (default : Float32) :
      singleOr default (((Json.object members).field name).field key) =
        ((given? root name key).bind Toml.Value.single?).getD default := by
    rw [field_of_given h hs hk, singleOr_conform?]
  simp only [ofJson, overridden, Settings.mk.injEq, CacheSettings.mk.injEq,
    SessionSettings.mk.injEq, RateSettings.mk.injEq, RetrySettings.mk.injEq,
    MemorySettings.mk.injEq, SweepSettings.mk.injEq, ModelSettings.mk.injEq,
    CatalogSettings.mk.injEq]
  exact ⟨⟨nat rfl rfl _, nat rfl rfl _⟩, nat rfl rfl _, ⟨nat rfl rfl _, nat rfl rfl _⟩,
    ⟨nat rfl rfl _, nat rfl rfl _⟩,
    ⟨nat rfl rfl _, nat rfl rfl _, nat rfl rfl _, nat rfl rfl _⟩, nat rfl rfl _,
    ⟨text rfl rfl _, text rfl rfl _, text rfl rfl _, single rfl rfl _, single rfl rfl _,
      nat rfl rfl _⟩, text rfl rfl _, text rfl rfl _⟩

/-- **A document is read field by field**, if it fits. -/
theorem ofDocument?_eq (root : Toml.Entries) :
    ofDocument? root = if Fits root then some (overridden root) else none := by
  rw [ofDocument?, shape_eq, Toml.Value.conform?]
  split
  next hfits =>
    obtain ⟨members, hmembers⟩ :=
      Option.isSome_iff_exists.1 (isSome_conformFields?_iff_fits.2 hfits)
    rw [hmembers, Option.map_some, Option.map_some, ofJson_eq_overridden hmembers]
  next hfits =>
    rw [← isSome_conformFields?_iff_fits, Option.not_isSome_iff_eq_none] at hfits
    rw [hfits]
    rfl

/-- A file that cannot be read, is no text or is no document gives the defaults. -/
theorem ofFile_eq (content : Option (List UInt8)) :
    ofFile content =
      match (content.bind Text.Utf8.decode?).bind Toml.parse? with
      | some root => if Fits root then overridden root else {}
      | none => {} := by
  have hfile : ofFile content =
      ((((content.bind Text.Utf8.decode?).bind Toml.parse?).bind ofDocument?).getD {}) := by
    rw [Option.bind_assoc, Option.bind_assoc]
    rfl
  rw [hfile]
  cases (content.bind Text.Utf8.decode?).bind Toml.parse? with
  | none => rfl
  | some root =>
    rw [Option.bind_some, ofDocument?_eq]
    by_cases hfits : Fits root
    · simp only [if_pos hfits, Option.getD_some]
    · simp only [if_neg hfits, Option.getD_none]

/-- **A settings file overrides field by field or not at all.** A text that is a
document whose sections can be read, a table or a date or a list of its first keys,
and whose known keys hold what they take gives every field the value of its own key,
and the default where there is none. Any other text gives the defaults alone. -/
theorem overridden_or_default (text : String) :
    ofFile (some (Text.Utf8.encode text)) =
      match Toml.parse? text with
      | some root => if Fits root then overridden root else {}
      | none => {} := by
  rw [ofFile_eq, Option.bind_some, Text.Utf8.decode?_encode, Option.bind_some]

/-- One count below zero, in another section, and nothing is overridden. -/
example : (ofFile (some (Text.Utf8.encode
    "[cache]\nmax_size = 10\n[retry]\nmax_attempts = -1\n"))).cache.maxSize = 100 := by
  decide +kernel

/-- Whether a value is a table. -/
def isTable : Toml.Value → Bool
  | .table _ _ => true
  | _ => false

/-- A date in the place of a section is no table, and the other sections count all
the same. -/
theorem dated_section :
    let text := "cache = 1979-05-27\n[llm]\nmodel = \"llama3\"\n"
    ((Toml.parse? text).bind (Toml.lookup "cache")).any (fun v => !isTable v) ∧
      (ofFile (some (Text.Utf8.encode text))).model.model = "llama3" ∧
      (({} : Settings).model.model = "mixtral") := by
  decide +kernel

end Settings

end Colloquy
