import Colloquy.Clock
import Colloquy.Json.Basic
import Colloquy.Shape
/-!
# Settings

Eight sections, each with a default for every field. `Settings.shape` lists
the fields with the range of each, for any format they are written in, and
`Settings.ofJson` fills what a document leaves out.
-/

namespace Colloquy

/-- The size of the response cache and the life of its entries. -/
structure CacheSettings where
  maxSize : Nat := 100
  ttlSeconds : Nat := 3600
deriving DecidableEq, Repr

/-- The idle time after which a session ends. -/
structure SessionSettings where
  timeoutSeconds : Nat := 3600
deriving DecidableEq, Repr

/-- The window of the rate limiter, and how many requests it admits. -/
structure RateSettings where
  windowSeconds : Nat := 60
  maxRequests : Nat := 5
deriving DecidableEq, Repr

/-- How often a pipeline is tried, and the pause between two tries. -/
structure RetrySettings where
  maxAttempts : Nat := 3
  delaySeconds : Nat := 2
deriving DecidableEq, Repr

/-- How much history is read, and how it is reduced. -/
structure MemorySettings where
  /-- The estimate of tokens above which history is summarized. -/
  tokenThreshold : Nat := 8000
  /-- How many of the latest records are read. -/
  maxRecords : Nat := 100
  /-- The characters of history kept when there is no summary. -/
  truncateChars : Nat := 4000
  /-- The records that follow a summary word for word. -/
  recentRecords : Nat := 4
deriving DecidableEq, Repr

/-- The period of the sweeper. -/
structure SweepSettings where
  intervalSeconds : Nat := 300
deriving DecidableEq, Repr

/-- The chat-completions endpoint. The key itself is never a setting: it is
read from the environment under the name given here. -/
structure ModelSettings where
  baseUrl : String := "http://localhost:11434/v1"
  model : String := "mixtral"
  apiKeyEnv : String := "PARLEY_LLM_API_KEY"
  temperature : Float32 := 0.7
  summaryTemperature : Float32 := 0.3
  maxTokens : Nat := 4096

/-- Where the catalog is kept. -/
structure CatalogSettings where
  agentsPath : String := "config/agents.yaml"
  tasksPath : String := "config/tasks.yaml"
deriving DecidableEq, Repr

/-- All settings. -/
structure Settings where
  cache : CacheSettings := {}
  session : SessionSettings := {}
  rateLimit : RateSettings := {}
  retry : RetrySettings := {}
  memory : MemorySettings := {}
  sweep : SweepSettings := {}
  model : ModelSettings := {}
  catalog : CatalogSettings := {}

namespace Settings

open Shape (allows)

/-- The fields of the sections, every one of which may be left out. -/
def shape : Shape :=
  .record
    [allows "cache" (.record [allows "max_size" .word64, allows "ttl_seconds" .word64]),
     allows "session" (.record [allows "timeout_seconds" .word64]),
     allows "rate_limit"
       (.record [allows "window_seconds" .word64, allows "max_requests" .word32]),
     allows "retry" (.record [allows "max_attempts" .word32, allows "delay_seconds" .word64]),
     allows "memory"
       (.record [allows "token_threshold" .word32, allows "max_records" .word32,
         allows "truncate_chars" .word64, allows "recent_records" .word64]),
     allows "sweep" (.record [allows "interval_seconds" .word64]),
     allows "llm"
       (.record [allows "base_url" .anyText, allows "model" .anyText,
         allows "api_key_env" .anyText, allows "temperature" .single,
         allows "summary_temperature" .single, allows "max_tokens" .word32]),
     allows "catalog"
       (.record [allows "agents_path" .anyText, allows "tasks_path" .anyText])]

/-- A field that is a number of single precision. -/
def singleOr (default : Float32) : Json → Float32
  | .float x => x.toFloat32
  | .int n => Number.singleOfInt n
  | _ => default

/-- The settings of a value of the shape. -/
def ofJson (j : Json) : Settings :=
  let d : Settings := {}
  let cache := j.field "cache"
  let session := j.field "session"
  let rate := j.field "rate_limit"
  let retry := j.field "retry"
  let memory := j.field "memory"
  let sweep := j.field "sweep"
  let llm := j.field "llm"
  let catalog := j.field "catalog"
  { cache :=
      { maxSize := (cache.field "max_size").natOr d.cache.maxSize
        ttlSeconds := (cache.field "ttl_seconds").natOr d.cache.ttlSeconds }
    session :=
      { timeoutSeconds := (session.field "timeout_seconds").natOr d.session.timeoutSeconds }
    rateLimit :=
      { windowSeconds := (rate.field "window_seconds").natOr d.rateLimit.windowSeconds
        maxRequests := (rate.field "max_requests").natOr d.rateLimit.maxRequests }
    retry :=
      { maxAttempts := (retry.field "max_attempts").natOr d.retry.maxAttempts
        delaySeconds := (retry.field "delay_seconds").natOr d.retry.delaySeconds }
    memory :=
      { tokenThreshold := (memory.field "token_threshold").natOr d.memory.tokenThreshold
        maxRecords := (memory.field "max_records").natOr d.memory.maxRecords
        truncateChars := (memory.field "truncate_chars").natOr d.memory.truncateChars
        recentRecords := (memory.field "recent_records").natOr d.memory.recentRecords }
    sweep :=
      { intervalSeconds := (sweep.field "interval_seconds").natOr d.sweep.intervalSeconds }
    model :=
      { baseUrl := (llm.field "base_url").textOr d.model.baseUrl
        model := (llm.field "model").textOr d.model.model
        apiKeyEnv := (llm.field "api_key_env").textOr d.model.apiKeyEnv
        temperature := singleOr d.model.temperature (llm.field "temperature")
        summaryTemperature :=
          singleOr d.model.summaryTemperature (llm.field "summary_temperature")
        maxTokens := (llm.field "max_tokens").natOr d.model.maxTokens }
    catalog :=
      { agentsPath := (catalog.field "agents_path").textOr d.catalog.agentsPath
        tasksPath := (catalog.field "tasks_path").textOr d.catalog.tasksPath } }

/-- The JSON form of settings, with every field. -/
def toJson (s : Settings) : Json :=
  .object
    [("cache", .object [("max_size", .nat s.cache.maxSize),
        ("ttl_seconds", .nat s.cache.ttlSeconds)]),
      ("session", .object [("timeout_seconds", .nat s.session.timeoutSeconds)]),
      ("rate_limit", .object [("window_seconds", .nat s.rateLimit.windowSeconds),
        ("max_requests", .nat s.rateLimit.maxRequests)]),
      ("retry", .object [("max_attempts", .nat s.retry.maxAttempts),
        ("delay_seconds", .nat s.retry.delaySeconds)]),
      ("memory", .object [("token_threshold", .nat s.memory.tokenThreshold),
        ("max_records", .nat s.memory.maxRecords),
        ("truncate_chars", .nat s.memory.truncateChars),
        ("recent_records", .nat s.memory.recentRecords)]),
      ("sweep", .object [("interval_seconds", .nat s.sweep.intervalSeconds)]),
      ("llm", .object [("base_url", .text s.model.baseUrl), ("model", .text s.model.model),
        ("api_key_env", .text s.model.apiKeyEnv),
        ("temperature", .float s.model.temperature.toFloat),
        ("summary_temperature", .float s.model.summaryTemperature.toFloat),
        ("max_tokens", .nat s.model.maxTokens)]),
      ("catalog", .object [("agents_path", .text s.catalog.agentsPath),
        ("tasks_path", .text s.catalog.tasksPath)])]

/-- The life of a cache entry, in milliseconds. -/
def cacheTtl (s : Settings) : Nat := Clock.seconds s.cache.ttlSeconds

/-- The idle time of a session, in milliseconds. -/
def sessionTimeout (s : Settings) : Nat := Clock.seconds s.session.timeoutSeconds

/-- The window of the rate limiter, in milliseconds. -/
def rateWindow (s : Settings) : Nat := Clock.seconds s.rateLimit.windowSeconds

/-- The pause between two tries, in milliseconds. -/
def retryDelay (s : Settings) : Nat := Clock.seconds s.retry.delaySeconds

/-- The period of the sweeper, in milliseconds; never below a second. -/
def sweepInterval (s : Settings) : Nat := Clock.seconds (max 1 s.sweep.intervalSeconds)

end Settings

end Colloquy
