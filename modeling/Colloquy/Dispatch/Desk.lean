import Colloquy.Catalog.Basic
import Colloquy.Command
import Colloquy.Metrics
import Colloquy.RateLimiter
import Colloquy.Reply
import Colloquy.ResponseCache
import Colloquy.Retry
import Colloquy.Session
/-!
# The desk

What all commands share in memory: the limiter, the cache, the sessions, the
metrics, and the settings and catalog they work by.
-/

namespace Colloquy

/-- The state that commands share. -/
structure Desk where
  catalog : Catalog
  memory : MemorySettings
  retry : RetryPolicy
  limiter : RateLimiter
  cache : ResponseCache
  sessions : SessionStore
  metrics : Metrics

/-- A command as it comes to the desk: who posted it in which room. -/
structure Request where
  user : String
  room : String
  command : ChatCommand
deriving DecidableEq, Repr

namespace Desk

/-- A desk at the start of the process. -/
def ofSettings (s : Settings) (catalog : Catalog) : Desk where
  catalog := catalog
  memory := s.memory
  retry := RetryPolicy.ofSettings s
  limiter := .empty s.rateWindow s.rateLimit.maxRequests
  cache := .empty s.cache.maxSize s.cacheTtl
  sessions := .empty s.sessionTimeout
  metrics := .empty

/-- The cache key of a request. -/
def cacheKey (r : Request) : String :=
  ResponseCache.key r.command.agent r.command.task r.command.content

/-- The desk after an answered turn: its session counts the turn and names
agent and task, and its reply is kept. -/
def recordTurn (d : Desk) (now : Nat) (r : Request) (text : String) : Desk :=
  let (_, sessions) := d.sessions.visit now r.user r.room fun session =>
    let context := SessionStore.countUp "turns" session.context
    let context := Named.insert "last_agent" (.text r.command.agent) context
    ((), Named.insert "last_task" (.text r.command.task) context)
  { d with sessions := sessions, cache := d.cache.set now (cacheKey r) text }

/-- The desk with expired entries, sessions and windows removed. -/
def sweep (d : Desk) (now : Nat) : Desk :=
  { d with
    cache := (d.cache.sweep now).2
    sessions := (d.sessions.sweep now).2
    limiter := (d.limiter.sweep now).2 }

end Desk

end Colloquy
