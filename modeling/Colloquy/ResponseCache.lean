import Colloquy.Cipher.Sha256
import Colloquy.Table
/-!
# The response cache

Replies are kept under a digest of agent, task and content, for as long as
`ttl`. An entry whose age has reached `ttl` is gone at the next look at it.
Writing a new key into a full cache first removes the entry that was created
earliest, expired or not.
-/

namespace Colloquy

/-- A kept reply. -/
structure CacheEntry where
  response : String
  createdAt : Nat
deriving DecidableEq, Repr

/-- Replies by the digest of their request. -/
structure ResponseCache where
  maxSize : Nat
  ttl : Nat
  entries : Table String CacheEntry

namespace ResponseCache

/-- The text whose digest is the key of a request. -/
def keyText (agent task content : String) : String :=
  agent ++ ":" ++ task ++ ":" ++ content

/-- The key of a request. -/
def key (agent task content : String) : String :=
  Sha256.hexDigest (keyText agent task content)

/-- A cache with nothing in it. -/
def empty (maxSize ttl : Nat) : ResponseCache := ⟨maxSize, ttl, .empty⟩

/-- Whether an entry may still be answered. -/
def isLive (c : ResponseCache) (now : Nat) (e : CacheEntry) : Bool :=
  now - e.createdAt < c.ttl

/-- The reply under a key; an expired entry is removed. -/
def get (c : ResponseCache) (now : Nat) (key : String) : Option String × ResponseCache :=
  match c.entries.get? key with
  | none => (none, c)
  | some e =>
    if c.isLive now e then (some e.response, c)
    else (none, { c with entries := c.entries.erase key })

/-- The key of the entry that was created earliest, the first of equals. -/
def oldestIn : List (String × CacheEntry) → Option (String × Nat)
  | [] => none
  | (k, e) :: rest =>
    match oldestIn rest with
    | none => some (k, e.createdAt)
    | some (k', t) => if e.createdAt ≤ t then some (k, e.createdAt) else some (k', t)

/-- The cache without the entry that was created earliest. -/
def evict (c : ResponseCache) : ResponseCache :=
  match oldestIn c.entries.entries with
  | none => c
  | some (k, _) => { c with entries := c.entries.erase k }

/-- The cache with a reply written under a key. A cache of size zero keeps
nothing. -/
def set (c : ResponseCache) (now : Nat) (key response : String) : ResponseCache :=
  if c.maxSize = 0 then c
  else
    let c := if c.maxSize ≤ c.entries.size && !c.entries.contains key then c.evict else c
    { c with entries := c.entries.put key ⟨response, now⟩ }

/-- The cache with everything forgotten. -/
def clear (c : ResponseCache) : ResponseCache :=
  { c with entries := .empty }

/-- The cache without expired entries, and how many those were. -/
def sweep (c : ResponseCache) (now : Nat) : Nat × ResponseCache :=
  let live := c.entries.keep (c.isLive now)
  (c.entries.size - live.size, { c with entries := live })

/-- The number of entries, expired ones too. -/
def size (c : ResponseCache) : Nat := c.entries.size

end ResponseCache

end Colloquy
