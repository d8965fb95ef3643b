import Gatehouse.Store.Basic

/-!
Counters in memory, for at most a fixed number of keys.

An entry lives until the end of its window. An ended entry reads as absent
everywhere, but it takes up room until it is purged or overwritten. A new key
that finds the memory full first makes room for a whole batch of keys: ended
entries go first, then the live ones that end soonest.
-/

namespace Gatehouse

/-- A counter and the end of its window. -/
structure Entry where
  count : Nat
  expiresAt : Instant
  deriving DecidableEq, Repr

/-- The window of the entry has not ended. -/
def Entry.isLive (now : Instant) (e : Entry) : Bool :=
  now < e.expiresAt

/-- Counters with their keys, each key once. -/
structure Memory where
  capacity : Nat
  entries : List (String × Entry)
  deriving DecidableEq, Repr

namespace Memory

/-- How many keys a memory has room for unless it is told otherwise. -/
def defaultCapacity : Nat := 100000

/-- A memory without counters and with room for at least one key. -/
def empty (capacity : Nat) : Memory :=
  ⟨max 1 capacity, []⟩

/-- The entry of a key, live or ended. -/
def find? (m : Memory) (key : String) : Option Entry :=
  m.entries.lookup key

/-- The live entry of a key. -/
def live? (m : Memory) (now : Instant) (key : String) : Option Entry :=
  (m.find? key).filter (Entry.isLive now)

/-- The number of entries, live or ended. -/
def size (m : Memory) : Nat :=
  m.entries.length

/-- Put an entry under a key in the place of any it had. -/
def put (m : Memory) (key : String) (e : Entry) : Memory :=
  { m with entries := (key, e) :: m.entries.filter fun p => p.1 != key }

def reset (m : Memory) : Memory :=
  { m with entries := [] }

def purge (m : Memory) (now : Instant) : Memory :=
  { m with entries := m.entries.filter fun p => p.2.isLive now }

/-- How many keys are to go at once when a memory is full. -/
def batch (capacity : Nat) : Nat :=
  max 1 (capacity / 10)

/-- Drop all but `keep` entries, those that end soonest first. -/
def keepLatest (keep : Nat) (entries : List (String × Entry)) : List (String × Entry) :=
  (entries.mergeSort fun p q => p.2.expiresAt ≤ q.2.expiresAt).drop (entries.length - keep)

def makeRoom (m : Memory) (now : Instant) : Memory :=
  let live := m.purge now
  if live.size ≤ m.capacity - batch m.capacity then live
  else { live with entries := keepLatest (m.capacity - batch m.capacity) live.entries }

def isFullFor (m : Memory) (key : String) : Bool :=
  (m.find? key).isNone && m.capacity ≤ m.size

/-- Add one to a key and give the new count. -/
def increment (m : Memory) (now : Instant) (key : String) (window : Span) : Nat × Memory :=
  match m.live? now key with
  | some e => (e.count + 1, m.put key { e with count := e.count + 1 })
  | none =>
      let roomy := if m.isFullFor key then m.makeRoom now else m
      (1, roomy.put key ⟨1, now + window⟩)

def count (m : Memory) (now : Instant) (key : String) : Nat :=
  ((m.live? now key).map Entry.count).getD 0

/-- What is left of the window of a key. -/
def ttl (m : Memory) (now : Instant) (key : String) : Span :=
  ((m.live? now key).map fun e => e.expiresAt - now).getD 0

def store : Store Memory where
  increment clock key window m :=
    let (n, m) := m.increment clock.now key window
    (.ready n, m)
  count clock key m := (.ready (m.count clock.now key), m)
  ttl clock key m := (.ready (m.ttl clock.now key), m)

end Memory

end Gatehouse
