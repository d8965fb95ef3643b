import Gatehouse.Store.Basic

/-!
Counters on a key-value server.

The server holds signed values, each with an optional time to live. The store
asks it for three commands and puts a text before every key, so that counters
can share the server with other data. A counter without time to live gets one
from the next increment, and one that has it keeps it.
-/

namespace Gatehouse

/-- The commands that the store asks of a server. -/
structure Client (ω : Type) where
  /-- Add one to a key and give the new value; a key without time to live gets
  the given one. -/
  increment : Clock → String → Span → ω → Reply String Int × ω
  /-- The time to live of a key, if it is there and has one. -/
  ttl : Clock → String → ω → Reply String (Option Span) × ω
  /-- The value of a key, if it is there. -/
  get : Clock → String → ω → Reply String (Option Int) × ω

namespace Client

variable {ω : Type}

/-- What stands before every key unless it is told otherwise. -/
def defaultKeyPrefix : String := "flowra:ratelimit:"

/-- Counters on a server, with `front` before every key. A negative value
counts as zero. -/
def store (client : Client ω) (front : String) : Store ω where
  increment clock key window w :=
    let (reply, w) := client.increment clock (front ++ key) window w
    (reply.map Int.toNat, w)
  count clock key w :=
    let (reply, w) := client.get clock (front ++ key) w
    (reply.map fun v => (v.map Int.toNat).getD 0, w)
  ttl clock key w :=
    let (reply, w) := client.ttl clock (front ++ key) w
    (reply.map fun t => t.getD 0, w)

/-- A client whose server answers nothing: every command fails. -/
def unreachable (reason : String) : Client ω where
  increment _ _ _ w := (.failed reason, w)
  ttl _ _ w := (.failed reason, w)
  get _ _ w := (.failed reason, w)

end Client

/-- A value of a server and the end of its time to live. -/
structure Item where
  value : Int
  expiresAt : Option Instant
  deriving DecidableEq, Repr

/-- The item's time to live, if it has one, has not passed. -/
def Item.isLive (now : Instant) (i : Item) : Bool :=
  match i.expiresAt with
  | some t => now < t
  | none => true

/-- A key-value server: its items, each key once, and whether it refuses every
command. -/
structure KeyValue where
  items : List (String × Item)
  failing : Bool
  deriving DecidableEq, Repr

namespace KeyValue

/-- Why a failing server gives no answer. -/
def refusal : String := "connection refused"

/-- Put an item under a key in the place of any it had. -/
def put (kv : KeyValue) (key : String) (i : Item) : KeyValue :=
  { kv with items := (key, i) :: kv.items.filter fun p => p.1 != key }

/-- Drop the item of a key if its time to live has passed. -/
def touch (kv : KeyValue) (now : Instant) (key : String) : KeyValue :=
  { kv with items := kv.items.filter fun p => p.1 != key || p.2.isLive now }

def find? (kv : KeyValue) (now : Instant) (key : String) : Option Item :=
  (kv.items.lookup key).filter (Item.isLive now)

def increment (kv : KeyValue) (now : Instant) (key : String) (ttl : Span) : Int × KeyValue :=
  let item := (kv.find? now key).getD ⟨0, none⟩
  let value := item.value + 1
  (value, kv.put key ⟨value, some (item.expiresAt.getD (now + ttl))⟩)

def ttl (kv : KeyValue) (now : Instant) (key : String) : Option Span :=
  (kv.find? now key).bind fun i => i.expiresAt.map fun t => t - now

def value (kv : KeyValue) (now : Instant) (key : String) : Option Int :=
  (kv.find? now key).map Item.value

/-- Run a command unless the server refuses it. -/
def command (kv : KeyValue) (run : α × KeyValue) : Reply String α × KeyValue :=
  if kv.failing then (.failed refusal, kv) else (.ready run.1, run.2)

/-- The client of a server that keeps exact times. -/
def client : Client KeyValue where
  increment clock key ttl kv := kv.command (kv.increment clock.now key ttl)
  ttl clock key kv := kv.command (kv.ttl clock.now key, kv.touch clock.now key)
  get clock key kv := kv.command (kv.value clock.now key, kv.touch clock.now key)

/-- The whole milliseconds in which a time to live is sent: at least one, and at
most what 63 bits hold. -/
def wireMillis (ttl : Span) : Nat :=
  max 1 (min (Span.toMillis ttl) Text.Decimal.max63)

/-- The client of a server that takes and gives times in whole milliseconds, as one does that is
reached over a wire. In windows of whole milliseconds it counts as `client` does, and it only cuts
what is below a millisecond off the times that it tells. -/
def wireClient : Client KeyValue where
  increment clock key ttl kv :=
    kv.command (kv.increment clock.now key (Span.millis (wireMillis ttl)))
  ttl clock key kv :=
    kv.command ((kv.ttl clock.now key).map fun t => Span.millis t.toMillis, kv.touch clock.now key)
  get clock key kv := kv.command (kv.value clock.now key, kv.touch clock.now key)

end KeyValue

end Gatehouse
