import Gatehouse.Proofs.Store.Entries
import Gatehouse.Store.Remote

/-!
Counters on a server and counters in memory.

What a server is asked to do is put down as a contract of its client
(`Client.Keeps`): which items it shows, what a command answers, and what it shows
afterwards. The clients of the project that keep exact times hold it
(`KeyValue.client_keeps`). A memory that has room for every key of a run shows the
same counters under the same keys, whatever stands before them on the server
(`Agrees`), so both answer every call alike.

* `Agrees.call` carries this through one call and `Agrees.run` through a run, in
  which the memory may be purged at any point.
* `remote_counts_as_memory` is the account of two stores that start empty.
* `wire_counts_as_memory` is that account for the client that sends times in whole
  milliseconds, which windows of the settings are: only what it tells of times is cut.
-/

namespace Gatehouse

/-! ### The contract of a client -/

/-- The item of a key after one more count: the value counts on, and a time to live
is set where there is none. -/
def Item.next (now : Instant) (ttl : Span) (i : Option Item) : Item :=
  let i := i.getD ⟨0, none⟩
  ⟨i.value + 1, some (i.expiresAt.getD (now + ttl))⟩

namespace Client

variable {ω : Type}

/-- What is held under a key, as long as its time to live has not passed. -/
def shown (held : ω → String → Option Item) (w : ω) (now : Instant) (key : String) :
    Option Item :=
  (held w key).filter (Item.isLive now)

/-- What is live later was live before. -/
theorem filter_isLive_of_le {now now' : Instant} (le : now ≤ now') (i : Option Item) :
    (i.filter (Item.isLive now)).filter (Item.isLive now') = i.filter (Item.isLive now') := by
  have both : ∀ i : Item, (i.isLive now && i.isLive now') = i.isLive now' := by
    rintro ⟨value, - | t⟩
    · rfl
    · show (decide (now < t) && decide (now' < t)) = decide (now' < t)
      rw [← Bool.decide_and, decide_eq_decide]
      exact ⟨And.right, fun live => ⟨Nat.lt_of_le_of_lt le live, live⟩⟩
  rw [Option.filter_filter]
  simp only [both]

/-- What is shown later was shown before, and does not end in between. -/
theorem shown_add (held : ω → String → Option Item) (w : ω) (now : Instant) (d : Span)
    (key : String) :
    shown held w (now + d) key = (shown held w now key).filter (Item.isLive (now + d)) :=
  (filter_isLive_of_le (Nat.le_add_right now d) (held w key)).symm

/-- A client does as it is asked, in every state that is `sound`. It may drop what
it does not show. -/
structure Keeps (client : Client ω) (held : ω → String → Option Item) (sound : ω → Prop) :
    Prop where
  increment : ∀ clock key ttl w, sound w →
    let next := Item.next clock.now ttl (shown held w clock.now key)
    (client.increment clock key ttl w).1 = .ready next.value ∧
      sound (client.increment clock key ttl w).2 ∧
      ∀ k, shown held (client.increment clock key ttl w).2 clock.now k =
        if k = key then (some next).filter (Item.isLive clock.now)
        else shown held w clock.now k
  ttl : ∀ clock key w, sound w →
    (client.ttl clock key w).1 =
        .ready ((shown held w clock.now key).bind fun i => i.expiresAt.map fun t => t - clock.now) ∧
      sound (client.ttl clock key w).2 ∧
      ∀ k, shown held (client.ttl clock key w).2 clock.now k = shown held w clock.now k
  get : ∀ clock key w, sound w →
    (client.get clock key w).1 = .ready ((shown held w clock.now key).map Item.value) ∧
      sound (client.get clock key w).2 ∧
      ∀ k, shown held (client.get clock key w).2 clock.now k = shown held w clock.now k

end Client

/-! ### Runs of a store -/

namespace Store

/-- What a store is asked. -/
inductive Call where
  | increment (key : String) (window : Span)
  | count (key : String)
  | ttl (key : String)
  deriving DecidableEq, Repr

/-- What happens to a store: a call, time that passes, or a purge, if it is one
that can be purged. -/
inductive Event where
  | call (c : Call)
  | advance (s : Span)
  | purge
  deriving DecidableEq, Repr

/-- The key that an event counts. -/
def Event.counted? : Event → Option String
  | call (.increment key _) => some key
  | call (.count _) | call (.ttl _) | advance _ | purge => none

variable {ω : Type}

def ask (s : Store ω) (clock : Clock) (w : ω) : Call → Reply String Nat × ω
  | .increment key window => s.increment clock key window w
  | .count key => s.count clock key w
  | .ttl key => s.ttl clock key w

/-- What a store replies to the calls of a run. -/
def replies (s : Store ω) (purge : Instant → ω → ω) :
    List Event → Clock → ω → List (Reply String Nat)
  | [], _, _ => []
  | .call c :: rest, clock, w =>
      (s.ask clock w c).1 :: replies s purge rest clock (s.ask clock w c).2
  | .advance d :: rest, clock, w => replies s purge rest (clock.advance d) w
  | .purge :: rest, clock, w => replies s purge rest clock (purge clock.now w)

end Store

/-! ### A client that keeps the contract -/

namespace KeyValue

/-- The server answers, and each key stands once. -/
structure Serves (kv : KeyValue) : Prop where
  answers : kv.failing = false
  wellKeyed : (Assoc.keys kv.items).Nodup

def held (kv : KeyValue) (key : String) : Option Item :=
  kv.items.lookup key

variable {kv : KeyValue} {α : Type}

theorem Serves.command (h : kv.Serves) (run : α × KeyValue) :
    kv.command run = (.ready run.1, run.2) := by
  rw [KeyValue.command, h.answers]
  rfl

theorem Serves.put (h : kv.Serves) (key : String) (i : Item) : (kv.put key i).Serves where
  answers := h.answers
  wellKeyed := Assoc.nodup_keys_put h.wellKeyed key i

theorem Serves.touch (h : kv.Serves) (now : Instant) (key : String) :
    (kv.touch now key).Serves where
  answers := h.answers
  wellKeyed := Assoc.nodup_keys_filter h.wellKeyed _

theorem shown_put (kv : KeyValue) (key : String) (i : Item) (now : Instant) (k : String) :
    Client.shown held (kv.put key i) now k =
      if k = key then (some i).filter (Item.isLive now) else Client.shown held kv now k := by
  have lookup : held (kv.put key i) k = if k == key then some i else held kv k :=
    Assoc.lookup_put key k i kv.items
  rw [Client.shown, lookup]
  by_cases same : k = key
  · rw [if_pos (beq_iff_eq.mpr same), if_pos same]
  · rw [if_neg (fun eq => same (beq_iff_eq.mp eq)), if_neg same, Client.shown]

/-- Dropping an item whose time has passed changes nothing that is shown. -/
theorem Serves.shown_touch (h : kv.Serves) (now : Instant) (key k : String) :
    Client.shown held (kv.touch now key) now k = Client.shown held kv now k := by
  refine Option.ext fun i => ?_
  have after : held (kv.touch now key) k = some i ↔ (k, i) ∈ (kv.touch now key).items :=
    (Assoc.mem_iff_lookup (h.touch now key).wellKeyed).symm
  have before : held kv k = some i ↔ (k, i) ∈ kv.items := (Assoc.mem_iff_lookup h.wellKeyed).symm
  rw [Client.shown, Client.shown, Option.filter_eq_some_iff, Option.filter_eq_some_iff, after,
    before, KeyValue.touch, List.mem_filter]
  constructor
  · rintro ⟨⟨mem, -⟩, live⟩
    exact ⟨mem, live⟩
  · rintro ⟨mem, live⟩
    exact ⟨⟨mem, by simp [live]⟩, live⟩

/-- A server that keeps exact times does what is asked of it. -/
theorem client_keeps : client.Keeps held Serves where
  increment := by
    intro clock key ttl kv serves next
    have run : client.increment clock key ttl kv = (.ready next.value, kv.put key next) :=
      serves.command (kv.increment clock.now key ttl)
    rw [run]
    exact ⟨rfl, serves.put key next, shown_put kv key next clock.now⟩
  ttl := by
    intro clock key kv serves
    have run : client.ttl clock key kv = _ := serves.command _
    rw [run]
    exact ⟨rfl, serves.touch clock.now key, serves.shown_touch clock.now key⟩
  get := by
    intro clock key kv serves
    have run : client.get clock key kv = _ := serves.command _
    rw [run]
    exact ⟨rfl, serves.touch clock.now key, serves.shown_touch clock.now key⟩

end KeyValue

/-! ### The same counters -/

/-- The item that stands for an entry. -/
def Entry.item (e : Entry) : Item :=
  ⟨e.count, some e.expiresAt⟩

/-- A server shows, with `front` before their keys, the counters of a memory that
has room for all keys of a run. -/
structure Agrees {ω : Type} (held : ω → String → Option Item) (sound : ω → Prop) (front : String)
    (keys : List String) (now : Instant) (w : ω) (m : Memory) : Prop where
  sound : sound w
  roomy : m.Roomy keys
  same : ∀ key, Client.shown held w now (front ++ key) = (m.live? now key).map Entry.item

section Agrees

variable {ω : Type} {client : Client ω} {held : ω → String → Option Item} {sound : ω → Prop}
  {front key : String} {keys : List String} {now : Instant} {window : Span} {clock : Clock}
  {w w' : ω} {m : Memory}

theorem item_next (now : Instant) (window : Span) (e : Option Entry) :
    (Entry.next now window e).item = Item.next now window (e.map Entry.item) := by
  cases e <;> rfl

theorem filter_isLive_item (now : Instant) (e : Option Entry) :
    (e.map Entry.item).filter (Item.isLive now) = (e.filter (Entry.isLive now)).map Entry.item := by
  rw [Option.filter_map]
  rfl

/-- With nothing under its names a server shows the counters of an empty memory. -/
theorem agrees_empty (start : sound w) (nothing : ∀ key, held w (front ++ key) = none)
    {capacity : Nat} (room : keys.dedup.length ≤ max 1 capacity) (now : Instant) :
    Agrees held sound front keys now w (Memory.empty capacity) where
  sound := start
  roomy := Memory.roomy_empty room
  same key := by
    rw [Client.shown, nothing key]
    rfl

/-- A count puts the same counter on both sides. -/
theorem Agrees.put (h : Agrees held sound front keys now w m) (mem : key ∈ keys) (e : Entry)
    (sound' : sound w')
    (put : ∀ k, Client.shown held w' now k =
      if k = front ++ key then (some e.item).filter (Item.isLive now)
      else Client.shown held w now k) :
    Agrees held sound front keys now w' (m.put key e) where
  sound := sound'
  roomy := h.roomy.put mem e
  same k := by
    rw [put, Memory.live?_put, h.same]
    by_cases same : k = key
    · rw [if_pos (congrArg (front ++ ·) same), if_pos same]
      exact filter_isLive_item now (some e)
    · rw [if_neg (fun eq => same ((String.append_right_inj front).mp eq)), if_neg same]

theorem Agrees.read (h : Agrees held sound front keys now w m) (sound' : sound w')
    (same : ∀ k, Client.shown held w' now k = Client.shown held w now k) :
    Agrees held sound front keys now w' m where
  sound := sound'
  roomy := h.roomy
  same key := (same (front ++ key)).trans (h.same key)

theorem Agrees.advance (h : Agrees held sound front keys clock.now w m) (d : Span) :
    Agrees held sound front keys (clock.advance d).now w m where
  sound := h.sound
  roomy := h.roomy
  same key := by
    rw [Clock.now_advance, Client.shown_add, Memory.live?_add, h.same, filter_isLive_item]

theorem Agrees.purge (h : Agrees held sound front keys now w m) :
    Agrees held sound front keys now w (m.purge now) where
  sound := h.sound
  roomy := h.roomy.purge now
  same key := by rw [Memory.live?_purge h.roomy.wellKeyed, h.same]

/-- One call is answered alike, and leaves the same counters. -/
theorem Agrees.call (h : Agrees held sound front keys clock.now w m)
    (keeps : client.Keeps held sound) (c : Store.Call)
    (mem : ∀ key, (Store.Event.call c).counted? = some key → key ∈ keys) :
    ((client.store front).ask clock w c).1 = (Memory.store.ask clock m c).1 ∧
      Agrees held sound front keys clock.now ((client.store front).ask clock w c).2
        (Memory.store.ask clock m c).2 := by
  cases c with
  | increment key window =>
      have known := mem key rfl
      obtain ⟨reply, sound', put⟩ := keeps.increment clock (front ++ key) window w h.sound
      rw [h.same key, ← item_next] at reply put
      have counts : Memory.store.ask clock m (.increment key window) = _ :=
        congrArg (fun r : Nat × Memory => (Reply.ready r.1, r.2))
          (Memory.increment_eq_put (h.roomy.isFullFor known))
      rw [counts]
      refine ⟨?_, h.put known _ sound' put⟩
      show (client.increment clock (front ++ key) window w).1.map Int.toNat = _
      rw [reply]
      rfl
  | count key =>
      obtain ⟨reply, sound', same⟩ := keeps.get clock (front ++ key) w h.sound
      refine ⟨?_, h.read sound' same⟩
      show (client.get clock (front ++ key) w).1.map _ = .ready (m.count clock.now key)
      rw [reply, h.same key, Memory.count]
      cases m.live? clock.now key <;> rfl
  | ttl key =>
      obtain ⟨reply, sound', same⟩ := keeps.ttl clock (front ++ key) w h.sound
      refine ⟨?_, h.read sound' same⟩
      show (client.ttl clock (front ++ key) w).1.map _ = .ready (m.ttl clock.now key)
      rw [reply, h.same key, Memory.ttl]
      cases m.live? clock.now key <;> rfl

/-- A run is answered alike, wherever the memory is purged. -/
theorem Agrees.run (h : Agrees held sound front keys clock.now w m)
    (keeps : client.Keeps held sound) (events : List Store.Event)
    (mem : ∀ e ∈ events, ∀ key, e.counted? = some key → key ∈ keys) :
    (client.store front).replies (fun _ w => w) events clock w =
      Memory.store.replies (fun now m => m.purge now) events clock m := by
  induction events generalizing clock w m with
  | nil => rfl
  | cons e rest ih =>
      have others : ∀ e ∈ rest, ∀ key, e.counted? = some key → key ∈ keys :=
        fun e he => mem e (List.mem_cons_of_mem _ he)
      cases e with
      | call c =>
          obtain ⟨reply, agrees⟩ := h.call keeps c (mem _ List.mem_cons_self)
          rw [Store.replies, Store.replies, reply, ih agrees others]
      | advance d => exact ih (h.advance d) others
      | purge => exact ih h.purge others

end Agrees

/-- **A server counts as a memory does.** Started with nothing under its names, a
store on any client that keeps the contract replies to every call as a memory that
has room for the keys of the run, whatever is put before the keys and wherever the
memory is purged. -/
theorem remote_counts_as_memory {ω : Type} {client : Client ω} {held : ω → String → Option Item}
    {sound : ω → Prop} (keeps : client.Keeps held sound) (front : String) {w : ω}
    (start : sound w) (nothing : ∀ key, held w (front ++ key) = none) {capacity : Nat}
    {events : List Store.Event}
    (room : (events.filterMap Store.Event.counted?).dedup.length ≤ max 1 capacity)
    (clock : Clock) :
    (client.store front).replies (fun _ w => w) events clock w =
      Memory.store.replies (fun now m => m.purge now) events clock (Memory.empty capacity) := by
  exact (agrees_empty start nothing room clock.now).run keeps events
    fun e he key counted => List.mem_filterMap.mpr ⟨e, he, counted⟩

/-- Counts in windows that differ, of which the first has no length, reads at the
ends of the others, and a purge. -/
def mixedWindows : List Store.Event :=
  [.call (.increment "a" 0), .call (.increment "a" 5), .call (.increment "a" 9),
    .call (.increment "b" 7), .advance 5, .call (.count "a"), .call (.ttl "b"), .purge,
    .call (.increment "a" 2), .advance 2, .call (.increment "b" 3), .call (.ttl "a"),
    .call (.ttl "b")]

theorem mixedWindows_replies :
    (KeyValue.client.store Client.defaultKeyPrefix).replies (fun _ w => w) mixedWindows ⟨0, 0⟩
        ⟨[], false⟩ =
      [.ready 1, .ready 1, .ready 2, .ready 1, .ready 0, .ready 2, .ready 1, .ready 1, .ready 0,
        .ready 3] := by
  have serves : (KeyValue.mk [] false).Serves := ⟨rfl, List.nodup_nil⟩
  have room : (mixedWindows.filterMap Store.Event.counted?).dedup.length ≤ max 1 2 := by decide
  rw [remote_counts_as_memory KeyValue.client_keeps Client.defaultKeyPrefix serves
    (fun _ => rfl) room]
  decide

/-! ### Times in whole milliseconds -/

namespace Store

/-- A window that is sent as it is: whole milliseconds, at least one, and as many as fit. -/
def Call.IsWhole : Call → Prop
  | .increment _ window => ∃ n, 1 ≤ n ∧ n ≤ Text.Decimal.max63 ∧ window = Span.millis n
  | .count _ | .ttl _ => True

/-- The reply to a call as it is told in whole milliseconds. -/
def Call.told : Call → Reply String Nat → Reply String Nat
  | .ttl _, reply => reply.map fun t => Span.millis (Span.toMillis t)
  | .increment _ _, reply | .count _, reply => reply

/-- The call of an event. -/
def Event.call? : Event → Option Call
  | call c => some c
  | advance _ | purge => none

/-- The windows of the settings are whole seconds. -/
theorem Call.isWhole_seconds (key : String) {n : Nat} (filled : 1 ≤ n)
    (fits : n * 1000 ≤ Text.Decimal.max63) : (increment key (Span.seconds n)).IsWhole :=
  ⟨n * 1000, by omega, fits, (Nat.mul_assoc n 1000 1000000).symm⟩

/-- Less than a millisecond is cut off a time. -/
theorem Call.told_ttl {key : String} {t t' : Nat} (h : (ttl key).told (.ready t) = .ready t') :
    t' ≤ t ∧ t < t' + Span.millis 1 := by
  cases h
  exact ⟨Nat.div_mul_le_self t _, Nat.lt_div_mul_add (by decide)⟩

end Store

namespace KeyValue

theorem millis_wireMillis {n : Nat} (filled : 1 ≤ n) (fits : n ≤ Text.Decimal.max63) :
    Span.millis (wireMillis (Span.millis n)) = Span.millis n := by
  have whole : Span.toMillis (Span.millis n) = n := Nat.mul_div_cancel n (by decide)
  rw [wireMillis, whole, Nat.min_eq_left fits, Nat.max_eq_right filled]

/-- A call with a whole window does the same in whole milliseconds. -/
theorem ask_wire (kv : KeyValue) (front : String) (clock : Clock) {c : Store.Call}
    (whole : c.IsWhole) :
    (wireClient.store front).ask clock kv c =
      (c.told ((client.store front).ask clock kv c).1,
        ((client.store front).ask clock kv c).2) := by
  cases c with
  | increment key window =>
      obtain ⟨n, filled, fits, rfl⟩ := whole
      simp only [Store.ask, Client.store, wireClient, client, millis_wireMillis filled fits,
        Store.Call.told]
  | count key => rfl
  | ttl key =>
      simp only [Store.ask, Client.store, wireClient, client, command, Store.Call.told]
      split
      · rfl
      · cases kv.ttl clock.now (front ++ key) <;> rfl

/-- A run with whole windows is replied to as in exact times, but for what is told of times. -/
theorem replies_wire (kv : KeyValue) (front : String) {events : List Store.Event}
    (whole : ∀ c ∈ events.filterMap Store.Event.call?, c.IsWhole) (clock : Clock) :
    (wireClient.store front).replies (fun _ w => w) events clock kv =
      List.zipWith Store.Call.told (events.filterMap Store.Event.call?)
        ((client.store front).replies (fun _ w => w) events clock kv) := by
  induction events generalizing clock kv with
  | nil => rfl
  | cons e rest ih =>
      cases e with
      | call c =>
          have same := ask_wire kv front clock (whole c List.mem_cons_self)
          have others : ∀ c ∈ rest.filterMap Store.Event.call?, c.IsWhole :=
            fun c hc => whole c (List.mem_cons_of_mem _ hc)
          rw [Store.replies, same, ih _ others]
          rfl
      | advance d => exact ih kv whole (clock.advance d)
      | purge => exact ih kv whole clock

end KeyValue

/-- **In whole milliseconds a server counts as a memory does.** A run with whole windows is
replied to as by a memory that has room for its keys, but for the part of a millisecond that is
cut off a time to live. -/
theorem wire_counts_as_memory (front : String) {kv : KeyValue} (start : kv.Serves)
    (nothing : ∀ key, kv.held (front ++ key) = none) {capacity : Nat}
    {events : List Store.Event}
    (room : (events.filterMap Store.Event.counted?).dedup.length ≤ max 1 capacity)
    (whole : ∀ c ∈ events.filterMap Store.Event.call?, c.IsWhole) (clock : Clock) :
    (KeyValue.wireClient.store front).replies (fun _ w => w) events clock kv =
      List.zipWith Store.Call.told (events.filterMap Store.Event.call?)
        (Memory.store.replies (fun now m => m.purge now) events clock (Memory.empty capacity)) := by
  rw [KeyValue.replies_wire kv front whole,
    (agrees_empty start nothing room clock.now).run KeyValue.client_keeps events
      fun e he key counted => List.mem_filterMap.mpr ⟨e, he, counted⟩]

/-- Half a millisecond is cut off. -/
example : (KeyValue.wireClient.store "p:").replies (fun _ w => w)
    [.call (.increment "a" (Span.seconds 2)), .advance 1500000, .call (.ttl "a")] ⟨0, 0⟩
      ⟨[], false⟩ = [.ready 1, .ready (Span.millis 1998)] := by
  decide

end Gatehouse
