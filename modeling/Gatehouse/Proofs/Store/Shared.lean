import Gatehouse.Proofs.Store.Agreement

/-!
Counters on a server that holds other data as well.

A server may hold anything when a store begins to use it: values below zero, values
without a time to live, and keys of others. Values have 64 bits, so the contract of a
client (`Client.KeepsWords`) says what a count gives only where the value can grow. Of any
other count it says that no other key is touched and that a time to live is left alone.

* `Store.after` is what a run leaves.
* `after_spec`: a run leaves every key that it does not count as it was.
* `value_le_after`: a run counts no value further than its own length.
* `EndsAt` is said of a counter that shows until a moment and not from then on. Every run
  up to that moment keeps it, and so does every later one that does not count the key.
* `shared_counters_end` is the account of a count after any run.
-/

namespace Gatehouse

open Text (Decimal.max63)

/-! ### The contract of a client with values of 64 bits -/

namespace Client

variable {ω : Type} {client : Client ω} {held : ω → String → Option Item} {sound : ω → Prop}

/-- A client does as it is asked with values of 64 bits, in every state that is `sound`.
It may drop what it does not show. -/
structure KeepsWords (client : Client ω) (held : ω → String → Option Item) (sound : ω → Prop) :
    Prop where
  increment : ∀ clock key ttl w, sound w →
    (∀ i, shown held w clock.now key = some i → i.value < Decimal.max63) →
    let next := Item.next clock.now ttl (shown held w clock.now key)
    (client.increment clock key ttl w).1 = .ready next.value ∧
      shown held (client.increment clock key ttl w).2 clock.now key =
        (some next).filter (Item.isLive clock.now)
  /-- Whatever the value, the count touches no other key. -/
  apart : ∀ clock key ttl w, sound w →
    sound (client.increment clock key ttl w).2 ∧
      ∀ k, k ≠ key →
        shown held (client.increment clock key ttl w).2 clock.now k = shown held w clock.now k
  /-- Whatever the value, a time to live is left alone. -/
  spares : ∀ clock key ttl w i stop, sound w → shown held w clock.now key = some i →
    i.expiresAt = some stop →
    ∃ j, shown held (client.increment clock key ttl w).2 clock.now key = some j ∧
      j.expiresAt = some stop
  ttl : ∀ clock key w, sound w →
    (client.ttl clock key w).1 =
        .ready ((shown held w clock.now key).bind fun i => i.expiresAt.map fun t => t - clock.now) ∧
      sound (client.ttl clock key w).2 ∧
      ∀ k, shown held (client.ttl clock key w).2 clock.now k = shown held w clock.now k
  get : ∀ clock key w, sound w →
    (client.get clock key w).1 = .ready ((shown held w clock.now key).map Item.value) ∧
      sound (client.get clock key w).2 ∧
      ∀ k, shown held (client.get clock key w).2 clock.now k = shown held w clock.now k

/-- What is shown is live. -/
theorem isLive_of_shown {w : ω} {now : Instant} {key : String} {i : Item}
    (there : shown held w now key = some i) : i.isLive now = true :=
  (Option.filter_eq_some_iff.mp there).2

/-- A client that counts on without end does so with values of 64 bits. -/
theorem Keeps.words (keeps : client.Keeps held sound) : client.KeepsWords held sound where
  increment clock key ttl w start _ := by
    obtain ⟨reply, -, put⟩ := keeps.increment clock key ttl w start
    exact ⟨reply, (put key).trans (if_pos rfl)⟩
  apart clock key ttl w start := by
    obtain ⟨-, kept, put⟩ := keeps.increment clock key ttl w start
    exact ⟨kept, fun k other => (put k).trans (if_neg other)⟩
  spares clock key ttl w i stop start there ends := by
    obtain ⟨-, -, put⟩ := keeps.increment clock key ttl w start
    have live := isLive_of_shown there
    rw [Item.isLive, ends] at live
    have next : (Item.next clock.now ttl (some i)).expiresAt = some stop := by
      simp [Item.next, ends]
    refine ⟨Item.next clock.now ttl (some i), ?_, next⟩
    rw [put key, if_pos rfl, there, Option.filter_some, if_pos]
    rwa [Item.isLive, next]
  ttl := keeps.ttl
  get := keeps.get

end Client

/-! ### Runs -/

/-- A store at a reading of its clock. -/
structure Moment (ω : Type) where
  clock : Clock
  state : ω

/-- What a server shows at a moment. -/
def Moment.shown {ω : Type} (held : ω → String → Option Item) (m : Moment ω) (key : String) :
    Option Item :=
  Client.shown held m.state m.clock.now key

namespace Store

variable {ω : Type}

/-- What an event leaves. A store on a server is not purged. -/
def step (s : Store ω) (m : Moment ω) : Event → Moment ω
  | .call c => { m with state := (s.ask m.clock m.state c).2 }
  | .advance d => { m with clock := m.clock.advance d }
  | .purge => m

/-- What a run leaves. -/
def after (s : Store ω) (events : List Event) (m : Moment ω) : Moment ω :=
  events.foldl s.step m

end Store

section Shared

variable {ω : Type} {client : Client ω} {held : ω → String → Option Item} {sound : ω → Prop}
  {front key : String} {m m' : Moment ω}

/-- A key that is not counted from one moment to another: it is shown as it was, unless its time
to live has passed. -/
structure Fades (held : ω → String → Option Item) (key : String) (m m' : Moment ω) : Prop where
  later : m.clock.now ≤ m'.clock.now
  shown : m'.shown held key = (m.shown held key).filter (Item.isLive m'.clock.now)

theorem Fades.of_same (clock : m'.clock = m.clock) (same : m'.shown held key = m.shown held key) :
    Fades held key m m' where
  later := Nat.le_of_eq (congrArg Clock.now clock.symm)
  shown := by
    rw [same, clock]
    exact (Client.filter_isLive_of_le (Nat.le_refl _) _).symm

theorem Fades.refl (held : ω → String → Option Item) (key : String) (m : Moment ω) :
    Fades held key m m :=
  .of_same rfl rfl

theorem Fades.trans {m'' : Moment ω} (h : Fades held key m m') (h' : Fades held key m' m'') :
    Fades held key m m'' where
  later := Nat.le_trans h.later h'.later
  shown := by rw [h'.shown, h.shown, Client.filter_isLive_of_le h'.later]

/-- A call leaves all keys but the one that it counts as they were. -/
theorem ask_spec (keeps : client.KeepsWords held sound) (start : sound m.state) (c : Store.Call) :
    sound ((client.store front).ask m.clock m.state c).2 ∧
      ∀ k, (∀ key, (Store.Event.call c).counted? = some key → k ≠ front ++ key) →
        Client.shown held ((client.store front).ask m.clock m.state c).2 m.clock.now k =
          m.shown held k := by
  cases c with
  | increment key window =>
      obtain ⟨kept, others⟩ := keeps.apart m.clock (front ++ key) window m.state start
      exact ⟨kept, fun k other => others k (other key rfl)⟩
  | count key =>
      obtain ⟨-, kept, same⟩ := keeps.get m.clock (front ++ key) m.state start
      exact ⟨kept, fun k _ => same k⟩
  | ttl key =>
      obtain ⟨-, kept, same⟩ := keeps.ttl m.clock (front ++ key) m.state start
      exact ⟨kept, fun k _ => same k⟩

variable (front)

theorem step_spec (keeps : client.KeepsWords held sound) (start : sound m.state)
    (e : Store.Event) :
    sound ((client.store front).step m e).state ∧
      m.clock.now ≤ ((client.store front).step m e).clock.now ∧
      ∀ k, (∀ key, e.counted? = some key → k ≠ front ++ key) →
        Fades held k m ((client.store front).step m e) := by
  cases e with
  | call c =>
      obtain ⟨kept, others⟩ := ask_spec keeps start c
      exact ⟨kept, Nat.le_refl _, fun k other => .of_same rfl (others k other)⟩
  | advance d =>
      refine ⟨start, Nat.le_add_right _ d, fun k _ => ⟨Nat.le_add_right _ d, ?_⟩⟩
      exact Client.shown_add held m.state m.clock.now d k
  | purge => exact ⟨start, Nat.le_refl _, fun k _ => .refl held k m⟩

/-- **A run leaves every key that it does not count as it was.** -/
theorem after_spec (keeps : client.KeepsWords held sound) (start : sound m.state)
    (events : List Store.Event) :
    sound ((client.store front).after events m).state ∧
      m.clock.now ≤ ((client.store front).after events m).clock.now ∧
      ∀ k, (∀ e ∈ events, ∀ key, e.counted? = some key → k ≠ front ++ key) →
        Fades held k m ((client.store front).after events m) := by
  induction events generalizing m with
  | nil => exact ⟨start, Nat.le_refl _, fun k _ => .refl held k m⟩
  | cons e rest ih =>
      obtain ⟨kept, later, one⟩ := step_spec front keeps start e
      obtain ⟨kept', later', others⟩ := ih kept
      refine ⟨kept', Nat.le_trans later later', fun k other => ?_⟩
      exact (one k (other e List.mem_cons_self)).trans
        (others k fun e he => other e (List.mem_cons_of_mem _ he))

theorem counted?_eq_some_iff {e : Store.Event} :
    e.counted? = some key ↔ ∃ window, e = .call (.increment key window) := by
  rcases e with (- | - | -) | - | - <;> simp [Store.Event.counted?]

/-- One count takes a value one further. -/
theorem value_le_step {bound : Int} (keeps : client.KeepsWords held sound) (start : sound m.state)
    (room : 0 ≤ bound ∧ bound < Decimal.max63)
    (below : ∀ k i, m.shown held k = some i → i.value ≤ bound) (e : Store.Event) :
    ∀ k i, ((client.store front).step m e).shown held k = some i → i.value ≤ bound + 1 := by
  intro k i there
  by_cases counts : ∃ key, e.counted? = some key ∧ k = front ++ key
  · obtain ⟨key, counted, rfl⟩ := counts
    obtain ⟨window, rfl⟩ := counted?_eq_some_iff.mp counted
    obtain ⟨-, put⟩ := keeps.increment m.clock (front ++ key) window m.state start
      fun i there => Int.lt_of_le_of_lt (below _ i there) room.2
    obtain ⟨next, -⟩ := Option.filter_eq_some_iff.mp (there.symm.trans put).symm
    rw [← Option.some.inj next]
    cases old : Client.shown held m.state m.clock.now (front ++ key) with
    | none => exact Int.add_le_add_right room.1 1
    | some j => exact Int.add_le_add_right (below _ j old) 1
  · obtain ⟨-, -, others⟩ := step_spec front keeps start e
    have same := (others k fun key counted same => counts ⟨key, counted, same⟩).shown
    rw [there] at same
    obtain ⟨there, -⟩ := Option.filter_eq_some_iff.mp same.symm
    have before := below k i there
    omega

/-- **A run counts no value further than its own length**, so its values can grow as long as it is
shorter than what they are from the greatest one at its beginning. -/
theorem value_le_after {bound : Int} (keeps : client.KeepsWords held sound)
    (start : sound m.state) (events : List Store.Event)
    (room : 0 ≤ bound ∧ bound + events.length ≤ Decimal.max63)
    (below : ∀ k i, m.shown held k = some i → i.value ≤ bound) :
    ∀ k i, ((client.store front).after events m).shown held k = some i →
      i.value ≤ bound + events.length := by
  induction events generalizing m bound with
  | nil =>
      rw [List.length_nil, Int.natCast_zero, Int.add_zero]
      exact below
  | cons e rest ih =>
      obtain ⟨kept, -, -⟩ := step_spec front keeps start e
      rw [List.length_cons, Int.natCast_succ] at room ⊢
      intro k i there
      have one := value_le_step front keeps start ⟨room.1, by omega⟩ below e
      have later := ih kept ⟨by omega, by omega⟩ one k i there
      omega

variable {front}

/-! ### The end of a counter -/

/-- A counter shows with an end until it, and not from then on. -/
structure EndsAt (held : ω → String → Option Item) (key : String) (stop : Instant)
    (m : Moment ω) : Prop where
  before : m.clock.now < stop → ∃ i, m.shown held key = some i ∧ i.expiresAt = some stop
  past : stop ≤ m.clock.now → m.shown held key = none

variable {stop : Instant}

theorem EndsAt.fade (h : EndsAt held key stop m) (fades : Fades held key m m') :
    EndsAt held key stop m' where
  before early := by
    obtain ⟨i, there, ends⟩ := h.before (Nat.lt_of_le_of_lt fades.later early)
    refine ⟨i, ?_, ends⟩
    rw [fades.shown, there, Option.filter_some, if_pos]
    rw [Item.isLive, ends]
    exact decide_eq_true early
  past late := by
    rw [fades.shown]
    by_cases ended : stop ≤ m.clock.now
    · rw [h.past ended, Option.filter_none]
    · obtain ⟨i, there, ends⟩ := h.before (Nat.lt_of_not_le ended)
      rw [there, Option.filter_some, if_neg]
      rw [Item.isLive, ends]
      simpa using late

/-- Before its end, a counter may be counted. -/
theorem EndsAt.step (h : EndsAt held (front ++ key) stop m) (keeps : client.KeepsWords held sound)
    (start : sound m.state) (early : m.clock.now < stop) (e : Store.Event) :
    EndsAt held (front ++ key) stop ((client.store front).step m e) := by
  by_cases counts : e.counted? = some key
  · obtain ⟨window, rfl⟩ := counted?_eq_some_iff.mp counts
    obtain ⟨i, there, ends⟩ := h.before early
    refine ⟨fun _ => ?_, fun late => absurd late (Nat.not_le_of_lt early)⟩
    exact keeps.spares m.clock (front ++ key) window m.state i stop start there ends
  · obtain ⟨-, -, others⟩ := step_spec front keeps start e
    refine h.fade (others _ fun own counted same => counts ?_)
    rw [counted, (String.append_right_inj front).mp same]

theorem EndsAt.busy (keeps : client.KeepsWords held sound) (start : sound m.state)
    (h : EndsAt held (front ++ key) stop m) {events : List Store.Event}
    (early : ((client.store front).after events m).clock.now < stop) :
    EndsAt held (front ++ key) stop ((client.store front).after events m) := by
  induction events generalizing m with
  | nil => exact h
  | cons e rest ih =>
      obtain ⟨kept, later, -⟩ := step_spec front keeps start e
      obtain ⟨-, later', -⟩ := after_spec front keeps kept rest
      have now : m.clock.now < stop :=
        Nat.lt_of_le_of_lt (Nat.le_trans later later') early
      exact ih kept (h.step keeps start now e) early

theorem EndsAt.quiet (keeps : client.KeepsWords held sound) (start : sound m.state)
    (h : EndsAt held (front ++ key) stop m) {events : List Store.Event}
    (uncounted : ∀ e ∈ events, e.counted? ≠ some key) :
    EndsAt held (front ++ key) stop ((client.store front).after events m) := by
  obtain ⟨-, -, others⟩ := after_spec front keeps start events
  refine h.fade (others _ fun e he own counted same => uncounted e he ?_)
  rw [counted, (String.append_right_inj front).mp same]

/-! ### Counts -/

/-- The end that a counter has after a count: its own, or else that of a window from now. -/
def endOf (now : Instant) (window : Span) (i : Option Item) : Instant :=
  (i.bind Item.expiresAt).getD (now + window)

theorem next_eq (now : Instant) (window : Span) (i : Option Item) :
    Item.next now window i = ⟨(i.map Item.value).getD 0 + 1, some (endOf now window i)⟩ := by
  cases i <;> rfl

theorem lt_endOf {now : Instant} {window : Span} {i : Option Item} (opens : 0 < window)
    (live : ∀ item, i = some item → item.isLive now = true) : now < endOf now window i := by
  cases i with
  | none => exact Nat.lt_add_of_pos_right opens
  | some item =>
      have live := live item rfl
      rw [Item.isLive] at live
      rw [endOf, Option.bind_some]
      split at live
      · rename_i stop ends
        rw [ends]
        exact of_decide_eq_true live
      · rename_i endless
        rw [endless]
        exact Nat.lt_add_of_pos_right opens

/-- A count shows the next item of the key, which has not ended. -/
theorem shown_step_increment (keeps : client.KeepsWords held sound) (start : sound m.state)
    {window : Span} (opens : 0 < window)
    (grows : ∀ i, m.shown held (front ++ key) = some i → i.value < Decimal.max63) :
    ((client.store front).step m (.call (.increment key window))).shown held (front ++ key) =
      some (Item.next m.clock.now window (m.shown held (front ++ key))) := by
  obtain ⟨-, put⟩ := keeps.increment m.clock (front ++ key) window m.state start grows
  refine put.trans ?_
  rw [Option.filter_some, if_pos, Moment.shown]
  rw [next_eq]
  exact decide_eq_true (lt_endOf opens fun i there => Client.isLive_of_shown there)

/-- A key that does not show is read as zero, and counted as one. -/
theorem replies_of_shown_eq_none (keeps : client.KeepsWords held sound) (start : sound m.state)
    (absent : m.shown held (front ++ key) = none) (window : Span) :
    ((client.store front).count m.clock key m.state).1 = .ready 0 ∧
      ((client.store front).increment m.clock key window m.state).1 = .ready 1 := by
  have unseen : Client.shown held m.state m.clock.now (front ++ key) = none := absent
  obtain ⟨read, -⟩ := keeps.get m.clock (front ++ key) m.state start
  obtain ⟨reply, -⟩ := keeps.increment m.clock (front ++ key) window m.state start
    (fun i there => by rw [unseen] at there; cases there)
  constructor
  · show (client.get m.clock (front ++ key) m.state).1.map _ = _
    rw [read, unseen]
    rfl
  · show (client.increment m.clock (front ++ key) window m.state).1.map _ = _
    rw [reply, unseen]
    rfl

/-- **Counters on a shared server end.** After any run from any content of the server, no key
without the text of the store has changed or is new, and none has gone but by its own time to
live. A count of a value that can grow gives one more than what shows, but never less than zero,
or one where nothing shows. The counter then has an end: the one that it had, or else the end of
a window from now. However it is counted up to that end, it reads as zero from there on, and
the next count gives one. -/
theorem shared_counters_end (keeps : client.KeepsWords held sound) (front : String)
    (clock : Clock) {w : ω} (start : sound w) (events : List Store.Event) :
    let store := client.store front
    let m := store.after events ⟨clock, w⟩
    (∀ k, (∀ key, k ≠ front ++ key) →
        m.shown held k = (held w k).filter (Item.isLive m.clock.now)) ∧
      ∀ key window, 0 < window →
        (∀ i, m.shown held (front ++ key) = some i → i.value < Decimal.max63) →
        let old := m.shown held (front ++ key)
        let stop := endOf m.clock.now window old
        let counted := store.step m (.call (.increment key window))
        (∃ n : Nat, (store.increment m.clock key window m.state).1 = .ready n ∧
            (n : Int) = match old with
              | some i => max 0 (i.value + 1)
              | none => 1) ∧
          counted.shown held (front ++ key) =
            some ⟨(old.map Item.value).getD 0 + 1, some stop⟩ ∧
          ∀ busy quiet, (store.after busy counted).clock.now < stop →
            (∀ e ∈ quiet, e.counted? ≠ some key) →
            let last := store.after quiet (store.after busy counted)
            stop ≤ last.clock.now →
            (store.count last.clock key last.state).1 = .ready 0 ∧
              ∀ window, (store.increment last.clock key window last.state).1 = .ready 1 := by
  intro store m
  obtain ⟨kept, -, others⟩ :=
    after_spec front (m := ⟨clock, w⟩) keeps start events
  refine ⟨fun k foreign => ?_, fun key window opens grows => ?_⟩
  · obtain ⟨later, shown⟩ := others k fun e _ own _ => foreign own
    exact shown.trans (Client.filter_isLive_of_le later _)
  · intro old stop counted
    obtain ⟨reply, -⟩ := keeps.increment m.clock (front ++ key) window m.state kept grows
    have shown : counted.shown held (front ++ key) = some (Item.next m.clock.now window old) :=
      shown_step_increment keeps kept opens grows
    rw [next_eq] at shown
    have early : m.clock.now < stop := lt_endOf opens fun i there => Client.isLive_of_shown there
    have ends : EndsAt held (front ++ key) stop counted :=
      ⟨fun _ => ⟨_, shown, rfl⟩, fun late => absurd late (Nat.not_le_of_lt early)⟩
    obtain ⟨kept₁, -, -⟩ := step_spec front keeps kept (.call (.increment key window))
    refine ⟨⟨(Item.next m.clock.now window old).value.toNat, ?_, ?_⟩, shown, ?_⟩
    · exact congrArg (Reply.map Int.toNat) reply
    · rw [next_eq, Int.toNat_eq_max]
      cases old with
      | none => rfl
      | some i => exact Int.max_comm (i.value + 1) 0
    · intro busy quiet before uncounted last late
      obtain ⟨kept₂, -, -⟩ := after_spec front keeps kept₁ busy
      obtain ⟨kept₃, -, -⟩ := after_spec front keeps kept₂ quiet
      -- Counts up to the end keep it, and from there on nothing but a count brings the key back.
      have gone := ((ends.busy keeps kept₁ before).quiet keeps kept₂ uncounted).past late
      exact ⟨(replies_of_shown_eq_none keeps kept₃ gone window).1,
        fun window => (replies_of_shown_eq_none keeps kept₃ gone window).2⟩

end Shared

/-- A server with a counter below zero and without an end, one that can grow once more, and a key
of others. -/
def crowded : KeyValue where
  items := [("p:a", ⟨-2, none⟩), ("p:b", ⟨Decimal.max63 - 1, some 4⟩), ("other", ⟨9, some 8⟩)]
  failing := false

theorem counter_below_zero_ends :
    let store := KeyValue.client.store "p:"
    let m := store.after [.call (.increment "b" 60), .advance 2] ⟨⟨0, 0⟩, crowded⟩
    let counted := store.step m (.call (.increment "a" 5))
    let last := store.after [.advance 2, .call (.increment "b" 9)]
      (store.after [.advance 3, .call (.increment "a" 60)] counted)
    crowded.Serves ∧ m.shown KeyValue.held "other" = some ⟨9, some 8⟩ ∧
      (store.increment m.clock "a" 5 m.state).1 = .ready 0 ∧
      counted.shown KeyValue.held "p:a" = some ⟨-1, some 7⟩ ∧
      (store.count last.clock "a" last.state).1 = .ready 0 ∧
      (store.increment last.clock "a" 5 last.state).1 = .ready 1 := by
  intro store m counted last
  have serves : crowded.Serves := ⟨rfl, by decide⟩
  obtain ⟨others, ends⟩ := shared_counters_end KeyValue.client_keeps.words "p:" ⟨0, 0⟩
    serves [.call (.increment "b" 60), .advance 2]
  have foreign : ∀ key : String, "other" ≠ "p:" ++ key := by
    intro key same
    have first := congrArg (fun s : String => s.toList.head?) same
    simp [String.toList_append] at first
  have old : m.shown KeyValue.held ("p:" ++ "a") = some ⟨-2, none⟩ := by decide
  have grows : ∀ i, m.shown KeyValue.held ("p:" ++ "a") = some i → i.value < Decimal.max63 := by
    intro i there
    cases old.symm.trans there
    decide
  obtain ⟨⟨n, reply, zero⟩, shown, past⟩ := ends "a" 5 (by decide) grows
  rw [old] at zero shown
  obtain ⟨read, counts⟩ := past [.advance 3, .call (.increment "a" 60)]
    [.advance 2, .call (.increment "b" 9)] (by decide) (by decide) (by decide)
  obtain rfl : n = 0 := Int.ofNat.inj zero
  exact ⟨serves, others "other" foreign, reply, shown, read, counts 5⟩

end Gatehouse
