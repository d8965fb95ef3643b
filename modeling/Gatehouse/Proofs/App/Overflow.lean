import Gatehouse.Proofs.App.Attempts
import Gatehouse.Proofs.App.Built
import Gatehouse.Store.Strict

/-!
Which windows a clock has room for.

An app over a strict memory answers as the same app over the memory in it, and what is
counted for a request says which sums were formed (`Overflow.after`, `Strict`). Whatever the
counts keep to, a request keeps to (`App.strict_respond`).

* The number of seconds that is told of a window is never past its bits.
* A run overflows nothing if the clock has room for a window at each of its requests
  (`App.inRange_run`).
* The first request that is counted overflows something if the clock has none
  (`App.overflows_of_no_room`).

`App.built_app_fits_iff_room` has this of every app that is built from variables without a
key-value server. Variables may ask for a window for which no clock has room
(`App.endless_window_stops_requests`).
-/

namespace Gatehouse

open Http Auth Limit Checks

variable {ω σ α : Type}

/-- The clock holds the end of a window that opens now, by both of its readings. -/
def Clock.HasRoom (clock : Clock) (window : Span) : Prop :=
  clock.now + window ≤ Clock.last ∧ clock.wall + window ≤ Clock.last

/-! ### What a memory holds -/

namespace Memory

/-- Every entry ends within a window from now. -/
def EndsWithin (m : Memory) (now : Instant) (window : Span) : Prop :=
  ∀ p ∈ m.entries, p.2.expiresAt ≤ now + window

variable {m : Memory} {now : Instant} {window : Span} {key : String}

theorem endsWithin_empty (capacity : Nat) : (empty capacity).EndsWithin now window :=
  fun _ hp => nomatch hp

theorem EndsWithin.of_subset {m' : Memory} (h : m.EndsWithin now window)
    (sub : m'.entries ⊆ m.entries) : m'.EndsWithin now window :=
  fun p hp => h p (sub hp)

theorem EndsWithin.later (h : m.EndsWithin now window) (s : Span) :
    m.EndsWithin (now + s) window := by
  intro p hp
  exact Nat.le_trans (h p hp) (Nat.add_le_add_right (Nat.le_add_right now s) window)

theorem EndsWithin.find? (h : m.EndsWithin now window) {e : Entry} (found : m.find? key = some e) :
    e.expiresAt ≤ now + window := by
  obtain ⟨_, _, entries, -⟩ := List.lookup_eq_some_iff.mp found
  exact h (key, e) (by rw [entries]; simp)

theorem entries_makeRoom_subset (m : Memory) (now : Instant) :
    (m.makeRoom now).entries ⊆ m.entries := by
  unfold makeRoom
  intro p hp
  dsimp only at hp
  split at hp
  · exact List.mem_of_mem_filter hp
  · exact List.mem_of_mem_filter (List.mem_mergeSort.mp (List.mem_of_mem_drop hp))

/-- Counting a key puts its next entry in front of some of the entries. -/
theorem exists_entries_increment (m : Memory) (now : Instant) (key : String) (window : Span) :
    ∃ rest, (m.increment now key window).2.entries =
      (key, Entry.next now window (m.live? now key)) :: rest ∧ rest ⊆ m.entries := by
  unfold increment
  cases m.live? now key with
  | some e => exact ⟨_, rfl, fun p hp => List.mem_of_mem_filter hp⟩
  | none =>
      refine ⟨_, rfl, fun p hp => ?_⟩
      have stays := List.mem_of_mem_filter hp
      split at stays
      · exact m.entries_makeRoom_subset now stays
      · exact stays

theorem EndsWithin.increment (h : m.EndsWithin now window) (key : String) :
    (m.increment now key window).2.EndsWithin now window := by
  obtain ⟨rest, entries, sub⟩ := m.exists_entries_increment now key window
  intro p hp
  rw [entries] at hp
  rcases List.mem_cons.mp hp with rfl | stays
  · exact expiresAt_next_le fun e found => h.find? found
  · exact h p (sub stays)

theorem EndsWithin.ttl_le (h : m.EndsWithin now window) : m.ttl now key ≤ window :=
  Memory.ttl_le fun _ found => h.find? found

/-- All of a window is left that was just opened. -/
theorem ttl_increment_of_opens (opens : m.live? now key = none) (open_ : 0 < window) :
    (m.increment now key window).2.ttl now key = window := by
  rw [increment, opens]
  refine (ttl_put (Nat.lt_add_of_pos_right open_)).trans ?_
  exact Nat.add_sub_cancel_left now window

end Memory

/-! ### The sums of a count -/

namespace Overflow

/-- The first sum that does not fit after a key was counted and the rest of its window
told. -/
def after (overflow : Option Overflow) (clock : Clock) (m : Memory) (key : String)
    (window : Span) : Option Overflow :=
  (overflow.or (ofIncrement clock m key window)).or
    (ofLeft clock ((m.increment clock.now key window).2.ttl clock.now key))

variable {overflow : Option Overflow} {clock : Clock} {m : Memory} {key : String} {window : Span}

theorem ofIncrement_of_room (room : clock.HasRoom window) :
    ofIncrement clock m key window = none :=
  if_neg fun h => Nat.not_lt.mpr room.1 h.2

/-- Rounding up does not leave a whole number of seconds behind. -/
theorem ceilSeconds_le {left n : Nat} (fits : left ≤ Span.seconds n) :
    Span.ceilSeconds left ≤ n := by
  rw [Span.seconds] at fits
  rw [Span.ceilSeconds]
  omega

theorem last_le : Clock.last ≤ Span.seconds Text.Decimal.max64 := by
  decide

/-- What is left of a window is rounded within 64 bits, if its end is held. -/
theorem ofLeft_of_le (clock : Clock) {left : Span} (fits : left ≤ Span.seconds Text.Decimal.max64) :
    ofLeft clock left = if Clock.last < clock.wall + left then some resetTime else none := by
  unfold ofLeft
  by_cases past : (Clock.last : Int) < clock.wall + left
  · rw [if_pos past, if_pos past]
  · have held : (clock.wall + left).toNat ≤ Span.seconds Text.Decimal.max64 := by
      have last := last_le
      omega
    rw [if_neg past, if_neg past, if_neg]
    exact not_or.mpr ⟨Nat.not_lt.mpr (ceilSeconds_le held), Nat.not_lt.mpr (ceilSeconds_le fits)⟩

/-- Nothing is forgotten. -/
theorem after_ne_none (h : overflow ≠ none) : after overflow clock m key window ≠ none := by
  intro gone
  exact h (Option.or_eq_none_iff.mp (Option.or_eq_none_iff.mp gone).1).1

end Overflow

/-- As far as one window and one clock go, nothing has overflowed that may not: no seconds
are past their bits, and nothing at all is, if it is to be `calm`. -/
structure InRange (window : Span) (calm : Prop) (overflow : Option Overflow) (clock : Clock)
    (m : Memory) : Prop where
  soon : m.EndsWithin clock.now window
  rounds : overflow ≠ some .rounding
  calm : calm → overflow = none

namespace InRange

variable {window : Span} {calm : Prop} {overflow : Option Overflow} {clock : Clock} {m : Memory}

theorem count (h : InRange window calm overflow clock m)
    (fits : window ≤ Span.seconds Text.Decimal.max64) (room : calm → clock.HasRoom window)
    (key : String) :
    InRange window calm (Overflow.after overflow clock m key window) clock
      (m.increment clock.now key window).2 := by
  have soon := h.soon.increment key
  have short : (m.increment clock.now key window).2.ttl clock.now key ≤ window := soon.ttl_le
  have told := Overflow.ofLeft_of_le clock (Nat.le_trans short fits)
  refine ⟨soon, fun past => ?_, fun quiet => ?_⟩
  · -- Neither of the two sums that may fail is the rounding.
    simp only [Overflow.after, Overflow.ofIncrement, told, Option.or_eq_some_iff] at past
    rcases past with (before | ⟨-, opened⟩) | ⟨-, reset⟩
    · exact h.rounds before
    · split at opened <;> cases opened
    · split at reset <;> cases reset
  · have held : ¬ (Clock.last : Int) < clock.wall +
        ((m.increment clock.now key window).2.ttl clock.now key : Nat) :=
      Int.not_lt.mpr (Int.le_trans (Int.add_le_add_left (Int.ofNat_le.mpr short) _) (room quiet).2)
    rw [Overflow.after, h.calm quiet, Overflow.ofIncrement_of_room (room quiet), told, if_neg held]
    rfl

theorem elapse (h : InRange window calm overflow clock m) (s : Span) :
    InRange window calm overflow (clock.advance s) m :=
  { h with soon := h.soon.later s }

theorem purge (h : InRange window calm overflow clock m) (now : Instant) :
    InRange window calm overflow clock (m.purge now) :=
  { h with soon := h.soon.of_subset fun _ => List.mem_of_mem_filter }

end InRange

/-! ### Beside the memory -/

/-- The world with a strict memory in the place of its memory. -/
def World.strict (w : World (Memory × ω)) (overflow : Option Overflow) :
    World (StrictMemory × ω) where
  clock := w.clock
  metrics := w.metrics
  seeds := w.seeds
  drawn := w.drawn
  outside := (⟨w.outside.1, overflow⟩, w.outside.2)

/-- A world with an empty strict memory is the strict form of one with an empty memory. -/
theorem World.exists_strict_of_empty {w₀ : World (StrictMemory × ω)} {capacity : Nat}
    (empty : w₀.outside.1 = .empty capacity) :
    ∃ w : World (Memory × ω), w₀ = w.strict none ∧ w.outside.1 = .empty capacity := by
  refine ⟨{ w₀ with outside := (.empty capacity, w₀.outside.2) }, ?_, rfl⟩
  have same : w₀ = { w₀ with outside := (w₀.outside.1, w₀.outside.2) } := rfl
  rw [same, empty]
  rfl

/-- The worlds of an app over a strict memory and over the memory in it, as long as the
overflow, the clock and the memory satisfy `I`. -/
def Strict (I : Option Overflow → Clock → Memory → Prop) (w' : World (StrictMemory × ω))
    (w : World (Memory × ω)) : Prop :=
  ∃ overflow, I overflow w.clock w.outside.1 ∧ w' = w.strict overflow

section Strict

variable {I : Option Overflow → Clock → Memory → Prop}

theorem likeness_strict (I : Option Overflow → Clock → Memory → Prop) :
    Likeness (Strict (ω := ω) I) where
  clock := by
    rintro w' w ⟨overflow, -, rfl⟩
    rfl
  draw := by
    rintro w' w ⟨overflow, holds, rfl⟩
    exact ⟨rfl, overflow, holds, rfl⟩
  authFailure := by
    rintro metered w' w ⟨overflow, holds, rfl⟩
    cases metered <;> exact ⟨rfl, overflow, holds, rfl⟩
  callback := by
    rintro label w' w ⟨overflow, holds, rfl⟩
    exact ⟨rfl, overflow, holds, rfl⟩

/-- A service that stands beside the memory cannot tell. -/
theorem serves_strict (service : ω → α × ω) :
    Act.Alike (Strict I) Eq (Act.ask (aside service)) (Act.ask (aside service)) := by
  rintro w' w ⟨overflow, holds, rfl⟩
  exact ⟨rfl, overflow, holds, rfl⟩

theorem alike_record_strict (metered : Bool) (f : Metrics → Metrics) :
    Act.Alike (Strict (ω := ω) I) Eq (Act.record metered f) (Act.record metered f) := by
  rintro w' w ⟨overflow, holds, rfl⟩
  cases metered <;> exact ⟨rfl, overflow, holds, rfl⟩

/-- A strict memory gives the verdicts of the memory in it, and forms the sums of one
count. -/
theorem Limit.check_strict (deadline : Span) (key : String) (cap : Nat) (window : Span)
    (w : World (Memory × ω)) (overflow : Option Overflow) :
    check StrictMemory.store.inFront deadline key cap window (w.strict overflow) =
      ((check Memory.store.inFront deadline key cap window w).1,
        (check Memory.store.inFront deadline key cap window w).2.strict
          (Overflow.after overflow w.clock w.outside.1 key window)) :=
  rfl

/-- What a count with windows of a length passes on. -/
def KeptByCounts (window : Span) (I : Option Overflow → Clock → Memory → Prop) : Prop :=
  ∀ overflow clock m key, I overflow clock m →
    I (Overflow.after overflow clock m key window) clock (m.increment clock.now key window).2

theorem Limit.Limiter.alike_strict {l' : Limiter (StrictMemory × ω)} {l : Limiter (Memory × ω)}
    (keeps : KeptByCounts l.window I) (path : String) (keys : l'.keyFor = l.keyFor)
    (caps : l'.capFor = l.capFor) (rejects : l'.reject = l.reject)
    (stores : l'.store = some StrictMemory.store.inFront)
    (plain : l.store = some Memory.store.inFront)
    (deadlines : l'.deadline = l.deadline) (windows : l'.window = l.window)
    (metered : l'.metered = l.metered) (names : l'.name = l.name) :
    Layer.Alike (Strict I) path Eq l'.guard l.guard := by
  refine Limiter.alike_guard keys caps rejects (fun _ => rfl) ?_ ?_ ?_
  · rw [stores, plain, deadlines, windows]
    refine .some ?_
    rintro key cap w' w ⟨overflow, holds, rfl⟩
    rw [check_strict]
    exact ⟨rfl, _, keeps overflow w.clock w.outside.1 key holds, rfl⟩
  · rw [metered]
    exact alike_record_strict _ _
  · rw [metered, names]
    exact alike_record_strict _ _

end Strict

namespace App

variable {I : Option Overflow → Clock → Memory → Prop}

/-- The app over a strict memory. -/
def overStrict (app : App ω) : App (StrictMemory × ω) :=
  app.withStore StrictMemory.store

theorem alikeOn_strict (app : App ω) (keeps : KeptByCounts app.window I) (path : String) :
    AlikeOn (Strict I) path Eq app.overStrict app.overMemory where
  same _ := rfl
  client := Limiter.alike_strict (l := app.overMemory.clientLimiter) keeps path rfl rfl rfl rfl rfl
    rfl rfl rfl rfl
  endpoint := Limiter.alike_strict (l := app.overMemory.endpointLimiter) keeps path rfl rfl rfl rfl
    rfl rfl rfl rfl rfl
  user := Limiter.alike_strict (l := app.overMemory.userLimiter) keeps path rfl rfl rfl rfl rfl rfl
    rfl rfl rfl
  workspace := by
    rw [WorkspaceLimiter.guard_eq, WorkspaceLimiter.guard_eq]
    exact Limiter.alike_strict (l := app.overMemory.workspaceLimiter.asLimiter) keeps path rfl rfl
      rfl rfl rfl rfl rfl rfl rfl
  health _ r _ := by
    have services : Alike (Strict I) app.overStrict app.overMemory :=
      app.alike_carried (likeness_strict I) serves_strict _ _
    refine (services.health ?_ r).same fun _ => rfl
    unfold storeKind
    cases h : app.ping <;> simp [overStrict, overMemory, withStore, carried, h]
  metrics _ r _ := by
    refine .get ?_
    rintro w' w ⟨overflow, -, rfl⟩
    exact .pure (.refl (fun _ => rfl) _)

/-- **What every count passes on, a request passes on.** Over a strict memory it has the
response that it has over the memory in it. -/
theorem strict_respond (app : App ω) (keeps : KeptByCounts app.window I) (r : Request)
    {w' : World (StrictMemory × ω)} {w : World (Memory × ω)} (start : Strict I w' w) :
    (app.overStrict.respond r w').1 = (app.overMemory.respond r w).1 ∧
      Strict I (app.overStrict.respond r w').2 (app.overMemory.respond r w).2 := by
  have services : Alike (Strict I) app.overStrict app.overMemory :=
    app.alike_carried (likeness_strict I) serves_strict _ _
  obtain ⟨like, after⟩ := services.respond (app.alikeOn_strict keeps r.path) r rfl w' w start
  exact ⟨like.eq, after⟩

/-! ### Runs -/

/-- Every request of a run comes at a time when the clock has room for a window. -/
def RoomAlong (window : Span) : List Event → Clock → Prop
  | [], _ => True
  | .request _ :: rest, clock => clock.HasRoom window ∧ RoomAlong window rest clock
  | .advance s :: rest, clock => RoomAlong window rest (clock.advance s)
  | .purge :: rest, clock => RoomAlong window rest clock

/-- The world after an event, over a strict memory. -/
def strictHappen (app : App (StrictMemory × ω)) (w : World (StrictMemory × ω)) :
    Event → World (StrictMemory × ω)
  | .request r => (app.respond r w).2
  | .advance s => { w with clock := w.clock.advance s }
  | .purge =>
      { w with outside :=
        ({ w.outside.1 with memory := w.outside.1.memory.purge w.clock.now }, w.outside.2) }

/-- The world after a run, over a strict memory. -/
def strictEndOf (app : App (StrictMemory × ω)) (events : List Event)
    (w : World (StrictMemory × ω)) : World (StrictMemory × ω) :=
  events.foldl app.strictHappen w

section Runs

variable {app : App ω} {calm : Prop} {w' : World (StrictMemory × ω)} {w : World (Memory × ω)}

/-- A request keeps what is in range, if nothing has to be calm or the clock has room. -/
theorem inRange_request (fits : app.window ≤ Span.seconds Text.Decimal.max64)
    (room : calm → w.clock.HasRoom app.window) (start : Strict (InRange app.window calm) w' w)
    (r : Request) :
    Strict (InRange app.window calm) (app.overStrict.respond r w').2
        (app.overMemory.respond r w).2 ∧
      (app.overMemory.respond r w).2.clock = w.clock := by
  have keeps : KeptByCounts app.window
      fun overflow clock m => clock = w.clock ∧ InRange app.window calm overflow clock m := by
    rintro overflow clock m key ⟨rfl, held⟩
    exact ⟨rfl, held.count fits room key⟩
  obtain ⟨overflow, held, rfl⟩ := start
  obtain ⟨-, after, ⟨same, later⟩, ends⟩ := app.strict_respond keeps r ⟨overflow, ⟨rfl, held⟩, rfl⟩
  exact ⟨⟨after, later, ends⟩, same⟩

/-- **A run overflows nothing while the clock has room**, and rounds nothing past its bits
however that is. -/
theorem inRange_run (fits : app.window ≤ Span.seconds Text.Decimal.max64) (events : List Event)
    (room : calm → RoomAlong app.window events w.clock)
    (start : Strict (InRange app.window calm) w' w) :
    Strict (InRange app.window calm) (app.overStrict.strictEndOf events w')
      (app.endOf events w) := by
  induction events generalizing w' w with
  | nil => exact start
  | cons e rest ih =>
      cases e with
      | request r =>
          obtain ⟨after, same⟩ := inRange_request fits (fun quiet => (room quiet).1) start r
          refine ih (fun quiet => ?_) after
          exact same.symm ▸ (room quiet).2
      | advance s =>
          obtain ⟨overflow, held, rfl⟩ := start
          exact ih room ⟨overflow, held.elapse s, rfl⟩
      | purge =>
          obtain ⟨overflow, held, rfl⟩ := start
          exact ih room ⟨overflow, held.purge _, rfl⟩

end Runs

/-! ### Without room -/

end App

/-- Where the clock has no room for a window, the first count overflows something. -/
theorem Overflow.after_ne_none_of_no_room {overflow : Option Overflow} {clock : Clock} {m : Memory}
    {window : Span} (open_ : 0 < window) (full : ¬ clock.HasRoom window)
    (stuck : m.entries ≠ [] → overflow ≠ none) (key : String) :
    Overflow.after overflow clock m key window ≠ none := by
  by_cases first : m.entries = []
  · have opens : m.live? clock.now key = none := by
      simp [Memory.live?, Memory.find?, first]
    intro gone
    obtain ⟨before, told⟩ := Option.or_eq_none_iff.mp gone
    have fits := (Option.or_eq_none_iff.mp before).2
    rw [Memory.ttl_increment_of_opens opens open_] at told
    refine full ⟨Nat.not_lt.mp fun past => ?_, Int.not_lt.mp fun past => ?_⟩
    · simp [Overflow.ofIncrement, opens, past] at fits
    · simp [Overflow.ofLeft, past] at told
  · exact Overflow.after_ne_none (stuck first)

/-- A memory is not empty once it has counted. -/
theorem Limit.Replays.entries_ne_nil {window : Span} {now : Instant} {m m' : Memory} {counts : Log}
    (h : Replays window now m counts m') (counted : counts ≠ []) : m'.entries ≠ [] := by
  cases h with
  | done => exact absurd rfl counted
  | @count _ mid key _ =>
      obtain ⟨rest, entries, -⟩ := mid.exists_entries_increment now key window
      rw [entries]
      exact List.cons_ne_nil _ _

namespace App

/-- The client of a request is counted, whatever becomes of the request, unless its path is
skipped. -/
theorem charges_ne_nil (app : App ω) {r : Request} (arrives : r.context = {})
    (counted : r.path ∉ app.skipPaths) (w : World (Memory × ω)) : app.charges r w ≠ [] := by
  obtain ⟨user?, counts, why, -, fares, -, noted⟩ :=
    app.overMemory.respond_fares (by rw [arrives]) w
  have charged : app.charges r w = counts := congrArg (fun v => v.2.outside.1) (noted [])
  have first : app.overMemory.clientStages r =
      [.count ("ip:" ++ Limit.clientOf r) (capped app.limit app.burst)] := by
    have skips : ¬ app.overMemory.skipPaths.contains r.path = true := by
      rw [List.contains_iff_mem]
      exact counted
    rw [clientStages, if_neg skips]
    rfl
  rw [stages, first] at fares
  rw [charged]
  cases fares <;> exact List.cons_ne_nil _ _

/-- **The first counted request overflows something if the clock has no room.** -/
theorem overflows_of_no_room (app : App ω) (open_ : 0 < app.window) {r : Request}
    (arrives : r.context = {}) (counted : r.path ∉ app.skipPaths) {w : World (Memory × ω)}
    (empty : w.outside.1.entries = []) (full : ¬ w.clock.HasRoom app.window) :
    (app.overStrict.respond r (w.strict none)).2.outside.1.overflow ≠ none := by
  have keeps : KeptByCounts app.window fun overflow clock m =>
      clock = w.clock ∧ (m.entries ≠ [] → overflow ≠ none) := by
    rintro overflow clock m key ⟨rfl, stuck⟩
    exact ⟨rfl, fun _ => Overflow.after_ne_none_of_no_room open_ full stuck key⟩
  obtain ⟨-, after, ⟨-, stuck⟩, ends⟩ :=
    app.strict_respond keeps r ⟨none, ⟨rfl, fun filled => absurd empty filled⟩, rfl⟩
  rw [ends]
  exact stuck ((app.replays_charges r w).1.entries_ne_nil (app.charges_ne_nil arrives counted w))

end App

/-! ### Apps that are built -/

/-- A client beside the state of a store. -/
def Client.aside (client : Client ω) : Client (σ × ω) where
  increment clock key ttl := Gatehouse.aside (client.increment clock key ttl)
  ttl clock key := Gatehouse.aside (client.ttl clock key)
  get clock key := Gatehouse.aside (client.get clock key)

/-- The services with another memory, whose state stands before theirs. -/
def Services.withMemory (services : Services ω) (s : Store σ) : Services (σ × ω) where
  memory := s.inFront
  client address := (services.client address).aside
  ping address := aside (services.ping address)
  network post := aside (services.network post)
  resolver name username email := aside (services.resolver name username email)

namespace App

open OAuth

theorem gateOf_withMemory (services : Services ω) (s : Store σ) (c : Config) :
    gateOf (services.withMemory s) c = (gateOf services c).carried aside := by
  simp only [gateOf, Gate.carried, Option.map_map]
  rfl

/-- Without a key-value server an app is built over the memory of its services. -/
theorem ofConfig_withMemory (services : Services ω) (s : Store σ) {c : Config}
    (inMemory : c.redisUrl = none) :
    ofConfig (services.withMemory s) c =
      (ofConfig services c).map fun app => app.withStore s := by
  have server : serverOf c = .ok none := by rw [serverOf, inMemory]
  simp only [ofConfig, server, gateOf_withMemory]
  cases clientOf c with
  | error fault => rfl
  | ok client => cases client <;> rfl

/-- **What fits in an app that is built from variables**, without a key-value server and
from an empty memory: the seconds that are told of a window always do, everything does as
long as the clock has room for a window at each request, and the first request that is
counted overflows nothing only then. -/
theorem built_app_fits_iff_room (services : Services ω) {vars : Variables} {c : Config}
    (accepted : Config.ofVariables vars = .ok c) (inMemory : c.redisUrl = none)
    {app : App (StrictMemory × ω)}
    (built : ofConfig (services.withMemory StrictMemory.store) c = .ok app) {capacity : Nat}
    {w₀ : World (StrictMemory × ω)} (empty : w₀.outside.1 = .empty capacity) :
    (∀ events, (app.strictEndOf events w₀).outside.1.overflow ≠ some .rounding) ∧
    (∀ events, RoomAlong c.window events w₀.clock →
      (app.strictEndOf events w₀).outside.1.overflow = none) ∧
    ∀ r : Request, r.context = {} → r.path ∉ c.skipPaths →
      ((app.respond r w₀).2.outside.1.overflow = none ↔ w₀.clock.HasRoom c.window) := by
  obtain ⟨seconds, given, positive, window⟩ := (Config.ofVariables_eq_ok_iff.mp accepted).window
  have bound : seconds ≤ Text.Decimal.max64 := Variables.number_le (by decide) given
  have fits : c.window ≤ Span.seconds Text.Decimal.max64 := by
    rw [window]
    exact Nat.mul_le_mul_right _ bound
  have open_ : 0 < c.window := by
    rw [window]
    exact Nat.mul_pos (Nat.pos_of_ne_zero positive) (by decide)
  rw [ofConfig_withMemory services _ inMemory] at built
  obtain ⟨plain, made, rfl⟩ := map_eq_ok.mp built
  have shared : plain.window = c.window ∧ plain.skipPaths = c.skipPaths := by
    simp only [ofConfig, bind_eq_ok, pure_eq_ok] at made
    obtain ⟨server, -, client, -, rfl⟩ := made
    exact ⟨rfl, rfl⟩
  rw [← shared.1] at fits open_ ⊢
  rw [← shared.2]
  obtain ⟨w, rfl, memory⟩ := World.exists_strict_of_empty empty
  have start : ∀ calm, Strict (InRange plain.window calm) (w.strict none) w := by
    intro calm
    refine ⟨none, ⟨?_, ?_, fun _ => rfl⟩, rfl⟩
    · rw [memory]
      exact Memory.endsWithin_empty capacity
    · intro no
      cases no
  refine ⟨fun events => ?_, fun events room => ?_, fun r arrives counted => ?_⟩
  · obtain ⟨overflow, held, ends⟩ := inRange_run fits events (fun no => no.elim) (start False)
    exact congrArg (fun v => v.outside.1.overflow) ends ▸ held.rounds
  · obtain ⟨overflow, held, ends⟩ := inRange_run fits events (fun _ => room) (start True)
    exact (congrArg (fun v => v.outside.1.overflow) ends).trans (held.calm trivial)
  · constructor
    · intro quiet
      by_contra full
      have none_yet : w.outside.1.entries = [] := congrArg Memory.entries memory
      exact plain.overflows_of_no_room open_ arrives counted none_yet full quiet
    · intro room
      obtain ⟨overflow, held, ends⟩ :=
        inRange_run fits [.request r] (fun _ => ⟨room, trivial⟩) (start True)
      exact (congrArg (fun v => v.outside.1.overflow) ends).trans (held.calm trivial)

/-- Variables that allow mock sessions and ask for windows of some seconds. -/
def windowVariables (seconds : String) : Variables := fun name =>
  [("ALLOW_MOCK_AUTH", "true"), ("RATE_LIMIT_WINDOW_SECS", seconds)].lookup name

/-- The world before the first request to an app over a strict memory. -/
def strictWorld : World (StrictMemory × Unit) :=
  .fresh (.empty 10, ())

/-- Windows of a minute fit at the beginning of time, and some time later. -/
theorem minute_windows_fit :
    ∃ c app, Config.ofVariables (windowVariables "60") = .ok c ∧ c.redisUrl = none ∧
      ofConfig (silentServices.withMemory StrictMemory.store) c = .ok app ∧
      strictWorld.outside.1 = .empty 10 ∧
      RoomAlong c.window [.request (loginBy "GET"), .advance (Span.seconds 90),
        .request (loginBy "GET")] strictWorld.clock ∧
      (app.strictEndOf [.request (loginBy "GET"), .advance (Span.seconds 90),
        .request (loginBy "GET")] strictWorld).outside.1.overflow = none := by
  obtain ⟨c, accepted, seen⟩ := exists_of_view (Config.ofVariables (windowVariables "60"))
    (fun c => (c.redisUrl, c.window, (ofConfig (silentServices.withMemory StrictMemory.store)
      c).toOption.map fun _ => ())) (none, Span.seconds 60, some ()) (by decide +kernel)
  rw [Prod.mk.injEq, Prod.mk.injEq] at seen
  obtain ⟨inMemory, window, given⟩ := seen
  obtain ⟨app, built, -⟩ := exists_of_view
    (ofConfig (silentServices.withMemory StrictMemory.store) c) _ _ given
  have room : RoomAlong c.window [.request (loginBy "GET"), .advance (Span.seconds 90),
      .request (loginBy "GET")] strictWorld.clock := by
    rw [window]
    exact ⟨⟨by decide, by decide⟩, ⟨by decide, by decide⟩, trivial⟩
  have empty : strictWorld.outside.1 = .empty 10 := rfl
  obtain ⟨-, fits, -⟩ := built_app_fits_iff_room silentServices accepted inMemory built empty
  exact ⟨c, app, accepted, inMemory, built, empty, room, fits _ room⟩

/-- **No clock has room for the longest window that variables may ask for**, so the end of
the first window that opens stops the request. -/
theorem endless_window_stops_requests :
    ∃ c app, Config.ofVariables (windowVariables "18446744073709551615") = .ok c ∧
      c.redisUrl = none ∧ ofConfig (silentServices.withMemory StrictMemory.store) c = .ok app ∧
      (app.respond (loginBy "GET") strictWorld).2.outside.1.overflow = some .windowEnd := by
  obtain ⟨c, accepted, seen⟩ := exists_of_view
    (Config.ofVariables (windowVariables "18446744073709551615"))
    (fun c => (c.redisUrl, (ofConfig (silentServices.withMemory StrictMemory.store)
      c).toOption.map fun app =>
        (app.respond (loginBy "GET") strictWorld).2.outside.1.overflow))
    (none, some (some .windowEnd)) (by decide +kernel)
  rw [Prod.mk.injEq] at seen
  obtain ⟨app, built, stopped⟩ := exists_of_view
    (ofConfig (silentServices.withMemory StrictMemory.store) c) _ _ seen.2
  exact ⟨c, app, accepted, seen.1, built, stopped⟩

end App

end Gatehouse
