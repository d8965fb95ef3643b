import Gatehouse.Proofs.Limit.Windows
import Mathlib.Logic.Function.Basic

/-!
Many requests on their way through a limiter.

A check asks its store twice, once for the count and once for what is left of the
window. Between the two, other requests may be counted, time may pass, the memory
may be purged, and the window may end and another one open. Here any number of
checks take their steps in any order (`Traffic.run`).

* `step_step`, `gate_runs_iff`: two steps in a row are the check of a limiter, and
  what they come to decides whether the request reaches the handler.
* `Accounts.apply`, `Accounts.run`: what holds of the checks of one key, and is kept
  by every move.
* `counts_in_step_order`: in every window the checks are given the numbers from one
  on in the order of their first steps, as many are let through as the cap allows, and
  the others are told to wait no longer than a window.
-/

namespace Gatehouse.Limit

open Http

/-! ### A check, step by step -/

/-- A check of a limiter: the key that it counts and the cap of it, the length of a
window, and how long it waits for the store. -/
structure Check where
  key : String
  cap : Nat
  window : Span
  deadline : Span
  deriving DecidableEq, Repr

/-- How far a check is. -/
inductive Progress where
  | waiting
  | counted (count : Nat)
  | done (result : Except StoreFault Window)
  deriving DecidableEq

namespace Progress

def isWaiting : Progress → Bool
  | waiting => true
  | counted _ | done _ => false

def isDone : Progress → Bool
  | done _ => true
  | waiting | counted _ => false

/-- The count that the check was given, zero as long as it has none. -/
def count : Progress → Nat
  | counted n => n
  | done (.ok w) => w.count
  | waiting | done (.error _) => 0

/-- The request goes on to the handler. -/
def letsThrough : Progress → Bool
  | done (.ok w) => !w.exceeded
  | done (.error _) => true
  | waiting | counted _ => false

end Progress

/-- The check of a request that a limiter counts against a key. -/
def Limiter.checkFor {ω : Type} (l : Limiter ω) (r : Request) (key : String) : Check :=
  ⟨key, l.capFor r, l.window, l.deadline⟩

namespace Check

variable {ω : Type}

/-- One call of the store, at the time that the clock shows by then. -/
def step (store : Store ω) (c : Check) (clock : Clock) : Progress → ω → Progress × ω
  | .waiting, s =>
      let (reply, s) := store.increment clock c.key c.window s
      match Store.settle c.deadline reply with
      | .error e => (.done (.error e), s)
      | .ok count => (.counted count, s)
  | .counted count, s =>
      let (reply, s) := store.ttl clock c.key s
      match Store.settle c.deadline reply with
      | .error _ => (.done (.ok (Window.counted clock count c.cap c.window)), s)
      | .ok ttl => (.done (.ok (Window.counted clock count c.cap ttl)), s)
  | .done result, s => (.done result, s)

variable (store : Store ω) (c : Check) (w : World ω)

/-- Two steps with nothing in between are a check. -/
theorem step_step :
    let first := c.step store w.clock .waiting w.outside
    let result := check store c.deadline c.key c.cap c.window w
    c.step store w.clock first.1 first.2 = (.done result.1, result.2.outside) := by
  simp only [check, step, Act.bind_apply, Act.get_apply, Act.ask_apply]
  cases Store.settle c.deadline (store.increment w.clock c.key c.window w.outside).1 with
  | error e => rfl
  | ok count =>
      simp only [Act.bind_apply, Act.ask_apply]
      cases Store.settle c.deadline
          (store.ttl w.clock c.key (store.increment w.clock c.key c.window w.outside).2).1 with
      | error e => rfl
      | ok ttl => rfl

/-- What two steps in a row come to decides whether the request reaches the
handler. -/
theorem gate_runs_iff (l : Limiter ω) (r : Request) (key : String) :
    let c := l.checkFor r key
    let first := c.step store w.clock .waiting w.outside
    (l.gate store key).Runs r w ↔
      (c.step store w.clock first.1 first.2).1.letsThrough = true := by
  intro c first
  rw [step_step store c w]
  show (l.gate store key).Runs r w ↔
    (Progress.done (check store l.deadline key (l.capFor r) l.window w).1).letsThrough = true
  rcases hc : check store l.deadline key (l.capFor r) l.window w with ⟨_ | win, inner⟩
  · exact iff_of_true (l.gate_of_error r w hc).runs rfl
  · rw [l.gate_runs_iff r w hc]
    simp [Progress.letsThrough, Window.exceeded]

end Check

/-! ### Traffic -/

/-- Checks on their way, and the memory that they share. -/
structure Traffic (ι : Type) where
  clock : Clock
  memory : Memory
  stage : ι → Progress

/-- What happens next: a check takes a step, time passes, or the memory is purged. -/
inductive Move (ι : Type) where
  | step (i : ι)
  | advance (s : Span)
  | purge
  deriving DecidableEq, Repr

/-- Checks that all wait, and an empty memory. -/
def Traffic.initial {ι : Type} (clock : Clock) (capacity : Nat) : Traffic ι :=
  ⟨clock, Memory.empty capacity, fun _ => .waiting⟩

section Traffic

variable {ι : Type} [DecidableEq ι] (checks : ι → Check)

/-- One check comes to another stage. -/
def Traffic.put (t : Traffic ι) (i : ι) (stage : Progress) : Traffic ι :=
  { t with stage := Function.update t.stage i stage }

namespace Move

/-- The key of the check that takes a step. -/
def key? : Move ι → Option String
  | step i => some (checks i).key
  | advance _ | purge => none

def apply (t : Traffic ι) : Move ι → Traffic ι
  | step i =>
      let (stage, memory) := (checks i).step Memory.store t.clock (t.stage i) t.memory
      { t with memory }.put i stage
  | advance s => { t with clock := t.clock.advance s }
  | purge => { t with memory := t.memory.purge t.clock.now }

/-- The check that is counted against a key, with the clock. -/
def counts (key : String) (t : Traffic ι) : Move ι → List (ι × Clock)
  | step i => if (checks i).key = key ∧ (t.stage i).isWaiting then [(i, t.clock)] else []
  | advance _ | purge => []

end Move

def Traffic.run (t : Traffic ι) (moves : List (Move ι)) : Traffic ι :=
  moves.foldl (Move.apply checks) t

/-- The checks that are counted against a key, in the order of their first steps. -/
def Traffic.log (key : String) : Traffic ι → List (Move ι) → List (ι × Clock)
  | _, [] => []
  | t, m :: rest => m.counts checks key t ++ log key (m.apply checks t) rest

variable {checks} {t : Traffic ι} {i j : ι} {stage : Progress}

@[simp] theorem Traffic.stage_put : (t.put i stage).stage i = stage :=
  Function.update_self ..

theorem Traffic.stage_put_of_ne (ne : j ≠ i) : (t.put i stage).stage j = t.stage j :=
  Function.update_of_ne ne ..

namespace Move

/-- The first step of a check counts its key. -/
theorem apply_of_waiting (waits : t.stage i = .waiting) :
    let counted := t.memory.increment t.clock.now (checks i).key (checks i).window
    (step i).apply checks t = { t with memory := counted.2 }.put i (.counted counted.1) := by
  simp only [apply, waits]
  rfl

/-- The second step reads what is left of the window that is open by then. -/
theorem apply_of_counted {n : Nat} (counted : t.stage i = .counted n) :
    (step i).apply checks t =
      t.put i (.done (.ok (Window.counted t.clock n (checks i).cap
        (t.memory.ttl t.clock.now (checks i).key)))) := by
  simp only [apply, counted]
  rfl

/-- A check that is done takes no more steps. -/
theorem apply_of_done {result : Except StoreFault Window} (done : t.stage i = .done result) :
    (step i).apply checks t = t := by
  simp only [apply, done, Check.step]
  rw [← done]
  exact congrArg (Traffic.mk t.clock t.memory) (Function.update_eq_self i t.stage)

end Move

end Traffic

/-! ### The checks of a key -/

/-- What holds of the checks of one key: those that were counted are in the log,
each once and with the number of its place in a window; the memory shows the last
of these windows; and those that are done know of no more than a window's length. -/
structure Accounts {ι : Type} (checks : ι → Check) (key : String) (window : Span)
    (keys : List String) (log : List (ι × Clock)) (t : Traffic ι) : Prop where
  roomy : t.memory.Roomy keys
  shown : Shows window t.clock.now (t.memory.find? key)
    (Period.after window none (log.map Prod.snd))
  soon : ∀ e, t.memory.find? key = some e → e.expiresAt ≤ t.clock.now + window
  numbered : Numbered Prod.snd (fun v : ι × Clock => (t.stage v.1).count) window none log
  nodup : (log.map Prod.fst).Nodup
  logged : ∀ i, i ∈ log.map Prod.fst ↔ (checks i).key = key ∧ (t.stage i).isWaiting = false
  results : ∀ i result, (checks i).key = key → t.stage i = .done result →
    ∃ win, result = .ok win ∧ win.cap = (checks i).cap ∧ win.ttl ≤ window

section Accounts

variable {ι : Type} {checks : ι → Check} {key : String} {window : Span} {keys : List String}
  {log : List (ι × Clock)} {t : Traffic ι} {i : ι}

theorem accounts_initial {capacity : Nat} (room : keys.dedup.length ≤ max 1 capacity)
    (clock : Clock) :
    Accounts checks key window keys [] (Traffic.initial clock capacity) where
  roomy := Memory.roomy_empty room
  shown := trivial
  soon _ found := nomatch found
  numbered := trivial
  nodup := .nil
  logged i := by simp [Traffic.initial, Progress.isWaiting]
  results i result _ done := nomatch done

theorem Accounts.advance (h : Accounts checks key window keys log t) (s : Span) :
    Accounts checks key window keys log { t with clock := t.clock.advance s } where
  roomy := h.roomy
  shown := h.shown.mono (Nat.le_add_right ..)
  soon e found :=
    Nat.le_trans (h.soon e found) (Nat.add_le_add_right (Nat.le_add_right ..) window)
  numbered := h.numbered
  nodup := h.nodup
  logged := h.logged
  results := h.results

theorem Accounts.purge (h : Accounts checks key window keys log t) :
    Accounts checks key window keys log
      { t with memory := t.memory.purge t.clock.now } where
  roomy := h.roomy.purge _
  shown := by
    rw [Memory.find?_purge h.roomy.wellKeyed]
    exact h.shown.filter
  soon e found := by
    rw [Memory.find?_purge h.roomy.wellKeyed, Memory.live?_eq_some_iff] at found
    exact h.soon e found.1
  numbered := h.numbered
  nodup := h.nodup
  logged := h.logged
  results := h.results

/-- Another key has another entry. -/
theorem Accounts.putEntry_of_ne (h : Accounts checks key window keys log t) {other : String}
    (mem : other ∈ keys) (ne : key ≠ other) (e : Entry) :
    Accounts checks key window keys log { t with memory := t.memory.put other e } where
  roomy := h.roomy.put mem e
  shown := by
    rw [Memory.find?_put, if_neg ne]
    exact h.shown
  soon := by
    rw [Memory.find?_put, if_neg ne]
    exact h.soon
  numbered := h.numbered
  nodup := h.nodup
  logged := h.logged
  results := h.results

/-- A check that is done is let through when its number is within its cap. -/
theorem Accounts.letsThrough_eq (h : Accounts checks key window keys log t)
    (mine : (checks i).key = key) (done : (t.stage i).isDone = true) :
    (t.stage i).letsThrough = decide ((t.stage i).count ≤ (checks i).cap) := by
  cases stage : t.stage i with
  | waiting => simp [stage, Progress.isDone] at done
  | counted n => simp [stage, Progress.isDone] at done
  | done result =>
      obtain ⟨win, rfl, cap, -⟩ := h.results i result mine stage
      simp only [Progress.letsThrough, Progress.count, Window.exceeded, ← cap]
      by_cases past : win.cap < win.count
      · simp [past]
      · simp [past, Nat.le_of_not_lt past]

/-- A cap lets through the first checks of a window, when all of them are done. -/
theorem Accounts.countP_letsThrough (h : Accounts checks key window keys log t)
    {g : List (ι × Clock)} (sub : g ⊆ log)
    (numbers : (g.map fun v => (t.stage v.1).count) = List.range' 1 g.length) {cap : Nat}
    (done : ∀ v ∈ g, (checks v.1).cap = cap ∧ (t.stage v.1).isDone = true) :
    g.countP (fun v => (t.stage v.1).letsThrough) = min g.length cap := by
  rw [← countP_number_le numbers cap]
  refine List.countP_congr fun v hv => ?_
  have mine := ((h.logged v.1).mp (List.mem_map_of_mem (sub hv))).1
  rw [h.letsThrough_eq mine (done v hv).2, (done v hv).1]

variable [DecidableEq ι]

/-- A check of another key is in no log of this one, whatever its stage. -/
theorem Accounts.put_of_ne (h : Accounts checks key window keys log t)
    (other : (checks i).key ≠ key) (stage : Progress) :
    Accounts checks key window keys log (t.put i stage) where
  roomy := h.roomy
  shown := h.shown
  soon := h.soon
  numbered := by
    refine h.numbered.congr fun v hv => ?_
    have mine := ((h.logged v.1).mp (List.mem_map_of_mem hv)).1
    have ne : v.1 ≠ i := fun same => other (same ▸ mine)
    rw [Traffic.stage_put_of_ne ne]
  nodup := h.nodup
  logged j := by
    by_cases same : j = i
    · subst same
      have absent : j ∉ log.map Prod.fst := fun there => other ((h.logged j).mp there).1
      exact iff_of_false absent fun both => other both.1
    · rw [Traffic.stage_put_of_ne same]
      exact h.logged j
  results j result mine done := by
    have ne : j ≠ i := fun same => other (same ▸ mine)
    rw [Traffic.stage_put_of_ne ne] at done
    exact h.results j result mine done

/-- A counted check that is done keeps its number. -/
theorem Accounts.put_done (h : Accounts checks key window keys log t) {n : Nat}
    (counted : t.stage i = .counted n) {win : Window} (count : win.count = n)
    (cap : win.cap = (checks i).cap) (ttl : win.ttl ≤ window) :
    Accounts checks key window keys log (t.put i (.done (.ok win))) where
  roomy := h.roomy
  shown := h.shown
  soon := h.soon
  numbered := by
    refine h.numbered.congr fun v _ => ?_
    by_cases same : v.1 = i
    · rw [same, Traffic.stage_put, counted]
      exact count
    · rw [Traffic.stage_put_of_ne same]
  nodup := h.nodup
  logged j := by
    by_cases same : j = i
    · rw [h.logged, same, Traffic.stage_put, counted]
      rfl
    · rw [Traffic.stage_put_of_ne same]
      exact h.logged j
  results j result mine done := by
    by_cases same : j = i
    · rw [same, Traffic.stage_put] at done
      cases done
      exact ⟨win, rfl, same ▸ cap, ttl⟩
    · rw [Traffic.stage_put_of_ne same] at done
      exact h.results j result mine done

/-- A check that waits is given the next number of its window. -/
theorem Accounts.count (h : Accounts checks key window keys log t) (waits : t.stage i = .waiting)
    (mine : (checks i).key = key) (mem : key ∈ keys) :
    let e := Entry.next t.clock.now window (t.memory.live? t.clock.now key)
    Accounts checks key window keys (log ++ [(i, t.clock)])
      ({ t with memory := t.memory.put key e }.put i (.counted e.count)) := by
  intro e
  have absent : i ∉ log.map Prod.fst := by
    intro there
    have past := ((h.logged i).mp there).2
    rw [waits] at past
    cases past
  have ne : ∀ v ∈ log, v.1 ≠ i := fun v hv same => absent (same ▸ List.mem_map_of_mem hv)
  obtain ⟨count, ends⟩ := h.shown.arrive
  constructor
  case roomy => exact h.roomy.put mem e
  case shown =>
    show Shows window t.clock.now ((t.memory.put key e).find? key) _
    rw [Memory.find?_put, if_pos rfl, List.map_append, List.map_singleton, Period.after_snoc]
    exact ⟨count, ends⟩
  case soon =>
    show ∀ e', (t.memory.put key e).find? key = some e' → e'.expiresAt ≤ t.clock.now + window
    rw [Memory.find?_put, if_pos rfl]
    rintro _ ⟨⟩
    exact Memory.expiresAt_next_le h.soon
  case numbered =>
    refine numbered_snoc (h.numbered.congr fun v hv => ?_) ?_
    · rw [Traffic.stage_put_of_ne (ne v hv)]
    · rw [Traffic.stage_put]
      exact count
  case nodup =>
    rw [List.map_append, List.map_singleton, List.nodup_append]
    refine ⟨h.nodup, List.nodup_singleton i, ?_⟩
    rintro j there _ last rfl
    obtain rfl : j = i := List.mem_singleton.mp last
    exact absent there
  case logged =>
    intro j
    rw [List.map_append, List.map_singleton, List.mem_append, List.mem_singleton]
    by_cases same : j = i
    · subst same
      simp [mine, Progress.isWaiting]
    · rw [Traffic.stage_put_of_ne same, or_iff_left same]
      exact h.logged j
  case results =>
    intro j result mine' done
    by_cases same : j = i
    · rw [same, Traffic.stage_put] at done
      cases done
    · rw [Traffic.stage_put_of_ne same] at done
      exact h.results j result mine' done

/-- **One move keeps the accounts of a key**, when all its checks have windows of the
same length. -/
theorem Accounts.apply (h : Accounts checks key window keys log t)
    (same : ∀ i, (checks i).key = key → (checks i).window = window) (m : Move ι)
    (mem : ∀ k, m.key? checks = some k → k ∈ keys) :
    Accounts checks key window keys (log ++ m.counts checks key t) (m.apply checks t) := by
  cases m with
  | advance s =>
      rw [Move.counts, List.append_nil]
      exact h.advance s
  | purge =>
      rw [Move.counts, List.append_nil]
      exact h.purge
  | step i =>
      have known := mem _ rfl
      have fits := h.roomy.isFullFor known
      cases stage : t.stage i with
      | waiting =>
          rw [Move.apply_of_waiting stage, Memory.increment_eq_put fits]
          by_cases mine : (checks i).key = key
          · have counts := h.count stage mine (mine ▸ known)
            simpa [Move.counts, Progress.isWaiting, stage, mine, same i mine] using counts
          · simpa [Move.counts, mine] using
              (h.putEntry_of_ne known (Ne.symm mine) _).put_of_ne mine _
      | counted n =>
          rw [Move.apply_of_counted stage]
          simp only [Move.counts, stage, Progress.isWaiting, Bool.false_eq_true, and_false,
            if_false, List.append_nil]
          by_cases mine : (checks i).key = key
          · exact h.put_done stage rfl rfl (mine ▸ Memory.ttl_le h.soon)
          · exact h.put_of_ne mine _
      | done result =>
          rw [Move.apply_of_done stage]
          simpa [Move.counts, stage, Progress.isWaiting] using h

/-- A run keeps the accounts of a key. -/
theorem Accounts.run (h : Accounts checks key window keys log t)
    (same : ∀ i, (checks i).key = key → (checks i).window = window) (moves : List (Move ι))
    (mem : ∀ m ∈ moves, ∀ k, m.key? checks = some k → k ∈ keys) :
    Accounts checks key window keys (log ++ t.log checks key moves) (t.run checks moves) := by
  induction moves generalizing log t with
  | nil =>
      rw [Traffic.log, List.append_nil]
      exact h
  | cons m rest ih =>
      have next := h.apply same m (mem m List.mem_cons_self)
      have run := ih next fun m' hm' => mem m' (List.mem_cons_of_mem _ hm')
      rwa [List.append_assoc] at run

end Accounts

/-- **Checks in flight are counted one by one, and none waits longer than a window.**
However the steps of any checks fall between each other, advances of the clock and
purges, in a memory with room for all their keys: the checks that were counted against
a key are each counted once; in a window they have the numbers from one on in the order
of their first steps, and as many as the cap allows are let through; and a check that is
not is told to wait for a second at least and for a window at most, whatever happened to
its own one before it asked. -/
theorem counts_in_step_order {ι : Type} [DecidableEq ι] (checks : ι → Check) {key : String}
    {window : Span} (same : ∀ i, (checks i).key = key → (checks i).window = window)
    (clock : Clock) {capacity : Nat} (moves : List (Move ι))
    (room : (moves.filterMap (Move.key? checks)).dedup.length ≤ max 1 capacity) :
    let start := Traffic.initial clock capacity
    let log := start.log checks key moves
    let t := start.run checks moves
    ((log.map Prod.fst).Nodup ∧
        ∀ i, i ∈ log.map Prod.fst ↔ (checks i).key = key ∧ (t.stage i).isWaiting = false) ∧
      (∀ g ∈ windows (fun v : ι × Clock => v.2.now) window log,
        (g.map fun v => (t.stage v.1).count) = List.range' 1 g.length ∧
          ∀ cap, (∀ v ∈ g, (checks v.1).cap = cap ∧ (t.stage v.1).isDone = true) →
            g.countP (fun v => (t.stage v.1).letsThrough) = min g.length cap) ∧
      ∀ i, (checks i).key = key → (t.stage i).isDone = true → (t.stage i).letsThrough = false →
        ∃ win n, t.stage i = .done (.ok win) ∧ 1 ≤ n ∧ n ≤ max 1 (Span.ceilSeconds window) ∧
          ∀ {ω : Type} (l : Limiter ω) (r : Request),
            (l.reject r win).headers.getAll retryHeader = [Window.numeral n] := by
  intro start log t
  have mem : ∀ m ∈ moves, ∀ k, m.key? checks = some k →
      k ∈ moves.filterMap (Move.key? checks) :=
    fun m hm k hk => List.mem_filterMap.mpr ⟨m, hm, hk⟩
  have accounts : Accounts checks key window _ log t :=
    (accounts_initial room clock).run same moves mem
  refine ⟨⟨accounts.nodup, accounts.logged⟩, ?_, ?_⟩
  · intro g group
    have numbers := map_number_of_mem_windows accounts.numbered group
    have sub : g ⊆ log := by
      intro v hv
      rw [← flatten_windows (fun v : ι × Clock => v.2.now) window log]
      exact List.mem_flatten.mpr ⟨g, group, hv⟩
    exact ⟨numbers, fun cap done => accounts.countP_letsThrough sub numbers done⟩
  · intro i mine done stopped
    cases stage : t.stage i with
    | waiting => simp [stage, Progress.isDone] at done
    | counted n => simp [stage, Progress.isDone] at done
    | done result =>
        obtain ⟨win, rfl, -, ttl⟩ := accounts.results i result mine stage
        refine ⟨win, win.retryAfter, rfl, win.one_le_retryAfter, Window.retryAfter_le ttl, ?_⟩
        exact fun l r => (win.getAll_tellRejected _).2.2.2

/-- Three checks in a window that lets one through, and a fourth. -/
def fourChecks : Fin 4 → Check :=
  fun _ => ⟨"key", 1, Span.seconds 10, defaultDeadline⟩

/-- The window ends before the third check asks for the rest of it, and the fourth
opens another one before the second asks. -/
def acrossAnEnd : List (Move (Fin 4)) :=
  [.step 0, .step 1, .step 2, .advance (Span.seconds 10), .step 2, .step 3, .step 1, .step 0,
    .step 3]

/-- Of the two checks that are stopped, one finds its window ended and the other finds
another one that has just begun. -/
theorem stopped_across_an_end :
    let start := Traffic.initial ⟨0, 0⟩ 1
    let log := start.log fourChecks "key" acrossAnEnd
    let t := start.run fourChecks acrossAnEnd
    (t.stage 2 = .done (.ok ⟨3, 1, 0, 10⟩) ∧ t.stage 1 = .done (.ok ⟨2, 1, Span.seconds 10, 20⟩)) ∧
      (∀ g ∈ windows (fun v : Fin 4 × Clock => v.2.now) (Span.seconds 10) log,
        g.countP (fun v => (t.stage v.1).letsThrough) = min g.length 1) ∧
      ∃ win n, t.stage 1 = .done (.ok win) ∧ 1 ≤ n ∧ n ≤ 10 ∧
        ∀ {ω : Type} (l : Limiter ω) (r : Request),
          (l.reject r win).headers.getAll retryHeader = [Window.numeral n] := by
  have same : ∀ i, (fourChecks i).key = "key" → (fourChecks i).window = Span.seconds 10 :=
    fun _ _ => rfl
  have room : (acrossAnEnd.filterMap (Move.key? fourChecks)).dedup.length ≤ max 1 1 := by decide
  have done : ∀ i, (((Traffic.initial ⟨0, 0⟩ 1).run fourChecks acrossAnEnd).stage i).isDone :=
    by decide
  obtain ⟨-, numbers, told⟩ := counts_in_step_order fourChecks same ⟨0, 0⟩ acrossAnEnd room
  refine ⟨⟨by decide, by decide⟩, fun g group => ?_, ?_⟩
  · exact (numbers g group).2 1 fun v _ => ⟨rfl, done v.1⟩
  · exact told 1 rfl (done 1) (by decide)

end Gatehouse.Limit
