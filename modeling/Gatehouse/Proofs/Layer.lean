import Gatehouse.Limit.Workspace
import Gatehouse.Proofs.Limit.Headers

/-!
Layers, told apart by what they do with the handler that they stand around.

On a given request in a given world a layer either runs its handler exactly once
(`Layer.Forwards`) or answers without it (`Layer.Answers`). Both are statements
about every handler, so nothing is assumed of the one that is in use, and they
exclude each other. `Limiter.settles` sorts a limiter into these two, with what its
store replied; `Limiter.guard_marks` says what it leaves alone of a response, and
`Limiter.spares_guard` what it leaves alone of the metrics.
-/

namespace Gatehouse

open Http

/-- The world at the epoch, when nothing was counted or drawn. -/
def World.fresh {ω : Type} (outside : ω) : World ω :=
  ⟨⟨0, 0⟩, {}, fun n => Vector.replicate 16 (UInt8.ofNat n), 0, outside⟩

namespace Layer

variable {ω : Type} {layer : Layer ω} {r seen : Request} {w inner after : World ω}
  {f : Response → Response} {response : Response}

/-- The layer runs its handler exactly once, on the request `seen` in the world
`inner`, and changes the response by `f`; the world is left as the handler
leaves it. -/
def Forwards (layer : Layer ω) (r : Request) (w : World ω) (seen : Request) (inner : World ω)
    (f : Response → Response) : Prop :=
  ∀ next : Handler ω, layer next r w = (f (next seen inner).1, (next seen inner).2)

/-- The layer gives the response itself and does not run its handler. -/
def Answers (layer : Layer ω) (r : Request) (w : World ω) (response : Response)
    (after : World ω) : Prop :=
  ∀ next : Handler ω, layer next r w = (response, after)

/-- The layer runs its handler exactly once. -/
def Runs (layer : Layer ω) (r : Request) (w : World ω) : Prop :=
  ∃ seen inner f, layer.Forwards r w seen inner f

theorem forwards_id (h : ∀ next, layer next r w = next seen inner) :
    layer.Forwards r w seen inner id := h

theorem Forwards.runs (h : layer.Forwards r w seen inner f) : layer.Runs r w :=
  ⟨seen, inner, f, h⟩

/-- A layer runs its handler in one world only. -/
theorem Forwards.unique {seen' : Request} {inner' : World ω} {f' : Response → Response}
    (h : layer.Forwards r w seen inner f) (h' : layer.Forwards r w seen' inner' f') :
    inner = inner' :=
  congrArg Prod.snd ((h fun _ w => (Response.bare 200, w)).symm.trans (h' fun _ w => (_, w)))

/-- A layer that answers by itself does not run its handler: two handlers that
draw differently would leave two worlds. -/
theorem Answers.not_runs (h : layer.Answers r w response after) : ¬ layer.Runs r w := by
  rintro ⟨seen, inner, f, forwards⟩
  have world : ∀ n : Nat, after = { inner with drawn := n } := by
    intro n
    have answered := h fun _ w => (Response.bare 200, { w with drawn := n })
    have forwarded := forwards fun _ w => (Response.bare 200, { w with drawn := n })
    exact congrArg Prod.snd (answered.symm.trans forwarded)
  have drawn := congrArg World.drawn ((world 0).symm.trans (world 1))
  exact absurd drawn (by simp)

end Layer

/-- Whatever world it is run in, the computation leaves the callbacks that were counted as
they are. -/
def Act.SparesCallbacks {ω α : Type} (x : Act ω α) : Prop :=
  ∀ w, (x w).2.metrics.callbacks = w.metrics.callbacks

namespace Act.SparesCallbacks

variable {ω α β : Type}

theorem pure (a : α) : SparesCallbacks (pure a : Act ω α) :=
  fun _ => rfl

theorem bind {x : Act ω α} {f : α → Act ω β} (first : SparesCallbacks x)
    (rest : ∀ a, SparesCallbacks (f a)) : SparesCallbacks (x >>= f) :=
  fun w => (rest (x w).1 (x w).2).trans (first w)

theorem record (metered : Bool) {f : Metrics → Metrics} (h : ∀ m, (f m).callbacks = m.callbacks) :
    SparesCallbacks (record metered f : Act ω Unit) := by
  intro w
  rw [record_apply]
  split
  · exact h w.metrics
  · rfl

end Act.SparesCallbacks

/-- The change of a response is one of the headers of limiters only. -/
structure Http.Response.Marks (f : Response → Response) : Prop where
  status : ∀ response, (f response).status = response.status
  body : ∀ response, (f response).body = response.body
  headers : ∀ response, ∀ name ∉ Limit.limiterHeaders,
    (f response).headers.getAll name = response.headers.getAll name

open Response (Marks)

theorem Http.Response.Marks.comp {f g : Response → Response} (hf : Marks f) (hg : Marks g) :
    Marks (f ∘ g) where
  status response := (hf.status _).trans (hg.status response)
  body response := (hf.body _).trans (hg.body response)
  headers response name other := (hf.headers _ name other).trans (hg.headers response name other)

namespace Limit

variable {ω : Type}

/-- A check tells of a window if it got the number of the request, and fails
otherwise. -/
theorem check_cases (store : Store ω) (deadline : Span) (key : String) (cap : Nat)
    (window : Span) (w : World ω) :
    (∃ win : Window, (store.increment w.clock key window w.outside).1 = .ready win.count ∧
        win.cap = cap ∧
        check store deadline key cap window w =
          (.ok win, (check store deadline key cap window w).2)) ∨
      ((∀ n, (store.increment w.clock key window w.outside).1 ≠ .ready n) ∧
        ∃ fault, check store deadline key cap window w =
          (.error fault, (check store deadline key cap window w).2)) := by
  rcases counted : store.increment w.clock key window w.outside with ⟨reply, o⟩
  cases reply with
  | ready n =>
      have number : Store.settle deadline (.ready n : Reply String Nat) = .ok n := rfl
      rcases asked : store.ttl w.clock key o with ⟨left, o'⟩
      cases rest : Store.settle deadline left with
      | ok ttl =>
          refine .inl ⟨Window.counted w.clock n cap ttl, rfl, rfl, ?_⟩
          simp [check, counted, number, asked, rest]
      | error fault =>
          refine .inl ⟨Window.counted w.clock n cap window, rfl, rfl, ?_⟩
          simp [check, counted, number, asked, rest]
  | failed reason =>
      refine .inr ⟨fun n => by simp, .transport reason, ?_⟩
      simp [check, Store.settle, counted]
  | stalled =>
      refine .inr ⟨fun n => by simp, .timeout deadline, ?_⟩
      simp [check, Store.settle, counted]

/-- A check touches nothing but the state of the store. -/
theorem check_leaves (store : Store ω) (deadline : Span) (key : String) (cap : Nat)
    (window : Span) (w : World ω) :
    ∃ o, (check store deadline key cap window w).2 = { w with outside := o } := by
  rcases counted : store.increment w.clock key window w.outside with ⟨reply, o⟩
  cases settled : Store.settle deadline reply with
  | error fault => exact ⟨o, by simp [check, counted, settled]⟩
  | ok n =>
      rcases asked : store.ttl w.clock key o with ⟨left, o'⟩
      refine ⟨o', ?_⟩
      cases rest : Store.settle deadline left <;> simp [check, counted, settled, asked, rest]

end Limit

namespace Limit.Limiter

variable {ω : Type} (l : Limiter ω) (r : Request) (w : World ω)

/-- The requests that pass in a window, a burst left out. -/
def baseFor : Nat :=
  match l.limitOf with
  | some f => f r
  | none => l.limit

/-- In the range of 64 bits the cap is the saturating sum of base and burst. -/
theorem capFor_eq_min (h : l.baseFor r ≤ Text.Decimal.max64) :
    l.capFor r = min (l.baseFor r + l.burst) Text.Decimal.max64 := by
  show capped (l.baseFor r) l.burst = _
  unfold capped
  omega

/-- A counted request without an answer of the store passes. -/
theorem gate_of_error {store : Store ω} {key : String} {e : StoreFault} {inner : World ω}
    (h : check store l.deadline key (l.capFor r) l.window w = (.error e, inner)) :
    (l.gate store key).Forwards r w r
      (Act.record l.metered Metrics.recordStoreFault inner).2 id := by
  refine Layer.forwards_id fun next => ?_
  simp [gate, h]

/-- A counted request within the cap passes. -/
theorem gate_of_within {store : Store ω} {key : String} {win : Window} {inner : World ω}
    (h : check store l.deadline key (l.capFor r) l.window w = (.ok win, inner))
    (within : win.count ≤ win.cap) :
    (l.gate store key).Forwards r w r inner (Response.mapHeaders win.tell) := by
  intro next
  have open_ : win.exceeded = false := by simpa [Window.exceeded] using within
  simp [gate, h, open_]

/-- A counted request past the cap is rejected. -/
theorem gate_of_past {store : Store ω} {key : String} {win : Window} {inner : World ω}
    (h : check store l.deadline key (l.capFor r) l.window w = (.ok win, inner))
    (past : win.cap < win.count) :
    (l.gate store key).Answers r w (l.reject r win)
      (Act.record l.metered (Metrics.recordRejection l.name) inner).2 := by
  intro next
  have closed : win.exceeded = true := by simpa [Window.exceeded] using past
  simp [gate, h, closed]

/-- A counted request with an answer of the store reaches the handler when it is within
the cap. -/
theorem gate_runs_iff {store : Store ω} {key : String} {win : Window} {inner : World ω}
    (h : check store l.deadline key (l.capFor r) l.window w = (.ok win, inner)) :
    (l.gate store key).Runs r w ↔ win.count ≤ win.cap := by
  by_cases within : win.count ≤ win.cap
  · exact iff_of_true (l.gate_of_within r w h within).runs within
  · exact iff_of_false (l.gate_of_past r w h (Nat.lt_of_not_le within)).not_runs within

theorem guard_of_counted {store : Store ω} {key : String} (has : l.store = some store)
    (counted : l.keyFor r = some key) (next : Handler ω) :
    l.guard next r w = l.gate store key next r w := by
  simp [guard, has, counted]

theorem guard_runs_iff {store : Store ω} {key : String} (has : l.store = some store)
    (counted : l.keyFor r = some key) : l.guard.Runs r w ↔ (l.gate store key).Runs r w := by
  simp only [Layer.Runs, Layer.Forwards, l.guard_of_counted r w has counted]

theorem guard_of_uncounted (idle : l.store = none ∨ l.keyFor r = none) (next : Handler ω) :
    l.guard next r w = next r w := by
  rcases idle with has | uncounted
  · simp [guard, has]
  · cases has : l.store <;> simp [guard, has, uncounted]

/-- What a limiter makes of a request: it is not counted, its count gets no answer, or it is
within the cap of its window or past it. -/
inductive Settles : Prop
  | idle : l.store = none ∨ l.keyFor r = none → l.guard.Forwards r w r w id → Settles
  | fault {store : Store ω} {key : String} {e : StoreFault} {inner : World ω} :
      l.store = some store → l.keyFor r = some key →
      check store l.deadline key (l.capFor r) l.window w = (.error e, inner) →
      l.guard.Forwards r w r (Act.record l.metered Metrics.recordStoreFault inner).2 id → Settles
  | within {store : Store ω} {key : String} {win : Window} {inner : World ω} :
      l.store = some store → l.keyFor r = some key →
      check store l.deadline key (l.capFor r) l.window w = (.ok win, inner) →
      win.count ≤ win.cap → l.guard.Forwards r w r inner (Response.mapHeaders win.tell) → Settles
  | past {store : Store ω} {key : String} {win : Window} {inner : World ω} :
      l.store = some store → l.keyFor r = some key →
      check store l.deadline key (l.capFor r) l.window w = (.ok win, inner) →
      win.cap < win.count →
      l.guard.Answers r w (l.reject r win)
        (Act.record l.metered (Metrics.recordRejection l.name) inner).2 → Settles

theorem settles : l.Settles r w := by
  cases has : l.store with
  | none => exact .idle (.inl has) (Layer.forwards_id (l.guard_of_uncounted r w (.inl has)))
  | some store =>
      cases keyed : l.keyFor r with
      | none => exact .idle (.inr keyed) (Layer.forwards_id (l.guard_of_uncounted r w (.inr keyed)))
      | some key =>
          have open_ := l.guard_of_counted r w has keyed
          rcases checked : check store l.deadline key (l.capFor r) l.window w with
            ⟨_ | win, inner⟩
          · exact .fault has keyed checked
              fun next => (open_ next).trans (l.gate_of_error r w checked next)
          · by_cases past : win.cap < win.count
            · exact .past has keyed checked past
                fun next => (open_ next).trans (l.gate_of_past r w checked past next)
            · have within := Nat.le_of_not_lt past
              exact .within has keyed checked within
                fun next => (open_ next).trans (l.gate_of_within r w checked within next)

/-- A limiter passes the request as it is, passes it and tells of the window, or
rejects it. -/
theorem guard_cases :
    (∃ inner, l.guard.Forwards r w r inner id) ∨
      (∃ inner win, l.guard.Forwards r w r inner (Response.mapHeaders (Window.tell win))) ∨
      ∃ win after, l.guard.Answers r w (l.reject r win) after := by
  cases l.settles r w with
  | idle _ forwards => exact .inl ⟨_, forwards⟩
  | fault _ _ _ forwards => exact .inl ⟨_, forwards⟩
  | within _ _ _ _ forwards => exact .inr (.inl ⟨_, _, forwards⟩)
  | past _ _ _ _ answers => exact .inr (.inr ⟨_, _, answers⟩)

variable {l r w} in
/-- A limiter draws nothing. -/
theorem draws_guard {seen : Request} {inner : World ω} {f : Response → Response}
    (h : l.guard.Forwards r w seen inner f) : inner.seeds = w.seeds ∧ inner.drawn = w.drawn := by
  have checks {store : Store ω} {key : String} {verdict : Except StoreFault Window}
      {left : World ω} (checked : check store l.deadline key (l.capFor r) l.window w =
        (verdict, left)) : left.seeds = w.seeds ∧ left.drawn = w.drawn := by
    obtain ⟨o, leaves⟩ := check_leaves store l.deadline key (l.capFor r) l.window w
    obtain rfl : left = { w with outside := o } := (congrArg Prod.snd checked).symm.trans leaves
    exact ⟨rfl, rfl⟩
  cases l.settles r w with
  | idle _ forwards => exact h.unique forwards ▸ ⟨rfl, rfl⟩
  | fault _ _ checked forwards =>
      have left := checks checked
      rw [h.unique forwards, Act.record_apply]
      split <;> exact left
  | within _ _ checked _ forwards => exact h.unique forwards ▸ checks checked
  | past _ _ _ _ answers => exact absurd h.runs answers.not_runs

/-- A limiter marks the response of a request that it lets through. -/
theorem guard_marks :
    (∃ inner f, l.guard.Forwards r w r inner f ∧ Marks f) ∨
      ∃ win after, l.guard.Answers r w (l.reject r win) after := by
  rcases l.guard_cases r w with ⟨inner, forwards⟩ | ⟨inner, win, forwards⟩ | rejected
  · exact .inl ⟨inner, id, forwards, fun _ => rfl, fun _ => rfl, fun _ _ _ => rfl⟩
  · exact .inl ⟨inner, _, forwards, fun _ => rfl, fun _ => rfl,
      fun _ _ other => win.getAll_tell_of_not_mem _ other⟩
  · exact .inr rejected

variable {l} in
theorem status_reject (plain : l.onExceed = none) (win : Window) :
    (l.reject r win).status = 429 := by
  rw [reject, plain]
  rfl

/-- What a limiter stands around is all that it depends on, and that on the same
request. -/
theorem guard_congr {next next' : Handler ω} (same : next r = next' r) :
    l.guard next r w = l.guard next' r w := by
  rcases l.guard_cases r w with ⟨_, forwards⟩ | ⟨_, _, forwards⟩ | ⟨_, _, answers⟩
  · rw [forwards next, forwards next', same]
  · rw [forwards next, forwards next', same]
  · rw [answers next, answers next']

theorem spares_check (store : Store ω) (deadline : Span) (key : String) (cap : Nat)
    (window : Span) : Act.SparesCallbacks (check store deadline key cap window) := by
  intro w
  obtain ⟨o, left⟩ := check_leaves store deadline key cap window w
  rw [left]

open Act.SparesCallbacks in
/-- A limiter counts what it rejects and what fails, and no callback. -/
theorem spares_guard {next : Handler ω} (h : Act.SparesCallbacks (next r)) :
    Act.SparesCallbacks (l.guard next r) := by
  unfold guard
  split
  · refine bind (spares_check _ _ _ _ _) fun checked => ?_
    split
    · exact bind (record _ fun _ => rfl) fun _ => h
    · split
      · exact bind (record _ fun _ => rfl) fun _ => pure _
      · exact bind h fun _ => pure _
  · exact h

end Limit.Limiter

end Gatehouse
