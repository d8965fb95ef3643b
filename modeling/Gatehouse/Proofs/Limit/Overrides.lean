import Gatehouse.Proofs.Assoc
import Gatehouse.Proofs.Limit.Workspace

/-!
Limits of single workspaces, set and removed again.

A limiter of workspaces goes through changes of its limits, and the last change of a
workspace decides (`WorkspaceLimiter.limitFor_after`). Nothing else of the limiter
changes (`WorkspaceLimiter.after_eq`). What a store is called for can be traced, as
the trace stands beside the state of the store and is never looked at
(`Store.traced`).

* `calls_of_gate`: a counted request is an increment, then a question for the rest of
  the window if the increment was answered.
* `WorkspaceLimiter.changes_leave_a_limiter`: after any changes a limiter of
  workspaces is a limiter by the key and the limit of the workspace, in what it
  answers, in its calls of the store and in what it counts.
-/

namespace Gatehouse

open Http

variable {ω : Type}

/-! ### Calls of a store -/

/-- A call of a store, and when it was made. -/
inductive Store.TimedCall where
  | increment (clock : Clock) (key : String) (window : Span)
  | count (clock : Clock) (key : String)
  | ttl (clock : Clock) (key : String)
  deriving DecidableEq, Repr

/-- A store that traces what it is called for, in order. -/
def Store.traced (s : Store ω) : Store (List TimedCall × ω) where
  increment clock key window w :=
    let (reply, o) := s.increment clock key window w.2
    (reply, w.1 ++ [.increment clock key window], o)
  count clock key w :=
    let (reply, o) := s.count clock key w.2
    (reply, w.1 ++ [.count clock key], o)
  ttl clock key w :=
    let (reply, o) := s.ttl clock key w.2
    (reply, w.1 ++ [.ttl clock key], o)

namespace Limit

open Store (TimedCall)

def Limiter.traced (l : Limiter ω) : Limiter (List TimedCall × ω) where
  limit := l.limit
  window := l.window
  burst := l.burst
  skipPaths := l.skipPaths
  key := l.key
  onExceed := l.onExceed
  limitOf := l.limitOf
  store := l.store.map Store.traced
  message := l.message
  deadline := l.deadline
  name := l.name
  metered := l.metered

def WorkspaceLimiter.traced (l : WorkspaceLimiter ω) : WorkspaceLimiter (List TimedCall × ω) where
  store := l.store.map Store.traced
  limit := l.limit
  window := l.window
  overrides := l.overrides
  deadline := l.deadline
  metered := l.metered

/-- The calls that the check of a request makes: whether it asks for the rest of the window
depends on the reply to the increment. -/
def callsFor (clock : Clock) (key : String) (window : Span) : Reply String Nat → List TimedCall
  | .ready _ => [.increment clock key window, .ttl clock key]
  | _ => [.increment clock key window]

theorem calls_of_check (store : Store ω) (deadline : Span) (key : String) (cap : Nat)
    (window : Span) (w : World (List TimedCall × ω)) :
    (check store.traced deadline key cap window w).2.outside.1 =
      w.outside.1 ++
        callsFor w.clock key window (store.increment w.clock key window w.outside.2).1 := by
  rcases counted : store.increment w.clock key window w.outside.2 with ⟨reply, o⟩
  cases reply with
  | ready n =>
      rcases asked : store.ttl w.clock key o with ⟨left, o'⟩
      cases left <;> simp [check, Store.traced, Store.settle, counted, asked, callsFor]
  | failed reason => simp [check, Store.traced, Store.settle, counted, callsFor]
  | stalled => simp [check, Store.traced, Store.settle, counted, callsFor]

/-- What a limiter that counts a request calls its store for, and that before the handler
runs, if it does. -/
theorem calls_of_gate (l : Limiter (List TimedCall × ω)) (store : Store ω) (key : String)
    (r : Request)
    (w : World (List TimedCall × ω)) :
    let calls := w.outside.1 ++
      callsFor w.clock key l.window (store.increment w.clock key l.window w.outside.2).1
    (∃ inner f, (l.gate store.traced key).Forwards r w r inner f ∧ inner.outside.1 = calls) ∨
      ∃ response after, (l.gate store.traced key).Answers r w response after ∧
        after.outside.1 = calls := by
  have made := calls_of_check store l.deadline key (l.capFor r) l.window w
  have noted : ∀ (f : Metrics → Metrics) (v : World (List TimedCall × ω)),
      (Act.record l.metered f v).2.outside = v.outside := by
    intro f v
    rw [Act.record_apply]
    split <;> rfl
  rcases checked : check store.traced l.deadline key (l.capFor r) l.window w with ⟨_ | win, inner⟩
  · rw [checked] at made
    exact .inl ⟨_, _, l.gate_of_error r w checked, by rw [noted, made]⟩
  · rw [checked] at made
    by_cases past : win.cap < win.count
    · exact .inr ⟨_, _, l.gate_of_past r w checked past, by rw [noted, made]⟩
    · exact .inl ⟨_, _, l.gate_of_within r w checked (Nat.le_of_not_lt past), made⟩

/-! ### Changes of limits -/

namespace WorkspaceLimiter

/-- A change of the limits of single workspaces. -/
inductive Change where
  | set (id : Uuid) (limit : Nat)
  | remove (id : Uuid)
  deriving DecidableEq, Repr

namespace Change

def apply (l : WorkspaceLimiter ω) : Change → WorkspaceLimiter ω
  | set id limit => l.setLimit id limit
  | remove id => l.removeLimit id

/-- What a change says of a workspace: nothing, its own limit, or that it has none. -/
def says? (id : Uuid) : Change → Option (Option Nat)
  | set own limit => if id = own then some (some limit) else none
  | remove own => if id = own then some none else none

end Change

/-- The limiter after changes, one after another. -/
def after (l : WorkspaceLimiter ω) (changes : List Change) : WorkspaceLimiter ω :=
  changes.foldl Change.apply l

variable (l : WorkspaceLimiter ω) (id : Uuid)

theorem limitFor_apply (change : Change) :
    (change.apply l).limitFor id =
      match change.says? id with
      | none => l.limitFor id
      | some own => own.getD l.limit := by
  cases change with
  | set own limit =>
      rw [Change.apply, limitFor, setLimit, Assoc.lookup_put, Change.says?]
      by_cases same : id = own <;> simp [same, limitFor]
  | remove own =>
      rw [Change.apply, limitFor, removeLimit, Assoc.lookup_erase, Change.says?]
      by_cases same : id = own <;> simp [same, limitFor]

theorem apply_eq (change : Change) :
    change.apply l = { l with overrides := (change.apply l).overrides } := by
  cases change <;> rfl

/-- Changes touch nothing but the limits of single workspaces. -/
theorem after_eq (changes : List Change) :
    l.after changes = { l with overrides := (l.after changes).overrides } := by
  induction changes generalizing l with
  | nil => rfl
  | cons change changes ih =>
      rw [after, List.foldl_cons, ← after, ih, apply_eq]

/-- The last change of a workspace decides on its limit. -/
theorem limitFor_after (changes : List Change) :
    (l.after changes).limitFor id =
      match (changes.filterMap (Change.says? id)).getLast? with
      | none => l.limitFor id
      | some own => own.getD l.limit := by
  induction changes generalizing l with
  | nil => rfl
  | cons change changes ih =>
      have same : (change.apply l).limit = l.limit := by rw [apply_eq]
      rw [after, List.foldl_cons, ← after, ih, limitFor_apply, List.filterMap_cons, same]
      cases change.says? id with
      | none => rfl
      | some own =>
          rw [List.getLast?_cons]
          cases (changes.filterMap (Change.says? id)).getLast? <;> rfl

theorem guard_traced : l.traced.guard = l.asLimiter.traced.guard :=
  l.traced.guard_eq

/-- **A limiter of workspaces is a limiter by the workspace, whatever limits were set and
removed.** It answers like a limiter with the key of the workspace, if the request has one, the
limit of the workspace, no burst, no paths to skip, its own message and the name of workspaces;
it leaves the same world, metrics included; and it makes the same calls of the store in the same
order. The limit of a workspace is the one that was set last, unless it was removed since. -/
theorem changes_leave_a_limiter (store : Option (Store ω)) (limit : Nat) (window deadline : Span)
    (metered : Bool) (changes : List Change) :
    let fresh : WorkspaceLimiter ω := { store, limit, window, deadline, metered }
    let l := fresh.after changes
    let byWorkspace : Limiter ω :=
      { limit, window, burst := 0, skipPaths := [], onExceed := none,
        key := .custom fun r => r.context.workspace.map fun id => "ws:" ++ id.write,
        limitOf := some fun r => (r.context.workspace.map l.limitFor).getD limit,
        store, message := workspaceMessage, deadline, name := "workspace", metered }
    (∀ next r w, l.guard next r w = byWorkspace.guard next r w) ∧
      (∀ next r w, l.traced.guard next r w = byWorkspace.traced.guard next r w) ∧
      ∀ id, l.limitFor id =
        match (changes.filterMap (Change.says? id)).getLast? with
        | some (some own) => own
        | _ => limit := by
  intro fresh l byWorkspace
  have rule : byWorkspace = l.asLimiter := by
    simp only [byWorkspace, l]
    rw [fresh.after_eq changes]
    rfl
  refine ⟨fun next r w => ?_, fun next r w => ?_, fun id => ?_⟩
  · rw [rule, l.guard_eq]
  · rw [rule, l.guard_traced]
  · rw [fresh.limitFor_after id changes]
    rcases (changes.filterMap (Change.says? id)).getLast? with _ | _ | own <;> rfl

end WorkspaceLimiter

end Limit

end Gatehouse
