import Gatehouse.Proofs.Layer

/-!
A limiter of workspaces is a limiter.

What it does to a request is what a limiter does that counts by the workspace of
the request and takes the limit of that workspace (`WorkspaceLimiter.guard_eq`).
So whatever holds of limiters holds of it.
-/

namespace Gatehouse.Limit.WorkspaceLimiter

open Http

variable {ω : Type}

/-- The limiter that counts by workspaces. -/
def asLimiter (l : WorkspaceLimiter ω) : Limiter ω where
  limit := l.limit
  window := l.window
  key := .custom fun r => r.context.workspace.map keyOf
  limitOf := some fun r => (r.context.workspace.map l.limitFor).getD l.limit
  store := l.store
  message := workspaceMessage
  deadline := l.deadline
  name := "workspace"
  metered := l.metered

variable (l : WorkspaceLimiter ω) {r : Request} {id : Uuid}

theorem keyOf_isEmpty (id : Uuid) : (keyOf id).isEmpty = false := by
  have filled : keyOf id ≠ "" := by
    intro empty
    have chars := congrArg String.toList empty
    simp [keyOf, String.toList_append] at chars
  simpa using filled

theorem keyFor_asLimiter (h : r.context.workspace = some id) :
    l.asLimiter.keyFor r = some (keyOf id) := by
  simp [Limiter.keyFor, asLimiter, KeyRule.key?, h, Option.filter_some, keyOf_isEmpty]

theorem keyFor_asLimiter_of_none (h : r.context.workspace = none) :
    l.asLimiter.keyFor r = none := by
  simp [Limiter.keyFor, asLimiter, KeyRule.key?, h]

theorem capFor_asLimiter (h : r.context.workspace = some id) :
    l.asLimiter.capFor r = l.limitFor id := by
  simp [Limiter.capFor, asLimiter, capped, h]

theorem guard_eq : l.guard = l.asLimiter.guard := by
  funext next r w
  cases hw : r.context.workspace with
  | none => simp [guard, Limiter.guard, hw, l.keyFor_asLimiter_of_none hw]
  | some id =>
      have store : l.asLimiter.store = l.store := rfl
      rw [guard, Limiter.guard, hw, l.keyFor_asLimiter hw, store]
      cases l.store with
      | none => rfl
      | some store =>
          simp only [gate, Limiter.gate, l.capFor_asLimiter hw]
          rfl

end Gatehouse.Limit.WorkspaceLimiter
