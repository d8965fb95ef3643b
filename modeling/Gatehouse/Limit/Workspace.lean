import Gatehouse.Fault
import Gatehouse.Limit.Limiter

/-!
Limits of workspaces.

A request names its workspace in a header or in its path. Every workspace has a
counter of its own, and may have a limit of its own.
-/

namespace Gatehouse.Limit

open Http

/-- The header in which a request may name its workspace. -/
def workspaceHeader : String := "x-workspace-id"

def workspaceMessage : String := "Workspace rate limit exceeded. Please try again later."

/-- The segment of a path after the first `workspaces`, empty ones left out. -/
def workspaceSegment? (path : String) : Option String :=
  let segments := (Text.split '/' path).filter fun s => !s.isEmpty
  ((segments.dropWhile fun s => s != "workspaces").drop 1).head?

/-- The text in which a request names its workspace: the header counts before
the path. -/
def workspaceText? (r : Request) : Except Fault (Option String) :=
  match r.headers.get? workspaceHeader with
  | some v =>
      match v.text? with
      | some s => .ok (some (Text.trim s))
      | none => .error (.badRequest "invalid workspace id")
  | none => .ok (workspaceSegment? r.path)

/-- The workspace that a request names, if it names one. -/
def workspaceOf (r : Request) : Except Fault (Option Uuid) :=
  match workspaceText? r with
  | .error e => .error e
  | .ok none => .ok none
  | .ok (some s) =>
      match Uuid.read? s with
      | some id => .ok (some id)
      | none => .error (.badRequest ("invalid workspace id: " ++ s))

/-- The layer that finds out the workspace of a request. -/
def extractWorkspace : Layer ω := fun next r =>
  match workspaceOf r with
  | .ok (some id) => next (r.withWorkspace id)
  | .ok none => next r
  | .error e => pure e.response

/-- A limiter of workspaces whose store keeps its state in `ω`. -/
structure WorkspaceLimiter (ω : Type) where
  store : Option (Store ω)
  /-- Requests in a window of a workspace without a limit of its own. -/
  limit : Nat
  window : Span
  /-- The workspaces with limits of their own. -/
  overrides : List (Uuid × Nat) := []
  deadline : Span := defaultDeadline
  metered : Bool := false

namespace WorkspaceLimiter

variable {ω : Type}

def setLimit (l : WorkspaceLimiter ω) (id : Uuid) (limit : Nat) : WorkspaceLimiter ω :=
  { l with overrides := (id, limit) :: l.overrides.filter fun p => p.1 != id }

def removeLimit (l : WorkspaceLimiter ω) (id : Uuid) : WorkspaceLimiter ω :=
  { l with overrides := l.overrides.filter fun p => p.1 != id }

def limitFor (l : WorkspaceLimiter ω) (id : Uuid) : Nat :=
  (l.overrides.lookup id).getD l.limit

def keyOf (id : Uuid) : String :=
  "ws:" ++ id.write

def gate (l : WorkspaceLimiter ω) (store : Store ω) (id : Uuid) : Layer ω := fun next r => do
  match ← check store l.deadline (keyOf id) (l.limitFor id) l.window with
  | .error _ =>
      Act.record l.metered Metrics.recordStoreFault
      next r
  | .ok w =>
      if w.exceeded then
        Act.record l.metered (Metrics.recordRejection "workspace")
        pure ((rejection workspaceMessage).mapHeaders w.tellRejected)
      else
        let response ← next r
        pure (response.mapHeaders w.tell)

/-- The limiter as a layer: requests without a workspace pass. -/
def guard (l : WorkspaceLimiter ω) : Layer ω := fun next r =>
  match l.store, r.context.workspace with
  | some store, some id => l.gate store id next r
  | _, _ => next r

end WorkspaceLimiter

end Gatehouse.Limit
