import Gatehouse.Text.Blank

/-!
The routes of an app: which path leads where, and by which methods.
-/

namespace Gatehouse

/-- A route. -/
inductive Route where
  | health
  | metrics
  | login
  | callback
  | logout
  | me
  | workspaces
  | workspace (segment : String)
  deriving DecidableEq, Repr

namespace Route

/-- The routes with a path of their own. -/
def fixed : List (String × Route) :=
  [("/health", health), ("/metrics", metrics), ("/login", login), ("/auth/callback", callback),
    ("/logout", logout), ("/api/me", me), ("/workspaces", workspaces)]

/-- The route of a path. The segment of a workspace is neither empty nor
followed by another one, and still percent-encoded. -/
def ofPath? (path : String) : Option Route :=
  match fixed.lookup path with
  | some route => some route
  | none =>
      match Text.split '/' path with
      | ["", "workspaces", segment] => if segment.isEmpty then none else some (workspace segment)
      | _ => none

/-- The methods of a route. Whatever can be got can be asked for without its
body. -/
def methods : Route → List String
  | logout => ["GET", "HEAD", "POST"]
  | _ => ["GET", "HEAD"]

def isProtected : Route → Bool
  | me | workspaces | workspace _ => true
  | _ => false

/-- A route with a path of its own has that path. -/
theorem mem_fixed_of_ofPath? {path : String} {route : Route} (h : ofPath? path = some route)
    (plain : ∀ segment, route ≠ workspace segment) : (path, route) ∈ fixed := by
  rw [ofPath?] at h
  split at h
  · rename_i found own
    cases h
    obtain ⟨front, rest, entries, -⟩ := List.lookup_eq_some_iff.mp own
    simp [entries]
  · split at h
    · split at h
      · cases h
      · exact absurd (Option.some.inj h).symm (plain _)
    · cases h

end Route

end Gatehouse
