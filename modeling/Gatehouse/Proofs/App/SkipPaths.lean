import Gatehouse.Proofs.App.Stages
import Gatehouse.Proofs.Limit.Headers
import Gatehouse.Store.Memory

/-!
Paths that are never limited.

The limiters of clients, endpoints and users skip the paths that an app is told to
skip; the limiter of workspaces knows nothing of them. So a request for such a path
is counted once at most, and only if it names a workspace on a protected route
(`App.skipped_path_meets_workspaces_only`). What is not counted shows no limiter: no
handler and no gate answers as a limiter does (`App.unlimited_handlerOf`).
-/

namespace Gatehouse

open Http Auth Limit

variable {ω : Type}

/-! ### Responses without a limiter -/

namespace Http.Response

/-- No limiter shows in the response: it is no rejection and tells of no window. -/
structure Unlimited (response : Response) : Prop where
  status : response.status ≠ 429
  headers : ∀ name ∈ limiterHeaders, response.headers.getAll name = []

variable {response : Response}

theorem contentType_notMem : contentType ∉ limiterHeaders := by decide

theorem setCookieName_notMem : setCookieName ∉ limiterHeaders := by decide

theorem Unlimited.mapHeaders (h : response.Unlimited) {f : Headers → Headers}
    (keeps : ∀ fields : Headers, ∀ name ∈ limiterHeaders,
      (f fields).getAll name = fields.getAll name) : (response.mapHeaders f).Unlimited :=
  ⟨h.status, fun name mem => (keeps _ name mem).trans (h.headers name mem)⟩

theorem unlimited_bare {status : Nat} (ne : status ≠ 429) : (bare status).Unlimited :=
  ⟨ne, fun _ _ => rfl⟩

/-- A content type is all that a new response has. -/
theorem unlimited_of_contentType {status : Nat} (ne : status ≠ 429) (kind : Value) (body : Body) :
    Unlimited ⟨status, [(contentType, kind)], body⟩ := by
  refine ⟨ne, fun name mem => ?_⟩
  have apart : contentType ≠ name := by
    rintro rfl
    exact contentType_notMem mem
  simp [Headers.getAll, apart]

theorem Unlimited.insertText (h : response.Unlimited) {name : String}
    (apart : name ∉ limiterHeaders) (text : String) :
    (response.insertText name text).Unlimited := by
  rw [Response.insertText]
  split
  · refine h.mapHeaders fun fields other mem => ?_
    refine Headers.getAll_insert_of_ne ?_ _ fields
    rintro rfl
    exact apart mem
  · exact h

theorem Unlimited.answering (h : response.Unlimited) (method : String) :
    (response.answering method).Unlimited := by
  rw [Response.answering]
  split <;> exact ⟨h.status, h.headers⟩

theorem Unlimited.apply (h : response.Unlimited) (jar : Jar) : (jar.apply response).Unlimited := by
  refine ⟨h.status, fun name mem => (Jar.getAll_apply_of_ne _ _ ?_).trans (h.headers name mem)⟩
  rintro rfl
  exact setCookieName_notMem mem

theorem unlimited_found (location : String) : (found location).Unlimited := by
  rw [found]
  split
  · refine (unlimited_bare (by decide)).mapHeaders fun fields name mem => ?_
    exact Headers.getAll_insert_of_ne (fun same => absurd (same ▸ mem) (by decide)) _ fields
  · exact unlimited_of_contentType (by decide) _ _

theorem unlimited_fault (fault : Fault) : fault.response.Unlimited := by
  refine unlimited_of_contentType ?_ _ _
  cases fault <;> simp [Fault.status]

end Http.Response

/-! ### Handlers without a limiter -/

/-- Whatever the world is, the response has the property. -/
def Act.Gives (P : Response → Prop) (x : Act ω Response) : Prop :=
  ∀ w, P (x w).1

namespace Act

variable {P : Response → Prop} {α : Type}

theorem Gives.pure {response : Response} (h : P response) : Gives P (pure response : Act ω _) :=
  fun _ => h

theorem Gives.bind {x : Act ω α} {f : α → Act ω Response} (rest : ∀ a, Gives P (f a)) :
    Gives P (x >>= f) :=
  fun w => rest (x w).1 (x w).2

theorem Gives.ite {c : Prop} [Decidable c] {x y : Act ω Response} (yes : Gives P x)
    (no : Gives P y) : Gives P (if c then x else y) := by
  split
  · exact yes
  · exact no

end Act

namespace App

open Act Response

variable (app : App ω) {r : Request}

theorem unlimited_turnAway (g : Gate ω) (r : Request) (jar : Jar) :
    (g.turnAway r jar).Unlimited := by
  rw [Gate.turnAway]
  split
  · refine Unlimited.apply ?_ jar
    exact (unlimited_of_contentType (by decide) _ _).insertText (by decide) _
  · exact (unlimited_found _).apply _

theorem unlimited_fail (o : Outcome) (jar : Jar) : Gives Unlimited (app.fail o jar) :=
  .bind fun _ => .pure ((unlimited_of_contentType (by decide) _ _).apply jar)

theorem unlimited_finishLogin (p : CallbackParams) (r : Request) :
    Gives Unlimited (app.finishLogin p r) := by
  refine .ite (app.unlimited_fail _ _) (.ite (app.unlimited_fail _ _)
    (.ite (app.unlimited_fail _ _) (.bind fun granted => ?_)))
  cases granted with
  | error fault => exact app.unlimited_fail _ _
  | ok grant => exact .bind fun _ => .pure ((unlimited_of_contentType (by decide) _ _).apply _)

theorem unlimited_callback (r : Request) : Gives Unlimited (app.callback r) := by
  unfold callback
  split
  · exact app.unlimited_finishLogin _ r
  · exact .pure (unlimited_of_contentType (by decide) _ _)

theorem unlimited_withUser {answer : User → Response} (h : ∀ user, (answer user).Unlimited)
    (r : Request) : Gives Unlimited (withUser (ω := ω) answer r) := by
  refine .pure ?_
  split
  · exact h _
  · exact unlimited_fault _

theorem unlimited_workspaceBody (segment : String) (workspace : Option Uuid) (user : User) :
    (workspaceBody segment workspace user).Unlimited := by
  unfold workspaceBody
  split
  · exact unlimited_of_contentType (by decide) _ _
  · exact unlimited_fault _
  · split
    · exact unlimited_of_contentType (by decide) _ _
    · exact unlimited_fault _

/-- **No handler answers as a limiter does.** -/
theorem unlimited_handlerOf (route : Route) (r : Request) :
    Gives Unlimited (app.handlerOf route r) := by
  cases route with
  | health =>
      refine .bind fun healthy => .pure (unlimited_of_contentType ?_ _ _)
      split <;> decide
  | metrics => exact .bind fun _ => .pure (unlimited_of_contentType (by decide) _ _)
  | login =>
      refine .ite (.pure (unlimited_found _)) (.bind fun seed => .pure ?_)
      exact (unlimited_of_contentType (by decide) _ _).apply _
  | callback => exact app.unlimited_callback r
  | logout =>
      refine .pure (Unlimited.apply ?_ _)
      split
      · exact (unlimited_bare (by decide)).insertText (by decide) _
      · exact unlimited_found _
  | me => exact unlimited_withUser (fun _ => unlimited_of_contentType (by decide) _ _) r
  | workspaces => exact unlimited_withUser (fun _ => unlimited_of_contentType (by decide) _ _) r
  | workspace segment =>
      exact unlimited_withUser (unlimited_workspaceBody segment r.context.workspace) r

theorem unlimited_routeFor (r seen : Request) : Gives Unlimited (app.routeFor r seen) := by
  unfold routeFor
  cases Route.ofPath? r.path with
  | none => exact .pure (unlimited_bare (by decide))
  | some route =>
      by_cases allowed : route.methods.contains r.method = true
      · simp only [allowed, if_true]
        exact app.unlimited_handlerOf _ seen
      · simp only [allowed]
        exact .pure (unlimited_bare (by decide))

/-! ### Layers -/

section Layers

variable {next : Handler ω}

theorem unlimited_require (g : Gate ω) (h : ∀ user, Gives Unlimited (next (r.withUser user))) :
    Gives Unlimited (g.require next r) := by
  refine .bind fun found => ?_
  obtain ⟨session, jar⟩ := found
  cases session with
  | known user => exact h user
  | missing | rejected => exact .bind fun _ => .pure (unlimited_turnAway g r jar)

theorem unlimited_optional (g : Gate ω) (h : ∀ seen, Gives Unlimited (next seen)) :
    Gives Unlimited (g.optional next r) := by
  refine .bind fun found => ?_
  obtain ⟨session, jar⟩ := found
  cases session <;> exact fun w => (h _ w).apply jar

theorem unlimited_extractWorkspace
    (h : ∀ found, workspaceOf r = .ok found →
      Gives Unlimited (next ((found.map r.withWorkspace).getD r))) :
    Gives Unlimited (extractWorkspace next r) := by
  unfold extractWorkspace
  rcases named : workspaceOf r with fault | found
  · exact .pure (unlimited_fault fault)
  · cases found <;> exact h _ named

theorem unlimited_guard {l : Limiter ω} (idle : l.store = none ∨ l.keyFor r = none)
    (h : Gives Unlimited (next r)) : Gives Unlimited (l.guard next r) := by
  intro w
  rw [l.guard_of_uncounted r w idle]
  exact h w

end Layers

/-! ### Skipped paths -/

variable {app}

theorem keyFor_of_skipped {l : Limiter ω} (skipped : r.path ∈ l.skipPaths) : l.keyFor r = none := by
  rw [Limiter.keyFor, if_pos (List.contains_iff_mem.mpr skipped)]

/-- A request for a skipped path goes straight to the layers of its route. -/
theorem entry_of_skipped (skipped : r.path ∈ app.skipPaths) (w : World ω) :
    app.entry.Forwards r w r w id := by
  intro next
  have client : app.clientLimiter.keyFor r = none := keyFor_of_skipped skipped
  have endpoint : app.endpointLimiter.keyFor r = none := keyFor_of_skipped skipped
  rw [entry, app.clientLimiter.guard_of_uncounted r w (.inr client),
    app.endpointLimiter.guard_of_uncounted r w (.inr endpoint)]
  rfl

/-- The request is counted by no limiter of workspaces. -/
def Uncharged (app : App ω) (r : Request) : Prop :=
  isProtected r = true → app.store ≠ none → ∀ id, workspaceOf r ≠ .ok (some id)

/-- Without a charge to a workspace, no limiter shows behind those of every request. -/
theorem unlimited_inner (skipped : r.path ∈ app.skipPaths) (unnamed : r.context.workspace = none)
    (uncharged : app.Uncharged r) : Gives Unlimited (app.inner r (app.routeFor r) r) := by
  have handled := app.unlimited_routeFor r
  unfold inner
  cases named : Route.ofPath? r.path with
  | none => exact handled r
  | some route =>
      show Gives Unlimited (app.layersOf route (app.routeFor r) r)
      unfold layersOf
      split
      · rename_i guarded
        have charge : app.store = none ∨ ∀ id, workspaceOf r ≠ .ok (some id) := by
          have protected_ : isProtected r = true := by simp [isProtected, named, guarded]
          exact or_iff_not_imp_left.mpr (uncharged protected_)
        refine unlimited_require _ fun user => unlimited_guard ?_ ?_
        · exact .inr (keyFor_of_skipped (l := app.userLimiter) skipped)
        · refine unlimited_extractWorkspace fun found is => ?_
          rw [WorkspaceLimiter.guard_eq]
          refine unlimited_guard ?_ (handled _)
          rcases charge with has | nameless
          · exact .inl has
          · refine .inr (WorkspaceLimiter.keyFor_asLimiter_of_none _ ?_)
            cases found with
            | none => exact unnamed
            | some id => exact absurd is (nameless id)
      · split
        · exact unlimited_optional _ handled
        · exact handled r

theorem unlimited_respond {w : World ω} (h : (app.limited r w).1.Unlimited) :
    (app.respond r w).1.Unlimited := by
  refine Unlimited.answering ?_ r.method
  unfold tellMethods
  cases Route.ofPath? r.path with
  | none => exact h
  | some route =>
      dsimp only
      split
      · exact h
      · exact h.insertText (by decide) _

/-- Of the stages of a skipped path none counts but that of the workspace. -/
theorem stages_of_skipped (skipped : r.path ∈ app.skipPaths) (user? : Option User) :
    app.stages r user? = if isProtected r then
      match user? with
      | some _ => app.workspaceStages r
      | none => [.refuse .signedOut]
    else [] := by
  have skips := List.contains_iff_mem.mpr skipped
  rw [stages, clientStages, endpointStages, if_pos skips, if_pos skips]
  cases user? with
  | none => rfl
  | some user => rw [sessionStages, userStages, if_pos skips]; rfl

/-- What is not charged to a workspace is not counted. -/
theorem counts_of_uncharged (skipped : r.path ∈ app.skipPaths) (uncharged : app.Uncharged r)
    {user? : Option User} {counts : Log} {why : Option Refusal}
    (fares : Fares (app.stages r user?) counts why) : counts = [] := by
  rw [stages_of_skipped skipped] at fares
  split at fares
  · rename_i guarded
    cases user? with
    | none => cases fares with | refuses => rfl
    | some user =>
        unfold workspaceStages counting at fares
        rcases named : workspaceOf r with fault | _ | id
        · simp only [named] at fares
          cases fares with | refuses => rfl
        · simp only [named] at fares
          cases fares with | done => rfl
        · have storeless : app.store = none :=
            Decidable.byContradiction fun stored => uncharged guarded stored id named
          simp only [named, storeless] at fares
          cases fares with | done => rfl
  · cases fares with | done => rfl

/-- **A path to skip is charged to workspaces only.** -/
theorem skipped_path_meets_workspaces_only (app : App ω) {r : Request} (arrives : r.context = {})
    (skipped : r.path ∈ app.skipPaths) (w : World ω) :
    ∃ counts : Log,
      (∀ log, app.watched.respond r (w.logging log) =
        ((app.respond r w).1, (app.respond r w).2.logging (log ++ counts))) ∧
      (counts = [] ∧ (app.respond r w).1.Unlimited ∨
        isProtected r = true ∧ ∃ id reply, workspaceOf r = .ok (some id) ∧
          counts = [("ws:" ++ id.write, reply)]) := by
  have unnamed : r.context.workspace = none := by rw [arrives]
  obtain ⟨user?, counts, why, admitted, fares, -, noted⟩ := app.respond_fares unnamed w
  refine ⟨counts, noted, ?_⟩
  have limited : app.limited r w = app.inner r (app.routeFor r) r w :=
    (app.limited_eq r w).trans (entry_of_skipped skipped w _)
  by_cases uncharged : app.Uncharged r
  · refine .inl ⟨counts_of_uncharged skipped uncharged fares, unlimited_respond ?_⟩
    rw [limited]
    exact unlimited_inner skipped unnamed uncharged w
  · simp only [Uncharged, not_forall, not_not] at uncharged
    obtain ⟨guarded, has, id, named⟩ := uncharged
    rw [stages_of_skipped skipped, if_pos guarded] at fares
    cases user? with
    | none =>
        cases fares with
        | refuses =>
            refine .inl ⟨rfl, unlimited_respond ?_⟩
            rw [limited, app.inner_of_protected guarded]
            obtain ⟨o, ⟨user, admits, -⟩ | ⟨-, answers⟩⟩ := app.meteredGate.require_cases r w
            · have lets := (admitted w _ (entry_of_skipped skipped w) guarded user).mpr ⟨o, admits⟩
              cases lets
            · rw [protection, answers]
              exact unlimited_turnAway _ r _
    | some user =>
        refine .inr ⟨guarded, id, ?_⟩
        unfold workspaceStages counting at fares
        simp only [named, Option.isSome_iff_ne_none.mpr has, if_true] at fares
        cases fares with
        | passes _ rest =>
            cases rest with
            | done => exact ⟨_, named, rfl⟩
        | exceeds _ => exact ⟨_, named, rfl⟩

/-- An app that is to skip the page of workspaces and lets no request of a workspace
pass. -/
def shutApp : App (Memory × Unit) :=
  { crowdedApp.withStore Memory.store with skipPaths := ["/workspaces"], workspaceLimit := 0 }

/-- The world of an app with a memory, as it begins. -/
def emptyWorld : World (Memory × Unit) :=
  .fresh (Memory.empty Memory.defaultCapacity, ())

/-- A request for the page with a session; it may name a workspace in a header. -/
def pageVisit (headers : Headers) : Request where
  method := "GET"
  target := ⟨none, none, "/workspaces", none⟩
  headers := ("cookie", Bytes.ofText "flowra_session=abc") :: headers

/-- Without a name of a workspace the page is not limited, though it is the page of a
user. -/
theorem nameless_page_is_unlimited :
    (pageVisit []).context = {} ∧ (pageVisit []).path ∈ shutApp.skipPaths ∧
      (shutApp.respond (pageVisit []) emptyWorld).1.status = 200 ∧
      (shutApp.respond (pageVisit []) emptyWorld).1.Unlimited := by
  have arrives : (pageVisit []).context = {} := rfl
  have skipped : (pageVisit []).path ∈ shutApp.skipPaths := by decide
  refine ⟨arrives, skipped, by decide, ?_⟩
  obtain ⟨counts, -, ⟨-, unlimited⟩ | ⟨-, id, reply, named, -⟩⟩ :=
    skipped_path_meets_workspaces_only shutApp arrives skipped emptyWorld
  · exact unlimited
  · have nameless : workspaceOf (pageVisit []) = .ok none := rfl
    cases nameless.symm.trans named

/-- With a name of a workspace the page is counted and rejected. -/
theorem named_page_is_limited :
    let r := pageVisit [(workspaceHeader, Bytes.ofText "11111111-1111-1111-1111-111111111111")]
    r.path ∈ shutApp.skipPaths ∧ (shutApp.respond r emptyWorld).1.status = 429 ∧
      (shutApp.respond r emptyWorld).1.headers.getAll limitHeader = [Bytes.ofText "0"] ∧
      (shutApp.watched.respond r (emptyWorld.logging [])).2.outside.1 =
        [("ws:11111111-1111-1111-1111-111111111111", .ready 1)] := by
  decide

end App

end Gatehouse
