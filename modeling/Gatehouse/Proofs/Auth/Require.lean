import Gatehouse.Auth.Gate
import Gatehouse.Proofs.Auth.Jar
import Gatehouse.Proofs.Http.Response
import Gatehouse.Proofs.Layer

/-!
Whom the gate lets in.

A token is accepted by the word of the validator, or by that of the resolver
where the validator knows the user by an external name only (`Gate.Accepts`).
Nothing else is asked of a token, and no accepted user has the nil id.

* `Gate.authenticate_cases` compares the check of a token with this relation.
* `Gate.identify_cases` does the same for the session in a jar, whose cookie is
  cleared when it is not accepted.
* `Gate.require_lets_users_in` is the account of the layer: whom it lets in, as
  whom, and what all others are told.
-/

namespace Gatehouse.Auth

open Http Cookie

namespace Gate

variable {ω : Type}

/-- Whom claims stand for, and the state that the services are left in. The id is
that of the claims, unless it is nil. -/
inductive Names (g : Gate ω) (claims : Claims) (o : ω) : User → ω → Prop
  | known : claims.id ≠ Uuid.nil → Names g claims o claims o
  | resolved {resolve : Resolver ω} {id : Uuid} {o' : ω} :
      claims.id = Uuid.nil → g.resolver = some resolve →
      resolve claims.externalId claims.username claims.email o = (.ready id, o') →
      id ≠ Uuid.nil → Names g claims o { claims with id } o'

/-- Whom a token stands for in a world, and the state that the services are left
in. -/
def Accepts (g : Gate ω) (w : World ω) (token : String) (user : User) (o : ω) : Prop :=
  ∃ validate claims o₁, g.active? = some validate ∧
    validate w.clock token w.outside = (.ready claims, o₁) ∧ g.Names claims o₁ user o

/-- What comes of claims without an id by the reply of the resolver. -/
def filledBy (claims : Claims) (reply : Reply AuthFault Uuid) : Except AuthFault User :=
  (reply.within .timedOut).bind fun id =>
    if id.isNil then .error (.unresolvable .nilId) else .ok { claims with id }

/-- The token in the session cookie of a request, unless it is empty. -/
def sessionOf (r : Request) : Option String :=
  ((Cookie.pairs r.headers).lookup sessionCookie).filter fun token => token ≠ ""

/-- The user that a request comes from: its session cookie has a token that is
accepted. -/
def Admits (g : Gate ω) (w : World ω) (r : Request) (user : User) (o : ω) : Prop :=
  ∃ token, sessionOf r = some token ∧ g.Accepts w token user o

/-- The session cookie of a request is cleared, unless it is empty. -/
def stale (g : Gate ω) (r : Request) : List Setting :=
  if (sessionOf r).isSome then [Setting.cleared sessionCookie (g.isSecure r)] else []

/-- Where a request was going is kept in a cookie, if it is a `GET` of a client
that does not swap fragments. -/
def detour (g : Gate ω) (r : Request) : List Setting :=
  if isFragment r.headers = false ∧ r.method = "GET" then
    [⟨redirectCookie, Jar.redirectValue r.target.pathAndQuery, true, g.isSecure r, shortMaxAge⟩]
  else []

/-- What a request without a usable session is told, and what is counted. A
client that swaps fragments gets the login path in a header of its own; any
other is sent there. -/
structure TurnsAway (g : Gate ω) (r : Request) (w : World ω) (response : Response)
    (after : World ω) : Prop where
  counted : ∃ o, after = { w with
    metrics := if g.metered then { w.metrics with authFailures := w.metrics.authFailures + 1 }
      else w.metrics
    outside := o }
  fragment : isFragment r.headers = true →
    response.status = 401 ∧
      response.body = .json (.object [("error", .text "Authentication required")]) ∧
      response.headers.getAll "content-type" = [Bytes.ofText "application/json"] ∧
      response.headers.getAll "hx-redirect" = [Bytes.ofText g.loginPath]
  page : isFragment r.headers = false →
    response.status = 302 ∧ response.headers.getAll "location" = [Bytes.ofText g.loginPath]
  cookies : response.Sets (g.stale r ++ g.detour r)

variable {g : Gate ω} {w : World ω} {r : Request} {claims : Claims} {token : String}
  {user : User} {o o' : ω}

/-! ### The check of a token -/

theorem isNil_iff {id : Uuid} : id.isNil = true ↔ id = Uuid.nil := by
  simp [Uuid.isNil]

theorem isNil_eq_false_iff {id : Uuid} : id.isNil = false ↔ id ≠ Uuid.nil := by
  rw [← Bool.not_eq_true, isNil_iff]

theorem Names.id_ne_nil (h : g.Names claims o user o') : user.id ≠ Uuid.nil := by
  cases h with
  | known known => exact known
  | resolved _ _ _ known => exact known

/-- Where a gate validates tokens, it has a validator, or trusts the mock. -/
theorem active?_cases {validate : Validator ω} (h : g.active? = some validate) :
    g.validator = some validate ∨ validate = Mock.validator := by
  unfold active? at h
  split at h
  · rename_i has
    exact .inl (has.trans h)
  · split at h
    · exact .inr (Option.some.inj h).symm
    · cases h

/-- Claims stand for one user at most. -/
theorem Names.unique {u : User} {s : ω} (h : g.Names claims o user o') (h' : g.Names claims o u s) :
    u = user ∧ s = o' := by
  cases h with
  | known known =>
      cases h' with
      | known _ => exact ⟨rfl, rfl⟩
      | resolved missing _ _ _ => exact absurd missing known
  | resolved missing has asked _ =>
      cases h' with
      | known known => exact absurd missing known
      | resolved _ has' asked' _ =>
          cases has.symm.trans has'
          cases asked.symm.trans asked'
          exact ⟨rfl, rfl⟩

/-- A user that claims without an id stand for has the id that was replied. -/
theorem Names.replied {resolve : Resolver ω} {reply : Reply AuthFault Uuid} {s : ω}
    (h : g.Names claims o user s) (missing : claims.id = Uuid.nil)
    (has : g.resolver = some resolve)
    (asked : resolve claims.externalId claims.username claims.email o = (reply, o')) :
    ∃ id, reply = .ready id ∧ id ≠ Uuid.nil := by
  cases h with
  | known known => exact absurd missing known
  | resolved _ has' asked' known =>
      cases has.symm.trans has'
      cases asked.symm.trans asked'
      exact ⟨_, rfl, known⟩

theorem resolve_of_known (known : claims.id ≠ Uuid.nil) :
    g.resolve claims w = (.ok claims, w) := by
  have nil := isNil_eq_false_iff.mpr known
  simp [resolve, Claims.needsResolution, nil]

theorem resolve_of_none (missing : claims.id = Uuid.nil) (lacks : g.resolver = none) :
    g.resolve claims w = (.error (.unresolvable .noResolver), w) := by
  have nil := isNil_iff.mpr missing
  simp [resolve, Claims.needsResolution, nil, lacks]

theorem filledBy_ready {id : Uuid} (known : id ≠ Uuid.nil) :
    filledBy claims (.ready id) = .ok { claims with id } := by
  simp [filledBy, Reply.within, Except.bind, isNil_eq_false_iff.mpr known]

/-- Claims without an id get it from the resolver, if it gives one in time that
is not nil. -/
theorem resolve_of_some {resolve : Resolver ω} {reply : Reply AuthFault Uuid}
    (missing : claims.id = Uuid.nil) (has : g.resolver = some resolve)
    (asked : resolve claims.externalId claims.username claims.email w.outside = (reply, o)) :
    g.resolve claims w = (filledBy claims reply, { w with outside := o }) := by
  have nil := isNil_iff.mpr missing
  cases reply with
  | ready id =>
      cases h : id.isNil <;>
        simp [Gate.resolve, Claims.needsResolution, nil, has, asked, filledBy, Reply.within,
          Except.bind, h]
  | failed _ | stalled =>
      simp [Gate.resolve, Claims.needsResolution, nil, has, asked, filledBy, Reply.within,
        Except.bind]

/-- Claims are resolved to whom they stand for, or they stand for nobody. -/
theorem resolve_cases (g : Gate ω) (claims : Claims) (w : World ω) :
    ∃ o, (∃ user, g.resolve claims w = (.ok user, { w with outside := o }) ∧
        g.Names claims w.outside user o) ∨
      (∃ fault, g.resolve claims w = (.error fault, { w with outside := o }) ∧
        ∀ user s, ¬ g.Names claims w.outside user s) := by
  by_cases missing : claims.id = Uuid.nil
  · cases hr : g.resolver with
    | none =>
        refine ⟨w.outside, .inr ⟨_, resolve_of_none missing hr, fun user s h => ?_⟩⟩
        cases h with
        | known known => exact known missing
        | resolved _ some _ _ => exact absurd (hr.symm.trans some) (by simp)
    | some resolve =>
        rcases asked : resolve claims.externalId claims.username claims.email w.outside with
          ⟨reply, o⟩
        have resolved := resolve_of_some missing hr asked
        refine ⟨o, ?_⟩
        cases reply with
        | ready id =>
            by_cases nil : id = Uuid.nil
            · refine .inr ⟨.unresolvable .nilId, resolved.trans ?_, fun user s h => ?_⟩
              · simp [filledBy, Reply.within, Except.bind, isNil_iff.mpr nil]
              · obtain ⟨_, same, known⟩ := h.replied missing hr asked
                cases same
                exact known nil
            · refine .inl ⟨{ claims with id }, resolved.trans ?_, .resolved missing hr asked nil⟩
              rw [filledBy_ready nil]
        | failed e =>
            refine .inr ⟨e, resolved, fun user s h => ?_⟩
            obtain ⟨_, ⟨⟩, _⟩ := h.replied missing hr asked
        | stalled =>
            refine .inr ⟨.timedOut, resolved, fun user s h => ?_⟩
            obtain ⟨_, ⟨⟩, _⟩ := h.replied missing hr asked
  · exact ⟨w.outside, .inl ⟨claims, resolve_of_known missing, .known missing⟩⟩

theorem authenticate_of_some {validate : Validator ω} {reply : Reply AuthFault Claims}
    (active : g.active? = some validate)
    (asked : validate w.clock token w.outside = (reply, o)) :
    g.authenticate token w = match reply with
      | .ready claims => g.resolve claims { w with outside := o }
      | .failed e => (.error e, { w with outside := o })
      | .stalled => (.error .timedOut, { w with outside := o }) := by
  cases reply <;> simp [authenticate, active, asked, Reply.within]

/-- A user that a token stands for is named by the claims that were replied. -/
theorem Accepts.replied {validate : Validator ω} {reply : Reply AuthFault Claims} {s : ω}
    (h : g.Accepts w token user s) (active : g.active? = some validate)
    (asked : validate w.clock token w.outside = (reply, o)) :
    ∃ claims, reply = .ready claims ∧ g.Names claims o user s := by
  obtain ⟨validate', claims, o₁, active', asked', names⟩ := h
  cases active.symm.trans active'
  cases asked.symm.trans asked'
  exact ⟨claims, rfl, names⟩

/-- **A token is checked to be the one of whom it stands for**, or it stands for
nobody. The check changes the services only. -/
theorem authenticate_cases (g : Gate ω) (token : String) (w : World ω) :
    ∃ o, (∃ user, g.authenticate token w = (.ok user, { w with outside := o }) ∧
        g.Accepts w token user o) ∨
      (∃ fault, g.authenticate token w = (.error fault, { w with outside := o }) ∧
        ∀ user s, ¬ g.Accepts w token user s) := by
  cases ha : g.active? with
  | none =>
      refine ⟨w.outside, .inr ⟨.invalidToken .noValidator, ?_, ?_⟩⟩
      · simp [authenticate, ha]
      · rintro user s ⟨validate, -, -, active, -⟩
        exact absurd (ha.symm.trans active) (by simp)
  | some validate =>
      rcases asked : validate w.clock token w.outside with ⟨reply, o⟩
      have checked := authenticate_of_some ha asked
      cases reply with
      | ready claims =>
          obtain ⟨o', ⟨user, resolved, names⟩ | ⟨fault, resolved, nobody⟩⟩ :=
            g.resolve_cases claims { w with outside := o }
          · exact ⟨o', .inl ⟨user, checked.trans resolved, validate, claims, o, ha, asked, names⟩⟩
          · refine ⟨o', .inr ⟨fault, checked.trans resolved, fun user s h => ?_⟩⟩
            obtain ⟨_, same, names⟩ := h.replied ha asked
            cases same
            exact nobody user s names
      | failed e =>
          refine ⟨o, .inr ⟨e, checked, fun user s h => ?_⟩⟩
          obtain ⟨_, ⟨⟩, _⟩ := h.replied ha asked
      | stalled =>
          refine ⟨o, .inr ⟨.timedOut, checked, fun user s h => ?_⟩⟩
          obtain ⟨_, ⟨⟩, _⟩ := h.replied ha asked

theorem Accepts.unique {u : User} {s : ω} (h : g.Accepts w token user o)
    (h' : g.Accepts w token u s) : u = user ∧ s = o := by
  obtain ⟨validate, claims, o₁, active, asked, names⟩ := h
  obtain ⟨_, same, names'⟩ := h'.replied active asked
  cases same
  exact names.unique names'

theorem Admits.unique {u : User} {s : ω} (h : g.Admits w r user o) (h' : g.Admits w r u s) :
    u = user ∧ s = o := by
  obtain ⟨token, session, accepts⟩ := h
  obtain ⟨token', session', accepts'⟩ := h'
  cases session.symm.trans session'
  exact accepts.unique accepts'

theorem Admits.id_ne_nil (h : g.Admits w r user o) : user.id ≠ Uuid.nil := by
  obtain ⟨token, -, validate, claims, o₁, -, -, names⟩ := h
  exact names.id_ne_nil

/-! ### The session of a request -/

theorem session?_jarOf (g : Gate ω) (r : Request) : (g.jarOf r).session? = sessionOf r := by
  rw [sessionOf, Jar.session?, Jar.read?]
  congr 1
  funext token
  by_cases empty : token = "" <;> simp [empty]

/-- The jar of a request without a usable session. -/
def staleJar (g : Gate ω) (r : Request) : Jar :=
  ⟨Cookie.pairs r.headers, g.stale r, g.isSecure r⟩

/-- A request is identified as the user that it comes from, or it comes from
nobody and its session is cleared. -/
theorem identify_cases (g : Gate ω) (r : Request) (w : World ω) :
    ∃ o, (∃ user, g.identify (g.jarOf r) w =
          ((.known user, g.jarOf r), { w with outside := o }) ∧ g.Admits w r user o) ∨
      (∃ session, g.identify (g.jarOf r) w =
          ((session, g.staleJar r), { w with outside := o }) ∧
        (∀ user, session ≠ .known user) ∧ ∀ user s, ¬ g.Admits w r user s) := by
  have jar := g.session?_jarOf r
  cases hs : sessionOf r with
  | none =>
      refine ⟨w.outside, .inr ⟨.missing, ?_, by simp, ?_⟩⟩
      · simp [identify, jar, hs, staleJar, stale]
        rfl
      · rintro user s ⟨token, session, -⟩
        exact absurd (hs.symm.trans session) (by simp)
  | some token =>
      obtain ⟨o, ⟨user, checked, accepts⟩ | ⟨fault, checked, nobody⟩⟩ :=
        g.authenticate_cases token w
      · refine ⟨o, .inl ⟨user, ?_, token, hs, accepts⟩⟩
        simp [identify, jar, hs, checked]
      · refine ⟨o, .inr ⟨.rejected, ?_, by simp, ?_⟩⟩
        · simp [identify, jar, hs, staleJar, stale, checked]
          rfl
        · rintro user s ⟨token', session, accepts⟩
          cases hs.symm.trans session
          exact nobody user s accepts

/-! ### The layer -/

/-- No cookie but the session is stale. -/
theorem name_of_mem_stale {g : Gate ω} {r : Request} {c : Setting} (h : c ∈ g.stale r) :
    c.name = sessionCookie := by
  rw [stale] at h
  split at h
  · rw [List.mem_singleton.mp h]
    rfl
  · cases h

theorem filter_isWritable_stale (g : Gate ω) (r : Request) :
    (g.stale r).filter Setting.isWritable = g.stale r := by
  rw [stale]
  split
  · simp [SetCookie.isWritable_cleared isName_sessionCookie]
  · rfl

/-- Without a usable session a jar adds nothing but what clears it. -/
theorem sets_staleJar (g : Gate ω) (r : Request) {response : Response} {cs : List Setting}
    (h : response.Sets cs) : ((g.staleJar r).apply response).Sets (cs ++ g.stale r) := by
  have sets : ((g.staleJar r).apply response).Sets _ := Jar.sets_apply h
  rwa [staleJar, filter_isWritable_stale] at sets

theorem filter_isWritable_detour (g : Gate ω) (r : Request) :
    (g.detour r).filter Setting.isWritable = g.detour r := by
  rw [detour]
  split
  · have writable : Setting.isWritable ⟨redirectCookie, Jar.redirectValue r.target.pathAndQuery,
        true, g.isSecure r, shortMaxAge⟩ = true :=
      (SetCookie.isWritable_eq isName_redirectCookie).trans
        (List.all_eq_true.mpr fun c hc => (Jar.isPlain_of_mem_redirectValue hc).1)
    simp [writable]
  · rfl

/-- The cookies of whoever is turned away. -/
theorem sets_turnAway (g : Gate ω) (r : Request) :
    (g.turnAway r (g.staleJar r)).Sets (g.stale r ++ g.detour r) := by
  have cookies : ∀ (jar : Jar) (response : Response), jar.outgoing = g.stale r ++ g.detour r →
      response.Sets [] → (jar.apply response).Sets (g.stale r ++ g.detour r) := by
    intro jar response outgoing none
    have sets : (jar.apply response).Sets _ := Jar.sets_apply none
    rwa [outgoing, List.filter_append, filter_isWritable_stale, filter_isWritable_detour] at sets
  rw [turnAway]
  split
  · rename_i fragment
    refine cookies _ _ ?_ ((Response.sets_ofJson _ _).insertText (by decide) _)
    simp [staleJar, detour, fragment]
  · rename_i page
    refine cookies _ _ ?_ (Response.sets_found g.loginPath)
    by_cases get : r.method = "GET" <;> simp [staleJar, detour, page, get, Jar.setRedirect]

/-- Whoever is turned away is told so. -/
theorem turnsAway_turnAway (usable : (Value.ofText? g.loginPath).isSome) {after : World ω}
    (counted : ∃ o, after = { w with
      metrics := if g.metered then { w.metrics with authFailures := w.metrics.authFailures + 1 }
        else w.metrics
      outside := o }) :
    g.TurnsAway r w (g.turnAway r (g.staleJar r)) after := by
  have path := Value.ofText?_of_isSome usable
  obtain ⟨status, location⟩ := Response.found_of_usable path
  constructor
  case counted => exact counted
  case cookies => exact g.sets_turnAway r
  case fragment =>
    intro yes
    rw [turnAway, if_pos yes]
    refine ⟨?_, ?_, ?_, ?_⟩
    · rw [Jar.status_apply, Response.status_insertText]
      rfl
    · rw [Jar.body_apply, Response.body_insertText]
      rfl
    · rw [Jar.getAll_apply_of_ne _ _ (by decide), Response.insertText, path]
      exact Headers.getAll_insert_of_ne (by decide) _ _
    · rw [Jar.getAll_apply_of_ne _ _ (by decide)]
      exact Response.getAll_insertText path _ _
  case page =>
    intro no
    rw [turnAway, if_neg (by simp [no])]
    exact ⟨status, (Jar.getAll_apply_of_ne _ _ (by decide)).trans location⟩

section Identified

variable {session : Session} {jar : Jar} {inner : World ω}

theorem require_of_known (h : g.identify (g.jarOf r) w = ((.known user, jar), inner)) :
    g.require.Forwards r w (r.withUser user) inner id :=
  Layer.forwards_id fun next => by simp [require, h]

theorem require_of_unknown (h : g.identify (g.jarOf r) w = ((session, jar), inner))
    (unknown : ∀ user, session ≠ .known user) :
    g.require.Answers r w (g.turnAway r jar)
      (Act.record g.metered Metrics.recordAuthFailure inner).2 := by
  intro next
  cases session with
  | known user => exact absurd rfl (unknown user)
  | missing => simp [require, h]
  | rejected => simp [require, h]

theorem optional_of_known (h : g.identify (g.jarOf r) w = ((.known user, jar), inner)) :
    g.optional.Forwards r w (r.withUser user) inner jar.apply :=
  fun next => by simp [optional, h]

theorem optional_of_unknown (h : g.identify (g.jarOf r) w = ((session, jar), inner))
    (unknown : ∀ user, session ≠ .known user) : g.optional.Forwards r w r inner jar.apply := by
  intro next
  cases session with
  | known user => exact absurd rfl (unknown user)
  | missing => simp [optional, h]
  | rejected => simp [optional, h]

end Identified

/-- The layer lets a user in, or turns away whoever is none. -/
theorem require_cases (g : Gate ω) (r : Request) (w : World ω) :
    ∃ o, (∃ user, g.Admits w r user o ∧
        g.require.Forwards r w (r.withUser user) { w with outside := o } id) ∨
      ((∀ user s, ¬ g.Admits w r user s) ∧
        g.require.Answers r w (g.turnAway r (g.staleJar r))
          (Act.record g.metered Metrics.recordAuthFailure { w with outside := o }).2) := by
  obtain ⟨o, ⟨user, identified, admits⟩ | ⟨session, identified, unknown, nobody⟩⟩ :=
    g.identify_cases r w
  · exact ⟨o, .inl ⟨user, admits, require_of_known identified⟩⟩
  · exact ⟨o, .inr ⟨nobody, require_of_unknown identified unknown⟩⟩

/-- The layer runs its handler for users. -/
theorem require_runs_iff (g : Gate ω) (r : Request) (w : World ω) :
    g.require.Runs r w ↔ ∃ user o, g.Admits w r user o := by
  obtain ⟨o, ⟨user, admits, forwards⟩ | ⟨nobody, answers⟩⟩ := g.require_cases r w
  · exact iff_of_true forwards.runs ⟨user, o, admits⟩
  · exact iff_of_false answers.not_runs fun ⟨user, s, admits⟩ => nobody user s admits

/-- The other layer runs its handler in any case. -/
theorem optional_cases (g : Gate ω) (r : Request) (w : World ω) :
    ∃ o, (∃ user, g.optional.Forwards r w (r.withUser user) { w with outside := o }
        (g.jarOf r).apply) ∨
      g.optional.Forwards r w r { w with outside := o } (g.staleJar r).apply := by
  obtain ⟨o, ⟨user, identified, -⟩ | ⟨session, identified, unknown, -⟩⟩ := g.identify_cases r w
  · exact ⟨o, .inl ⟨user, optional_of_known identified⟩⟩
  · exact ⟨o, .inr (optional_of_unknown identified unknown)⟩

/-- **The gate lets exactly the users in.** The layer runs its handler, and that
once, exactly when the session cookie of the request has a token that is
accepted. The handler then sees the user, whose id is not nil, and the profile of
that user. Every other request is turned away. -/
theorem require_lets_users_in (g : Gate ω) (usable : (Value.ofText? g.loginPath).isSome)
    (r : Request) (w : World ω) :
    (g.require.Runs r w ↔ ∃ user o, g.Admits w r user o) ∧
      (∀ user o, g.Admits w r user o → user.id ≠ Uuid.nil ∧
        g.require.Forwards r w
          { r with context := { r.context with user := some user, profile := some user.profile } }
          { w with outside := o } id) ∧
      ((¬ ∃ user o, g.Admits w r user o) →
        ∃ response after, g.require.Answers r w response after ∧
          g.TurnsAway r w response after) := by
  obtain ⟨o, ⟨user, admits, forwards⟩ | ⟨nobody, answers⟩⟩ := g.require_cases r w
  · refine ⟨⟨fun _ => ⟨user, o, admits⟩, fun _ => forwards.runs⟩, fun u s h => ?_,
      fun nobody => absurd ⟨user, o, admits⟩ nobody⟩
    obtain ⟨token, session, accepts⟩ := admits
    obtain ⟨token', session', accepts'⟩ := h
    cases session.symm.trans session'
    obtain ⟨rfl, rfl⟩ := accepts.unique accepts'
    obtain ⟨validate, claims, o₁, -, -, names⟩ := accepts
    exact ⟨names.id_ne_nil, forwards⟩
  · refine ⟨⟨fun runs => absurd runs answers.not_runs,
        fun ⟨user, s, admits⟩ => absurd admits (nobody user s)⟩,
      fun user s h => absurd h (nobody user s), fun _ => ⟨_, _, answers, ?_⟩⟩
    refine turnsAway_turnAway usable ⟨o, ?_⟩
    rw [Act.record_apply]
    cases g.metered <;> rfl

/-- A gate that knows everyone by name only, and whose resolver knows nobody. -/
def forgetful : Gate Unit where
  validator := some fun _ _ w => (.ready (Claims.ofId Uuid.nil), w)
  resolver := some fun _ _ _ w => (.ready Uuid.nil, w)
  metered := true

/-- A request for a protected page with a session. -/
def visit : Request where
  method := "GET"
  target := ⟨none, none, "/workspaces", none⟩
  headers := [("cookie", Bytes.ofText "theme=dark; flowra_session=abc")]

/-- A nil id does not get through, not even from the resolver. The session is
cleared and the path is kept. -/
theorem nil_id_is_turned_away :
    (Value.ofText? forgetful.loginPath).isSome ∧ ¬ forgetful.require.Runs visit (.fresh ()) ∧
      ∃ response after, forgetful.require.Answers visit (.fresh ()) response after ∧
        response.status = 302 ∧
        response.Sets [Setting.cleared "flowra_session" false,
          ⟨"flowra_redirect", "/workspaces", true, false, 300⟩] ∧
        after.metrics.authFailures = 1 := by
  have usable : (Value.ofText? forgetful.loginPath).isSome := by decide
  obtain ⟨runs, -, turned⟩ := require_lets_users_in forgetful usable visit (.fresh ())
  have nobody : ¬ ∃ user o, forgetful.Admits (.fresh ()) visit user o := by
    rintro ⟨user, o, token, -, validate, claims, o₁, active, asked, names⟩
    obtain rfl := Option.some.inj active
    obtain rfl := Reply.ready.inj (Prod.mk.inj asked).1
    cases names with
    | known known => exact known rfl
    | resolved _ has asked known =>
        obtain rfl := Option.some.inj has
        exact known (Reply.ready.inj (Prod.mk.inj asked).1).symm
  obtain ⟨response, after, answers, away⟩ := turned nobody
  obtain ⟨o, counted⟩ := away.counted
  have cookies : forgetful.stale visit ++ forgetful.detour visit =
      [Setting.cleared "flowra_session" false,
        ⟨"flowra_redirect", "/workspaces", true, false, 300⟩] := by decide
  refine ⟨usable, fun ran => nobody (runs.mp ran), response, after, answers,
    (away.page (by decide)).1, cookies ▸ away.cookies, ?_⟩
  rw [counted]
  rfl

end Gate

end Gatehouse.Auth
