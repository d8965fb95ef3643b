import Gatehouse.Proofs.App.DeepLinks
import Gatehouse.Proofs.Limit.Keys

/-!
Pages of one workspace.

The layer in front of such a page takes the workspace from a header, or else from the
path as it stands there. The page itself takes it from the path once that is decoded.
Both read the same spellings (`Uuid.Spells`), and the page is shown only where they read
one identifier.

* `workspaceOf_eq_ok_iff` is what the layer in front finds out, and `workspaceBody_cases` what
  the page makes of it.
* `limited_ending` has the ways in which a request for a protected route may end.
* `named_of_charged` and `chargedOnce_of_fares` say whose counter is charged.
* `workspace_page_names_one` puts these together.
-/

namespace Gatehouse

open Http Auth Limit
open Response (Marks)

/-! ### Names of a workspace -/

namespace Limit

/-- The value of the header spells the identifier, between blanks. -/
def HeaderNames (v : Value) (id : Uuid) : Prop :=
  ∃ text, v.text? = some text ∧ id.Spells (Text.trim text).toList

/-- A request for a segment is charged to a workspace: that of its first header, or without
a header that of the segment as it stands in the path. -/
inductive Charges (r : Request) (segment : String) (id : Uuid) : Prop
  | header {v : Value} : r.headers.get? workspaceHeader = some v → HeaderNames v id →
      Charges r segment id
  | path : r.headers.get? workspaceHeader = none → id.Spells segment.toList →
      Charges r segment id

/-- The segment spells the identifier once it is decoded. -/
def SegmentNames (segment : String) (id : Uuid) : Prop :=
  ∃ text, Text.Percent.decodeText? segment = some text ∧ id.Spells text.toList

/-- The workspace that is charged is the one that the decoded segment spells. -/
def NamesOne (r : Request) (segment : String) : Prop :=
  ∃ id, Charges r segment id ∧ SegmentNames segment id

variable {r : Request} {segment : String} {id other : Uuid}

theorem HeaderNames.unique {v : Value} (h : HeaderNames v id) (h' : HeaderNames v other) :
    id = other := by
  obtain ⟨text, read, spells⟩ := h
  obtain ⟨_, read', spells'⟩ := h'
  cases read.symm.trans read'
  exact spells'.unique spells

theorem charges_of_header {v : Value} (sent : r.headers.get? workspaceHeader = some v) :
    Charges r segment id ↔ HeaderNames v id := by
  refine ⟨?_, .header sent⟩
  rintro (⟨sent', names⟩ | ⟨unsent, -⟩)
  · cases sent.symm.trans sent'
    exact names
  · cases sent.symm.trans unsent

theorem charges_of_path (unsent : r.headers.get? workspaceHeader = none) :
    Charges r segment id ↔ id.Spells segment.toList := by
  refine ⟨?_, .path unsent⟩
  rintro (⟨sent, -⟩ | ⟨-, spells⟩)
  · cases unsent.symm.trans sent
  · exact spells

theorem Charges.unique (h : Charges r segment id) (h' : Charges r segment other) : id = other := by
  cases sent : r.headers.get? workspaceHeader with
  | none => exact ((charges_of_path sent).mp h').unique ((charges_of_path sent).mp h)
  | some v => exact ((charges_of_header sent).mp h).unique ((charges_of_header sent).mp h')

/-- A segment that spells an identifier as it stands in the path is not encoded. -/
theorem segmentNames_of_spells (h : id.Spells segment.toList) : SegmentNames segment id :=
  ⟨segment, h.decodeText?_eq, h⟩

theorem workspaceOf_of_text {named : Option Uuid} {text : String}
    (h : workspaceText? r = .ok (some text)) :
    workspaceOf r = .ok named ↔ ∃ id, named = some id ∧ id.Spells text.toList := by
  simp only [workspaceOf, h, ← Uuid.read?_eq_some_iff]
  cases Uuid.read? text <;> simp [eq_comm]

/-- Whoever asks for a segment names the workspace that is charged, or is refused. -/
theorem workspaceOf_eq_ok_iff {named : Option Uuid}
    (found : workspaceSegment? r.path = some segment) :
    workspaceOf r = .ok named ↔ ∃ id, named = some id ∧ Charges r segment id := by
  cases sent : r.headers.get? workspaceHeader with
  | none =>
      simp only [charges_of_path sent]
      exact workspaceOf_of_text (by rw [workspaceText?, sent, found])
  | some v =>
      simp only [charges_of_header sent, HeaderNames]
      cases read : v.text? with
      | none => simp [workspaceOf, workspaceText?, sent, read]
      | some text =>
          have told : workspaceText? r = .ok (some (Text.trim text)) := by
            simp only [workspaceText?, sent, read]
          rw [workspaceOf_of_text told]
          simp

/-- The segment of a route is that of the layer in front. -/
theorem workspaceSegment?_of_route {path : String}
    (route : Route.ofPath? path = some (.workspace segment)) :
    workspaceSegment? path = some segment := by
  rw [Route.ofPath?] at route
  split at route
  · rename_i own found
    obtain ⟨front, rest, entries, -⟩ := List.lookup_eq_some_iff.mp found
    have mem : (path, own) ∈ Route.fixed := by simp [entries]
    cases Option.some.inj route
    simp [Route.fixed] at mem
  · split at route
    · rename_i pieces
      split at route
      · cases route
      · rename_i filled
        cases Option.some.inj route
        simp [workspaceSegment?, pieces, filled]
    · cases route

/-- A key of a workspace has one colon, and that of an endpoint has two or more. -/
theorem keyOf_ne_endpointKey (id : Uuid) (r : Request) :
    WorkspaceLimiter.keyOf id ≠ KeyRule.endpointKey r := by
  intro same
  have chars := congrArg (List.count ':' ·.toList) same
  have bare : List.count ':' id.write.toList = 0 :=
    List.count_eq_zero_of_not_mem id.colon_notMem_write
  rw [toList_endpointKey] at chars
  simp [WorkspaceLimiter.keyOf, String.toList_append, bare] at chars
  omega

theorem extractWorkspace_apply {ω : Type} {named : Option Uuid} (h : workspaceOf r = .ok named)
    (next : Handler ω) : extractWorkspace next r = next ((named.map r.withWorkspace).getD r) := by
  cases named <;> simp [extractWorkspace, h]

end Limit

namespace App

variable {ω : Type} (app : App ω) {r : Request} {w : World ω} {segment : String} {id : Uuid}

/-! ### The page -/

/-- What shows that a user looks at a workspace. -/
def pageBody (id : Uuid) (user : User) : Body :=
  .json (.object [("workspace_id", .text id.write), ("user_id", .text user.id.write)])

/-- The page is shown of the workspace that the segment spells, and else refused. -/
theorem workspaceBody_cases (segment : String) (id : Uuid) (user : User) :
    (SegmentNames segment id ∧ (workspaceBody segment (some id) user).status = 200 ∧
        (workspaceBody segment (some id) user).body = pageBody id user) ∨
      (¬ SegmentNames segment id ∧ (workspaceBody segment (some id) user).status = 400) := by
  unfold workspaceBody SegmentNames
  simp only [← Uuid.read?_eq_some_iff]
  cases Text.Percent.decodeText? segment with
  | none => exact .inr ⟨by simp, rfl⟩
  | some text =>
      by_cases read : Uuid.read? text = some id
      · simp only [if_pos read]
        exact .inl ⟨⟨text, rfl, read⟩, rfl, rfl⟩
      · simp only [if_neg read]
        exact .inr ⟨by simpa using read, rfl⟩

/-! ### Ways to end -/

/-- A request as its route sees it. -/
def seenBy (r : Request) (user : User) (named : Option Uuid) : Request :=
  (named.map (r.withUser user).withWorkspace).getD (r.withUser user)

/-- How a request for a protected route ends: a limiter rejects it, the gate turns it away,
its workspace has no proper name, or it reaches the route. -/
inductive Ending (app : App ω) (r : Request) (w : World ω) (response : Response) : Prop
  | rejected : response.status = 429 → Ending app r w response
  | signedOut {inner : World ω} {f : Response → Response} : app.entry.Forwards r w r inner f →
      (∀ user o, ¬ app.meteredGate.Admits inner r user o) → response.status ≠ 200 →
      Ending app r w response
  | malformed {inner : World ω} {f : Response → Response} {user : User} {o : ω} {fault : Fault} :
      app.entry.Forwards r w r inner f → app.meteredGate.Admits inner r user o →
      workspaceOf r = .error fault → response.status = 400 → Ending app r w response
  | handled {inner last : World ω} {f g : Response → Response} {user : User} {o : ω}
      {named : Option Uuid} : app.entry.Forwards r w r inner f →
      app.meteredGate.Admits inner r user o → workspaceOf r = .ok named → Marks g →
      response = g (app.routeFor r (seenBy r user named) last).1 → Ending app r w response

theorem status_turnAway_ne (g : Gate ω) (r : Request) (jar : Jar) :
    (g.turnAway r jar).status ≠ 200 := by
  have found : ∀ location, (Response.found location).status ≠ 200 := by
    intro location
    rw [Response.found]
    split
    · exact fun same => absurd same (by simp [Response.bare])
    · decide
  rw [Gate.turnAway]
  split
  · rw [Jar.status_apply, Response.status_insertText]
    decide
  · rw [Jar.status_apply]
    exact found _

/-- Behind the gate a user is counted, names a workspace, is counted for it, and reaches the
route. -/
theorem protection_of_admits {user : User} {o : ω} (admits : app.meteredGate.Admits w r user o)
    (next : Handler ω) :
    (app.protection next r w).1.status = 429 ∨
      (∃ fault, workspaceOf r = .error fault ∧ (app.protection next r w).1.status = 400) ∨
      ∃ named last g, workspaceOf r = .ok named ∧ Marks g ∧
        (app.protection next r w).1 = g (next (seenBy r user named) last).1 := by
  obtain ⟨o', ⟨user', admits', known⟩ | ⟨nobody, -⟩⟩ := app.meteredGate.require_cases r w
  · obtain ⟨rfl, -⟩ := admits'.unique admits
    rw [protection, known, id]
    obtain ⟨inner, f, forwards, marks⟩ | ⟨win, after, answers⟩ :=
      app.userLimiter.guard_marks (r.withUser user) { w with outside := o' }
    · rw [forwards, marks.status]
      cases named : workspaceOf r with
      | error fault =>
          have refused : extractWorkspace (app.workspaceLimiter.guard next) (r.withUser user)
              inner = (fault.response, inner) := by
            rw [extractWorkspace, show workspaceOf (r.withUser user) = .error fault from named]
            rfl
          rw [refused]
          exact .inr (.inl ⟨fault, rfl, status_of_workspaceOf named⟩)
      | ok found =>
          have named' : workspaceOf (r.withUser user) = .ok found := named
          rw [extractWorkspace_apply named', WorkspaceLimiter.guard_eq]
          obtain ⟨last, g, forwards', marks'⟩ | ⟨win, after, answers⟩ :=
            app.workspaceLimiter.asLimiter.guard_marks (seenBy r user found) inner
          · rw [← seenBy, forwards']
            exact .inr (.inr ⟨found, last, f ∘ g, rfl, marks.comp marks', rfl⟩)
          · rw [← seenBy, answers]
            exact .inl (Limiter.status_reject _ rfl win)
    · rw [answers]
      exact .inl (Limiter.status_reject _ rfl win)
  · exact absurd admits (nobody user o)

/-- A request for a protected route ends in one of these ways. -/
theorem limited_ending (guarded : isProtected r = true) (w : World ω) :
    Ending app r w (app.limited r w).1 := by
  rw [limited_eq, around, inner_of_protected app guarded]
  obtain ⟨inner, f, forwards, marks⟩ | ⟨response, after, answers, status, -⟩ := app.entry_cases r w
  · rw [forwards]
    obtain ⟨o, ⟨user, admits, -⟩ | ⟨nobody, answers⟩⟩ := app.meteredGate.require_cases r inner
    · obtain rejected | ⟨fault, named, status⟩ | ⟨named, last, g, found, marks', handled⟩ :=
        app.protection_of_admits admits (app.routeFor r)
      · exact .rejected ((marks.status _).trans rejected)
      · exact .malformed forwards admits named ((marks.status _).trans status)
      · exact .handled forwards admits found (marks.comp marks') (congrArg f handled)
    · refine .signedOut forwards nobody ?_
      rw [marks.status, protection, answers]
      exact status_turnAway_ne _ _ _
  · rw [answers]
    exact .rejected status

/-! ### Counters -/

/-- The workspace is charged at the end, and no workspace is charged before. -/
def ChargedOnce (counts : Log) (id : Uuid) : Prop :=
  ∃ before reply, counts = before ++ [(WorkspaceLimiter.keyOf id, reply)] ∧
    ∀ other reply, (WorkspaceLimiter.keyOf other, reply) ∉ before

theorem eq_of_mem_counting {key own : String} {cap most : Nat}
    (mem : .count key cap ∈ app.counting own most) : key = own := by
  unfold counting at mem
  split at mem
  · cases List.mem_singleton.mp mem
    rfl
  · exact absurd mem List.not_mem_nil

theorem count_notMem_counting {own word : String} {cap most : Nat}
    (begins : frontOf? own = some word) (ne : word ≠ "ws") :
    .count (WorkspaceLimiter.keyOf id) cap ∉ app.counting own most := by
  intro mem
  have front : frontOf? (WorkspaceLimiter.keyOf id) = some "ws" :=
    frontOf?_append_of_some (by decide : frontOf? "ws:" = some "ws") _
  rw [app.eq_of_mem_counting mem, begins] at front
  exact ne (Option.some.inj front)

/-- Clients and endpoints have other counters than workspaces. -/
theorem count_notMem_entryStages (id : Uuid) (r : Request) (cap : Nat) :
    .count (WorkspaceLimiter.keyOf id) cap ∉ app.clientStages r ++ app.endpointStages r := by
  simp only [List.mem_append, not_or]
  constructor
  · rw [clientStages]
    split
    · exact List.not_mem_nil
    · exact app.count_notMem_counting
        (frontOf?_append_of_some (by decide : frontOf? "ip:" = some "ip") _) (by decide)
  · rw [endpointStages]
    split
    · exact List.not_mem_nil
    · split
      · exact fun mem => keyOf_ne_endpointKey id r (app.eq_of_mem_counting mem)
      · exact List.not_mem_nil

theorem count_notMem_userStages (id : Uuid) (r : Request) (user : User) (cap : Nat) :
    .count (WorkspaceLimiter.keyOf id) cap ∉ app.userStages r user := by
  rw [userStages]
  split
  · exact List.not_mem_nil
  · exact app.count_notMem_counting
      (frontOf?_append_of_some (by decide : frontOf? "user:" = some "user") _) (by decide)

/-- Only the workspace that a request names is ever charged for it. -/
theorem named_of_charged {user? : Option User} {counts : Log} {why : Option Refusal}
    (fares : Fares (app.stages r user?) counts why) {reply : Reply String Nat}
    (mem : (WorkspaceLimiter.keyOf id, reply) ∈ counts) : workspaceOf r = .ok (some id) := by
  obtain ⟨cap, stage⟩ := fares.exists_stage mem
  obtain early | late := List.mem_append.mp stage
  · exact absurd early (app.count_notMem_entryStages id r cap)
  split at late
  · cases user? with
    | none => cases List.mem_singleton.mp late
    | some user =>
        obtain early | own := List.mem_append.mp late
        · exact absurd early (app.count_notMem_userStages id r user cap)
        · rw [workspaceStages] at own
          split at own
          · rename_i found named
            obtain rfl : id = found := Uuid.write_injective
              ((String.append_right_inj _).mp (app.eq_of_mem_counting own))
            exact named
          · exact absurd own List.not_mem_nil
          · cases List.mem_singleton.mp own
  · exact absurd late List.not_mem_nil

/-- A user who gets past all stages is charged for the workspace that the request names. -/
theorem chargedOnce_of_fares {user? : Option User} {counts : Log} (guarded : isProtected r = true)
    (named : workspaceOf r = .ok (some id)) (counted : app.store.isSome = true)
    (fares : Fares (app.stages r user?) counts none) : ChargedOnce counts id := by
  rw [stages, if_pos guarded] at fares
  obtain ⟨entry, session, rfl, first, fares⟩ := fares.of_append
  cases user? with
  | none => cases fares
  | some user =>
      obtain ⟨own, back, rfl, second, last⟩ := Fares.of_append fares
      rw [workspaceStages, named] at last
      simp only [counting, if_pos counted] at last
      cases last with
      | @passes _ _ reply _ _ _ _ rest =>
          cases rest
          refine ⟨entry ++ own, reply, (List.append_assoc ..).symm, fun other reply mem => ?_⟩
          obtain early | early := List.mem_append.mp mem
          · obtain ⟨cap, stage⟩ := first.exists_stage early
            exact app.count_notMem_entryStages other r cap stage
          · obtain ⟨cap, stage⟩ := second.exists_stage early
            exact app.count_notMem_userStages other r user cap stage

/-- A user who names a workspace is refused by limiters only. -/
theorem eq_limited_of_named {user : User} {counts : Log} {why : Refusal}
    (named : workspaceOf r = .ok (some id))
    (fares : Fares (app.stages r (some user)) counts (some why)) : why = .limited := by
  refine fares.eq_limited fun why mem => ?_
  simp only [stages, sessionStages, clientStages, endpointStages, userStages, workspaceStages,
    counting, named] at mem
  grind

/-! ### The route -/

/-- What the route answers to a user who names a workspace. -/
def pageFor (r : Request) (segment : String) (id : Uuid) (user : User) : Response :=
  if r.method = "GET" ∨ r.method = "HEAD" then workspaceBody segment (some id) user
  else .bare 405

section Route

variable (route : Route.ofPath? r.path = some (.workspace segment))

include route

theorem isProtected_of_workspace : isProtected r = true := by
  rw [isProtected, route]
  rfl

theorem routeFor_of_workspace (user : User) (id : Uuid) (w : World ω) :
    (app.routeFor r (seenBy r user (some id)) w).1 = pageFor r segment id user := by
  have allowed : (Route.workspace segment).methods.contains r.method = true ↔
      r.method = "GET" ∨ r.method = "HEAD" := by simp [Route.methods]
  simp only [routeFor, route, allowed, pageFor]
  split <;> rfl

/-- Whoever gets to the route has named the workspace that is charged. -/
theorem pageFor_of_handled (user : User) (last : World ω) {named : Option Uuid}
    {g : Response → Response} (found : workspaceOf r = .ok named) (marks : Marks g) :
    ∃ id, Charges r segment id ∧
      (g (app.routeFor r (seenBy r user named) last).1).status =
        (pageFor r segment id user).status ∧
      (g (app.routeFor r (seenBy r user named) last).1).body =
        (pageFor r segment id user).body := by
  obtain ⟨id, rfl, charges⟩ := (workspaceOf_eq_ok_iff (workspaceSegment?_of_route route)).mp found
  rw [marks.status, marks.body, routeFor_of_workspace app route]
  exact ⟨id, charges, rfl, rfl⟩

/-- A page is shown to a user, of the one workspace that the request names. -/
theorem exists_of_shown (shown : (app.respond r w).1.status = 200) :
    ∃ inner f user o id, app.entry.Forwards r w r inner f ∧
      app.meteredGate.Admits inner r user o ∧ Charges r segment id ∧ SegmentNames segment id ∧
      (app.respond r w).1.body = if r.method = "HEAD" then .empty else pageBody id user := by
  rw [status_respond] at shown
  cases app.limited_ending (isProtected_of_workspace route) w with
  | rejected status => cases status.symm.trans shown
  | signedOut _ _ other => exact absurd shown other
  | malformed _ _ _ status => cases status.symm.trans shown
  | @handled inner last f g user o named forwards admits found marks answered =>
      obtain ⟨id, charges, status, body⟩ := pageFor_of_handled app route user last found marks
      rw [← answered] at status body
      rw [shown, pageFor] at status
      rw [pageFor] at body
      split at status
      · rename_i allowed
        rw [if_pos allowed] at body
        obtain ⟨shows, -, own⟩ | ⟨-, refused⟩ := workspaceBody_cases segment id user
        · refine ⟨inner, f, user, o, id, forwards, admits, charges, shows, ?_⟩
          have told : tellMethods r (app.limited r w).1 = (app.limited r w).1 := by
            rw [tellMethods, route]
            exact if_pos (by simpa [Route.methods] using allowed)
          rw [respond_apply, told, Response.answering]
          split
          · rfl
          · exact body.trans own
        · cases status.trans refused
      · cases status

/-- A user who is not rejected gets the page, or is told that the request is malformed. -/
theorem status_of_admitted {inner : World ω} {f : Response → Response} {user : User} {o : ω}
    (get : r.method = "GET") (reached : app.entry.Forwards r w r inner f)
    (admits : app.meteredGate.Admits inner r user o) (passed : (app.respond r w).1.status ≠ 429) :
    (NamesOne r segment ∧ (app.respond r w).1.status = 200) ∨
      (¬ NamesOne r segment ∧ (app.respond r w).1.status = 400) := by
  rw [status_respond] at passed ⊢
  cases app.limited_ending (isProtected_of_workspace route) w with
  | rejected status => exact absurd status passed
  | signedOut forwards nobody _ => exact absurd admits (reached.unique forwards ▸ nobody user o)
  | malformed _ _ unnamed status =>
      refine .inr ⟨?_, status⟩
      rintro ⟨id, charges, -⟩
      cases unnamed.symm.trans
        ((workspaceOf_eq_ok_iff (workspaceSegment?_of_route route)).mpr ⟨id, rfl, charges⟩)
  | @handled inner' last f' g user' o' named forwards _ found marks answered =>
      obtain ⟨id, charges, status, -⟩ := pageFor_of_handled app route user' last found marks
      rw [← answered, pageFor, if_pos (.inl get)] at status
      obtain ⟨shows, own, -⟩ | ⟨hidden, own⟩ := workspaceBody_cases segment id user'
      · exact .inl ⟨⟨id, charges, shows⟩, status.trans own⟩
      · refine .inr ⟨?_, status.trans own⟩
        rintro ⟨other, charges', shows⟩
        exact hidden (charges.unique charges' ▸ shows)

/-- Without a header a page is shown of what the segment spells as it stands in the path, so
none of a segment that is encoded. -/
theorem status_of_headerless {inner : World ω} {f : Response → Response} {user : User} {o : ω}
    (get : r.method = "GET") (unsent : r.headers.get? workspaceHeader = none)
    (reached : app.entry.Forwards r w r inner f) (admits : app.meteredGate.Admits inner r user o)
    (passed : (app.respond r w).1.status ≠ 429) :
    (app.respond r w).1.status = 200 ↔ ∃ id : Uuid, id.Spells segment.toList := by
  simp only [← charges_of_path unsent]
  obtain ⟨⟨id, charges, -⟩, shown⟩ | ⟨neither, refused⟩ :=
    status_of_admitted app route get reached admits passed
  · exact iff_of_true shown ⟨id, charges⟩
  · refine iff_of_false (by rw [refused]; decide) ?_
    rintro ⟨id, charges⟩
    exact neither ⟨id, charges, segmentNames_of_spells ((charges_of_path unsent).mp charges)⟩

end Route

/-- **A page of a workspace names one workspace.** Whoever is shown one is a user whose path,
once it is decoded, and whose header, if there is one, spell the identifier that the page
tells, and that workspace is charged and no other. However an identifier is spelled, a request
is charged to no other workspace for it. A user whom no limiter rejects is shown a page if all
names are those of one workspace, and is told of a malformed request if they are not. -/
theorem workspace_page_names_one (app : App ω) {r : Request} {segment : String}
    (arrives : r.context = {}) (route : Route.ofPath? r.path = some (.workspace segment))
    (w : World ω) :
    ∃ user? counts why, app.Passage r w user? counts why ∧
      ((app.respond r w).1.status = 200 → ∃ id user, user? = some user ∧ SegmentNames segment id ∧
        (∀ v, r.headers.get? workspaceHeader = some v → HeaderNames v id) ∧
        (app.respond r w).1.body = (if r.method = "HEAD" then .empty else pageBody id user) ∧
        (app.store.isSome = true → ChargedOnce counts id)) ∧
      (∀ id, Charges r segment id →
        (∀ other reply, (WorkspaceLimiter.keyOf other, reply) ∈ counts → other = id) ∧
          (why = none → app.store.isSome = true → ChargedOnce counts id)) ∧
      (r.method = "GET" → (∃ inner f user o, app.entry.Forwards r w r inner f ∧
          app.meteredGate.Admits inner r user o) → (app.respond r w).1.status ≠ 429 →
        (NamesOne r segment ∧ (app.respond r w).1.status = 200) ∨
          (¬ NamesOne r segment ∧ (app.respond r w).1.status = 400)) := by
  have guarded := isProtected_of_workspace route
  have names : ∀ id, workspaceOf r = .ok (some id) ↔ Charges r segment id := fun id => by
    simp [workspaceOf_eq_ok_iff (workspaceSegment?_of_route route)]
  obtain ⟨-, user?, counts, why, passage⟩ := respond_counts_by_stages app arrives w
  refine ⟨user?, counts, why, passage, fun shown => ?_, fun id charges => ?_, ?_⟩
  · obtain ⟨inner, f, user, o, id, forwards, admits, charges, shows, body⟩ :=
      exists_of_shown app route shown
    have known := (passage.session inner f forwards guarded user).mpr ⟨o, admits⟩
    subst known
    have named := (names id).mpr charges
    refine ⟨id, user, rfl, shows, fun v sent => (charges_of_header sent).mp charges, body,
      fun counted => ?_⟩
    cases why with
    | none => exact app.chargedOnce_of_fares guarded named counted passage.fares
    | some refusal =>
        obtain rfl := app.eq_limited_of_named named passage.fares
        cases shown.symm.trans ((passage.told _ rfl).2 429 rfl)
  · have named := (names id).mpr charges
    refine ⟨fun other reply mem => ?_, ?_⟩
    · have same := (app.named_of_charged passage.fares mem).symm.trans named
      exact Option.some.inj (Except.ok.inj same)
    · rintro rfl counted
      exact app.chargedOnce_of_fares guarded named counted passage.fares
  · rintro get ⟨inner, f, user, o, forwards, admits⟩ passed
    exact status_of_admitted app route get forwards admits passed

/-- A store that counts everything for the first time. -/
def calmStore : Store Unit where
  increment _ _ _ w := (.ready 1, w)
  count _ _ w := (.ready 0, w)
  ttl _ _ w := (.stalled, w)

def calmApp : App Unit :=
  { crowdedApp with store := some calmStore }

/-- A request that spells its workspace in two ways. -/
def spelledVisit : Request where
  method := "GET"
  target := ⟨none, none, "/workspaces/%7BABABABAB-ABAB-ABAB-ABAB-ABABABABABAB%7d", none⟩
  headers := [("cookie", Bytes.ofText "flowra_session=abc"),
    ("x-workspace-id", Bytes.ofText " urn:uuid:abababab-abab-abab-abab-abababababab")]

/-- The workspace of the request. -/
def spelledId : Uuid :=
  ⟨Vector.ofFn fun i => if i.val % 2 = 0 then ⟨10, by decide⟩ else ⟨11, by decide⟩⟩

/-- Both spellings name the workspace that is shown and charged. -/
theorem spelled_visit_charges_once :
    spelledVisit.context = {} ∧
      Route.ofPath? spelledVisit.path =
        some (.workspace "%7BABABABAB-ABAB-ABAB-ABAB-ABABABABABAB%7d") ∧
      (calmApp.respond spelledVisit (.fresh ())).1.status = 200 ∧
      ∃ user? counts why, calmApp.Passage spelledVisit (.fresh ()) user? counts why ∧
        ChargedOnce counts spelledId := by
  have arrives : spelledVisit.context = {} := rfl
  have route : Route.ofPath? spelledVisit.path =
    some (.workspace "%7BABABABAB-ABAB-ABAB-ABAB-ABABABABABAB%7d") := by decide
  have shown : (calmApp.respond spelledVisit (.fresh ())).1.status = 200 := by decide +kernel
  have named : HeaderNames (Bytes.ofText " urn:uuid:abababab-abab-abab-abab-abababababab")
      spelledId := ⟨_, rfl, Uuid.read?_eq_some_iff.mp (by decide)⟩
  obtain ⟨user?, counts, why, passage, page, -⟩ :=
    workspace_page_names_one calmApp arrives route (.fresh ())
  obtain ⟨id, user, -, -, header, -, charged⟩ := page shown
  obtain rfl : id = spelledId := (header _ (by decide)).unique named
  exact ⟨arrives, route, shown, user?, counts, why, passage, charged rfl⟩

end App

end Gatehouse
