import Gatehouse.Proofs.App.Watch
import Gatehouse.Proofs.Auth.Require
import Gatehouse.Proofs.Limit.Workspace

/-!
Stages, and the layers that go through them.

A stage counts a key, of which so many pass, or refuses everyone. A request goes
down a list of stages until one refuses it, which for a count depends on the reply
of the store (`Fares`). A layer is compared with its stages, watched and unwatched
at once (`Walks`): either it runs its handler once, and every stage was passed, or
it answers by itself, and the last count is that of the stage that refused.

* `Walks.comp` puts the stages of one layer behind those of another.
* `Limit.Limiter.walks` has a limiter go through the stage of its key, and
  `Limit.extractWorkspace_of_error` a request with a malformed workspace refused.
* `Auth.Gate.require_walks` has the gate refuse whoever is no user.
-/

namespace Gatehouse

open Http Auth Limit

/-! ### Stages -/

/-- Why a request is refused before its route. -/
inductive Refusal where
  | limited
  | signedOut
  | malformed
  deriving DecidableEq, Repr

namespace Refusal

/-- The status of a refusal, where there is one only. -/
def status? : Refusal → Option Nat
  | limited => some 429
  | signedOut => none
  | malformed => some 400

/-- The response tells of the refusal. -/
def Tells (why : Refusal) (response : Response) : Prop :=
  ∀ status, why.status? = some status → response.status = status

end Refusal

/-- A stage counts a key, of which so many pass, or refuses everyone. -/
inductive Stage where
  | count (key : String) (cap : Nat)
  | refuse (why : Refusal)
  deriving DecidableEq, Repr

/-- How a request fares: what is counted for it, and what refuses it, if anything
does. A count refuses it by a number past the cap; a store that does not say passes
it. -/
inductive Fares : List Stage → Log → Option Refusal → Prop where
  | done : Fares [] [] none
  | passes {key : String} {cap : Nat} {reply : Reply String Nat} {rest : List Stage} {counts : Log}
      {why : Option Refusal} : (∀ n, reply = .ready n → n ≤ cap) → Fares rest counts why →
      Fares (.count key cap :: rest) ((key, reply) :: counts) why
  | exceeds {key : String} {cap n : Nat} {rest : List Stage} : cap < n →
      Fares (.count key cap :: rest) [(key, .ready n)] (some .limited)
  | refuses {why : Refusal} {rest : List Stage} : Fares (.refuse why :: rest) [] (some why)

theorem Fares.append {stages rest : List Stage} {counts more : Log} {why : Option Refusal}
    (h : Fares stages counts none) (h' : Fares rest more why) :
    Fares (stages ++ rest) (counts ++ more) why := by
  generalize verdict : (none : Option Refusal) = passed at h
  induction h with
  | done => exact h'
  | passes within _ ih => exact .passes within (ih verdict)
  | exceeds _ => cases verdict
  | refuses => cases verdict

/-- What stands behind the stage that refuses does not matter. -/
theorem Fares.append_of_some {stages : List Stage} {counts : Log} {why : Refusal}
    (h : Fares stages counts (some why)) (rest : List Stage) :
    Fares (stages ++ rest) counts (some why) := by
  generalize verdict : some why = refused at h ⊢
  induction h with
  | done => cases verdict
  | passes within _ ih => exact .passes within (ih verdict)
  | exceeds past => exact .exceeds past
  | refuses => exact .refuses

/-- Whoever is not refused was counted at every stage, and within its cap. -/
theorem Fares.mem_of_count {stages : List Stage} {counts : Log} (h : Fares stages counts none)
    {key : String} {cap : Nat} (mem : .count key cap ∈ stages) :
    ∃ reply, (key, reply) ∈ counts ∧ ∀ n, reply = .ready n → n ≤ cap := by
  generalize verdict : (none : Option Refusal) = passed at h
  induction h with
  | done => exact absurd mem List.not_mem_nil
  | @passes own cap' reply rest counts why within _ ih =>
      rcases List.mem_cons.mp mem with first | later
      · cases first
        exact ⟨reply, List.mem_cons_self, within⟩
      · obtain ⟨reply', mem', within'⟩ := ih later verdict
        exact ⟨reply', List.mem_cons_of_mem _ mem', within'⟩
  | exceeds _ => cases verdict
  | refuses => cases verdict

/-- Whoever gets past stages in a row gets past those in front and past the others. -/
theorem Fares.of_append {stages rest : List Stage} {counts : Log}
    (h : Fares (stages ++ rest) counts none) :
    ∃ front back, counts = front ++ back ∧ Fares stages front none ∧ Fares rest back none := by
  induction stages generalizing counts with
  | nil => exact ⟨[], counts, rfl, .done, h⟩
  | cons stage stages ih =>
      cases h with
      | passes within later =>
          obtain ⟨front, back, rfl, passed, last⟩ := ih later
          exact ⟨_ :: front, back, rfl, .passes within passed, last⟩

/-- What is counted is the key of a stage. -/
theorem Fares.exists_stage {stages : List Stage} {counts : Log} {why : Option Refusal}
    (h : Fares stages counts why) {key : String} {reply : Reply String Nat}
    (mem : (key, reply) ∈ counts) : ∃ cap, .count key cap ∈ stages := by
  induction h with
  | done => exact absurd mem List.not_mem_nil
  | @passes own cap _ _ _ _ _ _ ih =>
      rcases List.mem_cons.mp mem with first | later
      · cases first
        exact ⟨cap, List.mem_cons_self⟩
      · obtain ⟨cap, mem⟩ := ih later
        exact ⟨cap, List.mem_cons_of_mem _ mem⟩
  | @exceeds own cap _ _ _ =>
      cases List.mem_singleton.mp mem
      exact ⟨cap, List.mem_cons_self⟩
  | refuses => exact absurd mem List.not_mem_nil

/-- Stages that count refuse by a limit only. -/
theorem Fares.eq_limited {stages : List Stage} {counts : Log} {why : Refusal}
    (h : Fares stages counts (some why)) (only : ∀ why, .refuse why ∉ stages) : why = .limited := by
  generalize verdict : some why = refused at h
  induction h with
  | done => cases verdict
  | passes _ _ ih => exact ih (fun why mem => only why (List.mem_cons_of_mem _ mem)) verdict
  | exceeds _ => exact Option.some.inj verdict
  | refuses => exact absurd List.mem_cons_self (only _)

/-! ### Layers and their stages -/

section Walks

variable {ω : Type} {layer first second : Layer ω} {layer' first' second' : Layer (Log × ω)}
  {r mid seen : Request} {w inner : World ω} {stages more : List Stage} {f : Response → Response}
  {why : Refusal} {response : Response}

/-- A layer goes through stages: it runs its handler once, on the request `seen`,
when they are all passed, and answers by itself when one refuses. Watched, it does
the same, and notes what is counted. -/
inductive Walks (layer' : Layer (Log × ω)) (layer : Layer ω) (r : Request) (w : World ω)
    (seen : Request) (stages : List Stage) : Prop where
  | through {counts : Log} {inner : World ω} {f : Response → Response} :
      Fares stages counts none → (∀ response, (f response).status = response.status) →
      layer.Forwards r w seen inner f →
      (∀ log, layer'.Forwards r (w.logging log) seen (inner.logging (log ++ counts)) f) →
      Walks layer' layer r w seen stages
  | refused {counts : Log} {why : Refusal} {response : Response} {after : World ω} :
      Fares stages counts (some why) → why.Tells response →
      layer.Answers r w response after →
      (∀ log, layer'.Answers r (w.logging log) response (after.logging (log ++ counts))) →
      Walks layer' layer r w seen stages

/-- A layer without stages lets everyone through. -/
theorem Walks.pass (keeps : ∀ response, (f response).status = response.status)
    (forwards : layer.Forwards r w seen inner f)
    (forwards' : ∀ log, layer'.Forwards r (w.logging log) seen (inner.logging log) f) :
    Walks layer' layer r w seen [] :=
  .through .done keeps forwards fun log => (List.append_nil log).symm ▸ forwards' log

theorem Walks.refuse (tells : why.Tells response) (answers : layer.Answers r w response inner)
    (answers' : ∀ log, layer'.Answers r (w.logging log) response (inner.logging log)) :
    Walks layer' layer r w seen [.refuse why] :=
  .refused .refuses tells answers fun log => (List.append_nil log).symm ▸ answers' log

/-- Layers that do the same to a request go through the same stages. -/
theorem Walks.of_eq {other : Layer ω} {other' : Layer (Log × ω)}
    (h : Walks other' other r w seen stages) (same : ∀ next, layer next r w = other next r w)
    (same' : ∀ log next, layer' next r (w.logging log) = other' next r (w.logging log)) :
    Walks layer' layer r w seen stages := by
  cases h with
  | through fares keeps forwards forwards' =>
      exact .through fares keeps (fun next => (same next).trans (forwards next))
        fun log next => (same' log next).trans (forwards' log next)
  | refused fares tells answers answers' =>
      exact .refused fares tells (fun next => (same next).trans (answers next))
        fun log next => (same' log next).trans (answers' log next)

/-- The stages of a layer come before those of the layer that it stands around. -/
theorem Walks.comp (h : Walks first' first r w mid stages)
    (h' : ∀ inner f, first.Forwards r w mid inner f → Walks second' second mid inner seen more) :
    Walks (fun next => first' (second' next)) (fun next => first (second next)) r w seen
      (stages ++ more) := by
  cases h with
  | refused fares tells answers answers' =>
      exact .refused (fares.append_of_some more) tells (fun next => answers (second next))
        fun log next => answers' log (second' next)
  | @through counts inner f fares keeps forwards forwards' =>
      have forward : ∀ next, first (second next) r w =
          (f (second next mid inner).1, (second next mid inner).2) :=
        fun next => forwards (second next)
      have forward' : ∀ log next, first' (second' next) r (w.logging log) =
          (f (second' next mid (inner.logging (log ++ counts))).1,
            (second' next mid (inner.logging (log ++ counts))).2) :=
        fun log next => forwards' log (second' next)
      cases h' inner f forwards with
      | @through counts₂ inner₂ f₂ fares₂ keeps₂ forwards₂ forwards₂' =>
          have both : Layer.Forwards (fun next => first (second next)) r w seen inner₂ (f ∘ f₂) :=
            fun next => (forward next).trans (by rw [forwards₂ next]; rfl)
          refine .through (fares.append fares₂) ?_ both fun log next => (forward' log next).trans ?_
          · exact fun response => (keeps (f₂ response)).trans (keeps₂ response)
          · rw [forwards₂' (log ++ counts) next, List.append_assoc]
            rfl
      | @refused counts₂ why response after fares₂ tells₂ answers₂ answers₂' =>
          have both : Layer.Answers (fun next => first (second next)) r w (f response) after :=
            fun next => (forward next).trans (by rw [answers₂ next])
          refine .refused (fares.append fares₂) ?_ both fun log next => (forward' log next).trans ?_
          · exact fun status is => (keeps response).trans (tells₂ status is)
          · rw [answers₂' (log ++ counts) next, List.append_assoc]

/-- What stands behind a layer that refuses everyone does not matter. -/
theorem Walks.comp_refuse (h : Walks first' first r w mid [.refuse why])
    (second' : Layer (Log × ω)) (second : Layer ω) (seen : Request) :
    Walks (fun next => first' (second' next)) (fun next => first (second next)) r w seen
      [.refuse why] := by
  cases h with
  | through fares _ _ _ => cases fares
  | refused fares tells answers answers' =>
      exact .refused fares tells (fun next => answers (second next))
        fun log next => answers' log (second' next)

/-- Around a silent handler, a layer that goes through stages counts as the request
fares. -/
theorem Walks.counts (h : Walks layer' layer r w seen stages) {next' : Handler (Log × ω)}
    {next : Handler ω} (silent : Act.Silent (next' seen) (next seen)) :
    ∃ counts why, Fares stages counts why ∧ (why = none ↔ layer.Runs r w) ∧
      ∀ log, layer' next' r (w.logging log) =
        ((layer next r w).1, (layer next r w).2.logging (log ++ counts)) := by
  cases h with
  | @through counts inner f fares keeps forwards forwards' =>
      refine ⟨counts, none, fares, iff_of_true rfl forwards.runs, fun log => ?_⟩
      rw [forwards next, forwards' log next', silent inner (log ++ counts)]
  | @refused counts why response after fares tells answers answers' =>
      refine ⟨counts, some why, fares, iff_of_false nofun answers.not_runs, fun log => ?_⟩
      rw [answers next, answers' log next']

end Walks

namespace Limit

variable {ω : Type}

namespace Limiter

variable (l : Limiter ω) (r : Request) (w : World ω)

/-- The stage of a limiter, if it counts the request. -/
def stages : List Stage :=
  match l.store, l.keyFor r with
  | some _, some key => [.count key (l.capFor r)]
  | _, _ => []

/-- A limiter counts its key, and refuses a request past the cap. -/
theorem gate_walks (plain : l.onExceed = none) (store : Store ω) (key : String) :
    Walks (l.watched.gate store.watched key) (l.gate store key) r w r
      [.count key (l.capFor r)] := by
  have noted := fun log => check_watched store l.deadline key (l.capFor r) l.window w log
  rcases check_cases store l.deadline key (l.capFor r) l.window w with
    ⟨win, reply, cap, checked⟩ | ⟨silent, fault, checked⟩
  · rw [reply, checked] at noted
    by_cases past : win.cap < win.count
    · refine .refused (.exceeds (cap ▸ past)) ?_ (l.gate_of_past r w checked past) fun log => ?_
      · rintro status ⟨⟩
        exact status_reject r plain win
      · have answers := l.watched.gate_of_past r (w.logging log) (noted log) past
        rwa [Act.record_logging] at answers
    · have within := Nat.le_of_not_lt past
      have passes : ∀ n, Reply.ready (ε := String) win.count = .ready n → n ≤ l.capFor r := by
        rintro n ⟨⟩
        exact cap ▸ within
      refine .through (.passes passes .done) ?_ (l.gate_of_within r w checked within) fun log => ?_
      · exact fun response => Response.status_mapHeaders _ response
      · exact l.watched.gate_of_within r (w.logging log) (noted log) within
  · rw [checked] at noted
    refine .through (.passes (fun n is => absurd is (silent n)) .done) (fun _ => rfl)
      (l.gate_of_error r w checked) fun log => ?_
    have forwards := l.watched.gate_of_error r (w.logging log) (noted log)
    rwa [Act.record_logging] at forwards

/-- A limiter that has a store and a key goes through the stage of that key. -/
theorem walks (plain : l.onExceed = none) :
    Walks l.watched.guard l.guard r w r (l.stages r) := by
  have idle (h : l.store = none ∨ l.keyFor r = none) : Walks l.watched.guard l.guard r w r [] := by
    have idle' : l.watched.store = none ∨ l.watched.keyFor r = none :=
      h.imp (fun has => by rw [watched, has, Option.map_none]) id
    exact .pass (fun _ => rfl) (Layer.forwards_id (l.guard_of_uncounted r w h))
      fun log => Layer.forwards_id (l.watched.guard_of_uncounted r (w.logging log) idle')
  unfold stages
  cases has : l.store with
  | none => exact idle (.inl has)
  | some store =>
      cases counted : l.keyFor r with
      | none => exact idle (.inr counted)
      | some key =>
          have has' : l.watched.store = some store.watched := by rw [watched, has, Option.map_some]
          exact (l.gate_walks r w plain store key).of_eq (l.guard_of_counted r w has counted)
            fun log => l.watched.guard_of_counted r (w.logging log) has' counted

end Limiter

section Workspaces

variable {ω : Type} {r : Request} (w : World ω)

theorem status_of_workspaceOf {fault : Fault} (h : workspaceOf r = .error fault) :
    fault.status = 400 := by
  unfold workspaceOf workspaceText? at h
  grind [Fault.status]

theorem extractWorkspace_of_ok {found : Option Uuid} (named : workspaceOf r = .ok found) :
    Walks extractWorkspace extractWorkspace r w ((found.map r.withWorkspace).getD r) [] := by
  have forwards : ∀ {ω : Type} (w : World ω), extractWorkspace.Forwards r w
      ((found.map r.withWorkspace).getD r) w id := by
    intro ω w
    refine Layer.forwards_id fun next => ?_
    cases found <;> simp [extractWorkspace, named]
  exact .pass (fun _ => rfl) (forwards w) fun log => forwards (w.logging log)

theorem extractWorkspace_of_error {fault : Fault} (named : workspaceOf r = .error fault)
    (seen : Request) : Walks extractWorkspace extractWorkspace r w seen [.refuse .malformed] := by
  have answers : ∀ {ω : Type} (w : World ω), extractWorkspace.Answers r w fault.response w := by
    intro ω w next
    simp [extractWorkspace, named]
  refine .refuse ?_ (answers w) fun log => answers (w.logging log)
  rintro status ⟨⟩
  exact status_of_workspaceOf named

end Workspaces

end Limit

/-! ### The gate -/

namespace Auth.Gate

variable {ω : Type} (g : Gate ω) (r : Request) (w : World ω)

/-- Watched, a gate finds out the same. -/
theorem identify_watched {found : Session × Jar} {inner : World ω}
    (identified : g.identify (g.jarOf r) w = (found, inner)) (log : Log) :
    g.watched.identify (g.watched.jarOf r) (w.logging log) = (found, inner.logging log) :=
  (g.silent_identify (g.jarOf r) w log).trans (by rw [identified])

/-- The gate refuses whoever is no user. -/
theorem require_walks :
    ∃ user? : Option User, (∀ user, user? = some user ↔ ∃ o, g.Admits w r user o) ∧
      Walks g.watched.require g.require r w ((user?.map r.withUser).getD r)
        (match user? with | some _ => [] | none => [.refuse .signedOut]) := by
  obtain ⟨o, ⟨user, identified, admits⟩ | ⟨session, identified, unknown, nobody⟩⟩ :=
    g.identify_cases r w
  · have watched := g.identify_watched r w identified
    refine ⟨some user, fun u => ?_, .pass (fun _ => rfl) (require_of_known identified)
      fun log => require_of_known (watched log)⟩
    constructor
    · rintro ⟨⟩
      exact ⟨o, admits⟩
    · rintro ⟨s, admits'⟩
      exact congrArg some (admits'.unique admits).1
  · have watched := g.identify_watched r w identified
    refine ⟨none, fun u => ?_, .refuse nofun (require_of_unknown identified unknown) fun log => ?_⟩
    · exact ⟨nofun, fun ⟨s, admits⟩ => absurd admits (nobody u s)⟩
    · have answers := require_of_unknown (watched log) unknown
      rwa [Act.record_logging] at answers

/-- The other layer of the gate refuses nobody. -/
theorem optional_walks : ∃ seen, Walks g.watched.optional g.optional r w seen [] := by
  obtain ⟨o, ⟨user, identified, -⟩ | ⟨session, identified, unknown, -⟩⟩ := g.identify_cases r w
  · have watched := g.identify_watched r w identified
    exact ⟨_, .pass (Jar.status_apply _) (optional_of_known identified)
      fun log => optional_of_known (watched log)⟩
  · have watched := g.identify_watched r w identified
    exact ⟨_, .pass (Jar.status_apply _) (optional_of_unknown identified unknown)
      fun log => optional_of_unknown (watched log) unknown⟩

end Auth.Gate

end Gatehouse
