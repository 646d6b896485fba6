/-
  Almanac.Proofs.Http.Failures

  What the body of a failed response holds. A request can fail at two stages. It is turned away
  before the calendar is asked: nobody knows its path, the route does not have its method, or its
  parameter cannot be read (`Request.turnedAway?`). Or the calendar is asked and answers with an
  error.

  Only an error of the calendar becomes a `Failure` in JSON. What turns a request away is told in
  plain text, or by the status alone, and the response to a HEAD request has no body at all. So a
  failed response tells a `Failure` exactly if the calendar was asked, and not merely looked at
  (`failed_response_tells_iff`).
-/
import Almanac.Proofs.Http.Routed
import Almanac.Proofs.Json.Domain
import Mathlib

namespace Almanac.Http

variable {σ α : Type} {c : Calendar σ} {r : Request} {s s' : σ} {response : Response}

/-! ## Failed responses -/

namespace Response

/-- The status says that the request failed. -/
def Fails (response : Response) : Prop := response.status < 200 ∨ 300 ≤ response.status

/-- The body is the JSON form of a failure. -/
def Tells (response : Response) (failure : Failure) : Prop :=
  ∃ body, response.content = .json body ∧ Failure.layout.decode body = .ok failure

/-- The body is no JSON. -/
def Untold (response : Response) : Prop := ∀ body, response.content ≠ .json body

theorem Untold.not_tells (h : response.Untold) (failure : Failure) : ¬response.Tells failure := by
  rintro ⟨body, hbody, -⟩
  exact h body hbody

theorem untold_withoutBody (response : Response) : response.withoutBody.Untold := by
  intro body hbody
  simp [withoutBody] at hbody

theorem untold_rejected (status : Nat) (text : String) : (rejected status text).Untold := by
  intro body hbody
  simp [rejected] at hbody

theorem tells_failure (e : StorageError) : (failure e).Tells ⟨e.code.name, e.message⟩ :=
  ⟨_, rfl, Failure.decode_encode _⟩

end Response

/-! ## Requests that are turned away -/

/-- The response to a parameter that cannot be read. -/
def refusal? : Except Response α → Option Response
  | .ok _ => none
  | .error response => some response

/-- The response to a request on a route whose parameter cannot be read. -/
def Request.refusal? (r : Request) : Route → Option Response
  | .createUser => Http.refusal? (readBody UserDraft.layout r)
  | .createEvent => Http.refusal? (readBody EventDraft.lenientLayout r)
  | .updateEvent => Http.refusal? (readBody Event.lenientLayout r)
  | .deleteUser id => Http.refusal? (readId id)
  | .deleteEvent id => Http.refusal? (readId id)
  | .listPeriod period => Http.refusal? (readDate period.field r.query)
  | .health => none
  | .listUsers => none
  | .listEvents => none

/-- The response as a method gets it: for one that only looks, without its body. -/
def Request.shown (r : Request) (response : Response) : Response :=
  if r.method == "HEAD" then response.withoutBody else response

/-- The response to a request that is turned away before the calendar is asked. -/
def Request.turnedAway? (r : Request) : Option Response :=
  match r.route? with
  | none => some .unknownPath
  | some route =>
    if !route.methods.contains r.method then some (.wrongMethod route)
    else (r.refusal? route).map r.shown

theorem given_refused {parameter : Except Response α} (h : refusal? parameter = some response)
    (next : α → Action σ Response) : given parameter next = Action.answer response := by
  cases parameter with
  | ok a => simp [refusal?] at h
  | error _ =>
      obtain rfl := Option.some.inj h
      rfl

theorem given_read {parameter : Except Response α} (h : refusal? parameter = none)
    (next : α → Action σ Response) : ∃ a, given parameter next = next a := by
  cases parameter with
  | ok a => exact ⟨a, rfl⟩
  | error _ => simp [refusal?] at h

/-- A parameter that cannot be read is the client's fault, and is told in plain text. -/
theorem refusal?_readBody {layout : Json.Layout α}
    (h : refusal? (readBody layout r) = some response) :
    response.status ∈ [400, 413, 415, 422] ∧ response.Untold := by
  unfold readBody at h
  split at h
  · obtain rfl := Option.some.inj h
    exact ⟨by simp [Response.rejected], Response.untold_rejected _ _⟩
  · split at h
    · obtain rfl := Option.some.inj h
      exact ⟨by simp [Response.rejected], Response.untold_rejected _ _⟩
    · split at h
      · simp [refusal?] at h
      · obtain rfl := Option.some.inj h
        exact ⟨by simp [Response.rejected], Response.untold_rejected _ _⟩
      · obtain rfl := Option.some.inj h
        exact ⟨by simp [Response.rejected], Response.untold_rejected _ _⟩

theorem refusal?_readId {id : String} (h : refusal? (readId id) = some response) :
    response.status = 400 ∧ response.Untold := by
  unfold readId at h
  split at h
  · simp [refusal?] at h
  · obtain rfl := Option.some.inj h
    exact ⟨rfl, Response.untold_rejected _ _⟩

theorem refusal?_readDate {field query : String}
    (h : refusal? (readDate field query) = some response) :
    response.status = 400 ∧ response.Untold := by
  unfold readDate at h
  split at h
  · simp [refusal?] at h
  · obtain rfl := Option.some.inj h
    exact ⟨rfl, Response.untold_rejected _ _⟩

theorem Request.refusal?_untold {route : Route} (h : r.refusal? route = some response) :
    response.status ∈ [400, 413, 415, 422] ∧ response.Untold := by
  cases route with
  | health => simp [Request.refusal?] at h
  | createUser => exact refusal?_readBody h
  | listUsers => simp [Request.refusal?] at h
  | deleteUser id =>
      obtain ⟨hstatus, huntold⟩ := refusal?_readId h
      exact ⟨by simp [hstatus], huntold⟩
  | createEvent => exact refusal?_readBody h
  | listEvents => simp [Request.refusal?] at h
  | updateEvent => exact refusal?_readBody h
  | deleteEvent id =>
      obtain ⟨hstatus, huntold⟩ := refusal?_readId h
      exact ⟨by simp [hstatus], huntold⟩
  | listPeriod period =>
      rw [Request.refusal?] at h
      obtain ⟨hstatus, huntold⟩ := refusal?_readDate h
      exact ⟨by simp [hstatus], huntold⟩

theorem Request.shown_status (r : Request) (response : Response) :
    (r.shown response).status = response.status := by
  unfold shown
  split <;> rfl

theorem Response.Untold.shown (h : response.Untold) (r : Request) : (r.shown response).Untold := by
  unfold Request.shown
  split
  · exact Response.untold_withoutBody _
  · exact h

/-- Whoever is turned away gets a status of the 400s and no JSON. -/
theorem Request.turnedAway?_untold (h : r.turnedAway? = some response) :
    response.status ∈ [400, 404, 405, 413, 415, 422] ∧ response.Untold := by
  unfold turnedAway? at h
  split at h
  · obtain rfl := Option.some.inj h
    exact ⟨by simp [Response.unknownPath],
      fun body hbody => by simp [Response.unknownPath] at hbody⟩
  · split at h
    · obtain rfl := Option.some.inj h
      exact ⟨by simp [Response.wrongMethod],
        fun body hbody => by simp [Response.wrongMethod] at hbody⟩
    · obtain ⟨refusal, hrefusal, rfl⟩ := Option.map_eq_some_iff.mp h
      obtain ⟨hstatus, huntold⟩ := Request.refusal?_untold hrefusal
      refine ⟨?_, huntold.shown r⟩
      rw [r.shown_status]
      simp only [List.mem_cons, List.not_mem_nil, or_false] at hstatus ⊢
      omega

/-! ## How the router answers -/

theorem serve_refused {route : Route} (h : r.refusal? route = some response) :
    serve c r r.query route = Action.answer response := by
  cases route with
  | health => simp [Request.refusal?] at h
  | createUser => exact given_refused h _
  | listUsers => simp [Request.refusal?] at h
  | deleteUser id => exact given_refused h _
  | createEvent => exact given_refused h _
  | listEvents => simp [Request.refusal?] at h
  | updateEvent => exact given_refused h _
  | deleteEvent id => exact given_refused h _
  | listPeriod period =>
      rw [Request.refusal?] at h
      rw [serve]
      exact given_refused h _

/-- Asking the calendar ends in the answer, or in the failure that its error becomes. -/
theorem ask_cases {act : StorageAction σ α} {answer : α → Response}
    (h : (ask act answer).perform s = (.ok response, s')) :
    (∃ a, response = answer a) ∨ ∃ e, response = .failure e := by
  obtain ⟨result, s₁, -, hanswer⟩ := Action.perform_bind_eq_ok.mp h
  cases result with
  | ok a => exact Or.inl ⟨a, (Except.ok.inj (Prod.mk.inj hanswer).1).symm⟩
  | error e => exact Or.inr ⟨e, (Except.ok.inj (Prod.mk.inj hanswer).1).symm⟩

/-- Asking ends in the answer, of a status that says that it went well, or in a failure. -/
theorem ask_fails {act : StorageAction σ α} {answer : α → Response} {status : Nat}
    (h : (ask act answer).perform s = (.ok response, s')) (hfails : response.Fails)
    (hanswer : ∀ a, (answer a).status = status) (hwell : status ∈ [200, 201, 204]) :
    ∃ e, response = .failure e := by
  rcases ask_cases h with ⟨a, rfl⟩ | hfailure
  · rw [Response.Fails, hanswer a] at hfails
    simp only [List.mem_cons, List.not_mem_nil, or_false] at hwell
    omega
  · exact hfailure

theorem given_ask_fails {β : Type} {parameter : Except Response α} {act : α → StorageAction σ β}
    {answer : β → Response} {status : Nat} (hread : refusal? parameter = none)
    (h : (given parameter fun a => ask (act a) answer).perform s = (.ok response, s'))
    (hfails : response.Fails) (hanswer : ∀ b, (answer b).status = status)
    (hwell : status ∈ [200, 201, 204]) : ∃ e, response = .failure e := by
  obtain ⟨a, ha⟩ := given_read hread fun a => ask (act a) answer
  rw [ha] at h
  exact ask_fails h hfails hanswer hwell

/-- A request whose parameter could be read fails by an error of the calendar. -/
theorem serve_fails {route : Route} (hread : r.refusal? route = none)
    (h : (serve c r r.query route).perform s = (.ok response, s')) (hfails : response.Fails) :
    ∃ e, response = .failure e := by
  cases route with
  | health =>
      obtain rfl := Except.ok.inj (Prod.mk.inj h).1
      rcases hfails with hlow | hhigh
      · exact absurd hlow (by decide)
      · exact absurd hhigh (by decide)
  | createUser => exact given_ask_fails hread h hfails (fun _ => rfl) (by decide)
  | listUsers => exact ask_fails h hfails (fun _ => rfl) (by decide)
  | deleteUser id => exact given_ask_fails hread h hfails (fun _ => rfl) (by decide)
  | createEvent => exact given_ask_fails hread h hfails (fun _ => rfl) (by decide)
  | listEvents => exact ask_fails h hfails (fun _ => rfl) (by decide)
  | updateEvent => exact given_ask_fails hread h hfails (fun _ => rfl) (by decide)
  | deleteEvent id => exact given_ask_fails hread h hfails (fun _ => rfl) (by decide)
  | listPeriod period =>
      rw [Request.refusal?] at hread
      rw [serve] at h
      exact given_ask_fails hread h hfails (fun _ => rfl) (by decide)

/-- A request that finds a route with its method is served there. -/
theorem respond_served {route : Route} (hroute : r.route? = some route)
    (hmethod : route.methods.contains r.method = true) :
    respond c r = do
      let response ← serve c r r.query route
      return r.shown response := by
  have hpath : Route.ofPath? (Target.parse r.target).path = some route := hroute
  unfold respond
  dsimp only
  rw [hpath]
  dsimp only
  rw [hmethod, if_neg (by decide)]
  rfl

/-- Whoever is turned away is so without the calendar. -/
theorem respond_turnedAway (h : r.turnedAway? = some response) :
    respond c r = Action.answer response := by
  unfold Request.turnedAway? at h
  split at h
  · next hroute =>
    obtain rfl := Option.some.inj h
    have hpath : Route.ofPath? (Target.parse r.target).path = none := hroute
    unfold respond
    dsimp only
    rw [hpath]
  · next route hroute =>
    split at h
    · next hmethod =>
      obtain rfl := Option.some.inj h
      have hpath : Route.ofPath? (Target.parse r.target).path = some route := hroute
      unfold respond
      dsimp only
      rw [hpath]
      dsimp only
      rw [if_pos hmethod]
    · next hmethod =>
      obtain ⟨refusal, hrefusal, rfl⟩ := Option.map_eq_some_iff.mp h
      rw [respond_served hroute (by simpa using hmethod), serve_refused hrefusal]
      rfl

/-- Whoever is not turned away fails by an error of the calendar. -/
theorem respond_fails (hadmitted : r.turnedAway? = none)
    (h : (respond c r).perform s = (.ok response, s')) (hfails : response.Fails) :
    ∃ e, response = r.shown (.failure e) := by
  unfold Request.turnedAway? at hadmitted
  split at hadmitted
  · simp at hadmitted
  · next route hroute =>
    split at hadmitted
    · simp at hadmitted
    · next hmethod =>
      rw [respond_served hroute (by simpa using hmethod)] at h
      obtain ⟨served, s₁, hserve, hshown⟩ := Action.perform_bind_eq_ok.mp h
      obtain rfl : r.shown served = response := Except.ok.inj (Prod.mk.inj hshown).1
      rw [Response.Fails, r.shown_status] at hfails
      obtain ⟨e, rfl⟩ := serve_fails (Option.map_eq_none_iff.mp hadmitted) hserve hfails
      exact ⟨e, rfl⟩

/-! ## What is told -/

/-- Failed responses, for every request and over every storage in every state. Such a response
    tells a failure in JSON exactly if the request was not turned away and does not merely look.
    A request that was not turned away has failed by an error of the calendar, and gets the
    failure that this error becomes, or its status alone if it merely looks. One that was turned
    away gets a response without JSON, and the storage has not been touched. -/
theorem failed_response_tells_iff {σ : Type} {c : Calendar σ} {r : Request} {s s' : σ}
    {response : Response} (hperform : (respond c r).perform s = (.ok response, s'))
    (hfails : response.Fails) :
    ((∃ failure, response.Tells failure) ↔ r.turnedAway? = none ∧ r.method ≠ "HEAD") ∧
    (r.turnedAway? = none → ∃ e : StorageError, response = r.shown (.failure e)) ∧
    (∀ refusal, r.turnedAway? = some refusal → response = refusal ∧ s' = s ∧
      refusal.status ∈ [400, 404, 405, 413, 415, 422] ∧ ∀ failure, ¬refusal.Tells failure) := by
  have hturned : ∀ refusal, r.turnedAway? = some refusal → response = refusal ∧ s' = s := by
    intro refusal hrefusal
    rw [respond_turnedAway hrefusal] at hperform
    obtain ⟨hanswer, hsame⟩ := Prod.mk.inj hperform
    exact ⟨(Except.ok.inj hanswer).symm, hsame.symm⟩
  refine ⟨?_, fun hadmitted => respond_fails hadmitted hperform hfails, ?_⟩
  · cases hadmitted : r.turnedAway? with
    | some refusal =>
        obtain ⟨rfl, -⟩ := hturned refusal hadmitted
        have huntold := (Request.turnedAway?_untold hadmitted).2
        simp only [reduceCtorEq, false_and, iff_false, not_exists]
        exact huntold.not_tells
    | none =>
        obtain ⟨e, rfl⟩ := respond_fails hadmitted hperform hfails
        by_cases hhead : r.method = "HEAD"
        · have huntold : (r.shown (.failure e)).Untold := by
            rw [Request.shown, if_pos (by simpa using hhead)]
            exact Response.untold_withoutBody _
          simp only [hhead, ne_eq, not_true_eq_false, and_false, iff_false, not_exists]
          exact huntold.not_tells
        · have hwhole : r.shown (.failure e) = .failure e := if_neg (by simpa using hhead)
          rw [hwhole]
          simp only [ne_eq, hhead, not_false_eq_true, and_self, iff_true]
          exact ⟨_, Response.tells_failure e⟩
  · intro refusal hrefusal
    obtain ⟨hstatus, huntold⟩ := Request.turnedAway?_untold hrefusal
    obtain ⟨hresponse, hsame⟩ := hturned refusal hrefusal
    exact ⟨hresponse, hsame, hstatus, huntold.not_tells⟩

/-- A request to delete a user whom nobody knows. -/
def strangersDeletion : Request where
  method := "DELETE"
  target := "/delete/user/nobody"

/-- Its response tells so. -/
theorem strangersDeletion_told :
    ∃ response, (respond ⟨Storage.memory⟩ strangersDeletion).perform {} = (.ok response, {}) ∧
      response.Fails ∧ ∃ failure, response.Tells failure := by
  have hperform : (respond ⟨Storage.memory⟩ strangersDeletion).perform {} =
      (.ok (.failure (.missing "user" "nobody")), {}) := by cbv
  have hfails : (Response.failure (.missing "user" "nobody")).Fails := Or.inr (by decide)
  obtain ⟨htells, -⟩ := failed_response_tells_iff hperform hfails
  exact ⟨_, hperform, hfails, htells.mpr ⟨by cbv, by decide⟩⟩

/-- A request for the week from a date that is none. -/
def yesterdaysWeek : Request where
  method := "GET"
  target := "/select/events/week?startDate=yesterday"

/-- Its response fails, and no failure is told. -/
theorem yesterdaysWeek_untold :
    ∃ response, (respond ⟨Storage.memory⟩ yesterdaysWeek).perform {} = (.ok response, {}) ∧
      response.Fails ∧ ∀ failure, ¬response.Tells failure := by
  have hrefused : yesterdaysWeek.turnedAway? =
      some (.rejected 400 "Failed to deserialize query string") := by cbv
  refine ⟨.rejected 400 "Failed to deserialize query string", ?_, Or.inr (by decide), ?_⟩
  · rw [respond_turnedAway hrefused]
    rfl
  · exact (Response.untold_rejected _ _).not_tells

end Almanac.Http
