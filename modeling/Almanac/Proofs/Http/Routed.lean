/-
  Almanac.Proofs.Http.Routed

  Requests that have found their route. One with a method of the route, and not merely looked
  at, is answered with what the calendar says (`respond_of_route`), provided that its
  parameter can be read (`given_ok`, `readBody_of_decode`).
-/
import Almanac.Http.Router
import Almanac.Proofs.Action

namespace Almanac.Http

variable {σ : Type} {c : Calendar σ}

/-- The route that a request finds, whatever its method. -/
def Request.route? (r : Request) : Option Route := Route.ofPath? (Target.parse r.target).path

def Request.query (r : Request) : String := (Target.parse r.target).query

theorem respond_of_route {r : Request} {route : Route} (hroute : r.route? = some route)
    (hmethod : route.methods.contains r.method = true) (hwhole : r.method ≠ "HEAD") :
    respond c r = serve c r r.query route := by
  have hpath : Route.ofPath? (Target.parse r.target).path = some route := hroute
  have hhead : (r.method == "HEAD") = false := beq_eq_false_iff_ne.mpr hwhole
  unfold respond
  dsimp only
  rw [hpath]
  dsimp only
  rw [hmethod, if_neg (by decide)]
  -- The body of the response stays.
  simp only [hhead, Bool.false_eq_true, if_false]
  exact bind_pure _

theorem given_ok {α : Type} {parameter : Except Response α} {a : α} (h : parameter = .ok a)
    (next : α → Action σ Response) : given parameter next = next a := by
  subst h
  rfl

/-- A JSON body that is not too long is read as what it decodes to. -/
theorem readBody_of_decode {α : Type} {layout : Json.Layout α} {r : Request} {value : α}
    (htype : (r.contentType.map isJsonType).getD false = true)
    (hlength : r.body.length ≤ maxBody) (hdecode : layout.decode r.body = .ok value) :
    readBody layout r = .ok value := by
  unfold readBody
  rw [htype, if_neg (by decide), if_neg (Nat.not_lt.mpr hlength), hdecode]

/-- What comes of asking the calendar. -/
theorem perform_ask {α : Type} {act : StorageAction σ α} {s s' : σ} {result : Except StorageError α}
    (h : act.perform s = (.ok result, s')) (answer : α → Response) :
    (ask act answer).perform s =
      (.ok (match result with
        | .ok a => answer a
        | .error e => .failure e), s') := by
  rw [ask, Action.perform_bind_of_ok h]
  cases result <;> rfl

end Almanac.Http
