/-
  Almanac.Proofs.Json.Domain

  The JSON forms of users, events and the small records of the HTTP interface are read back.
  Ages have 32 bits. The lenient forms of an event differ from the strict one in what they
  make of a missing description, so they read what the strict one has written.
-/
import Almanac.Event
import Almanac.Http.Body
import Almanac.Proofs.Json.Number
import Almanac.User

namespace Almanac

open Json

/-! ## Events -/

theorem EventDraft.readsBack_parts (e : EventDraft) :
    List.Forall₂ (fun field value => ReadsBack field.2 value) EventDraft.layout.fields
      (EventDraft.layout.parts e) :=
  .cons (readsBack_text e.title) (.cons (readsBack_text e.description)
    (.cons (readsBack_instant e.beginning) (.cons (readsBack_instant e.finish)
      (.cons (readsBack_instant e.notification) (.cons (readsBack_text e.userId) .nil)))))

theorem Event.readsBack_parts (e : Event) :
    List.Forall₂ (fun field value => ReadsBack field.2 value) Event.layout.fields
      (Event.layout.parts e) :=
  .cons (readsBack_text e.id) e.toEventDraft.readsBack_parts

theorem Event.faithful (e : Event) : Event.layout.Faithful e :=
  Layout.faithful (by decide) (List.cons_ne_nil _ _) e.readsBack_parts rfl

/-- The lenient form writes as the strict one does. -/
theorem Event.decode_lenient (e : Event) :
    Event.lenientLayout.decode (Event.layout.encode e) = .ok e :=
  Layout.Faithful.decode_encode
    (@Layout.faithful _ Event.lenientLayout _ (by decide) (List.cons_ne_nil _ _)
      e.readsBack_parts rfl)

theorem EventDraft.decode_lenient (e : EventDraft) :
    EventDraft.lenientLayout.decode (EventDraft.layout.encode e) = .ok e :=
  Layout.Faithful.decode_encode
    (@Layout.faithful _ EventDraft.lenientLayout _ (by decide) (List.cons_ne_nil _ _)
      e.readsBack_parts rfl)

/-! ## Users -/

theorem UserDraft.readsBack_parts {u : UserDraft} (hage : u.age ≤ maxAge) :
    List.Forall₂ (fun field value => ReadsBack field.2 value) UserDraft.layout.fields
      (UserDraft.layout.parts u) :=
  .cons (readsBack_text u.firstName) (.cons (readsBack_text u.lastName)
    (.cons (readsBack_text u.email) (.cons (readsBack_natural hage (by decide)) .nil)))

theorem UserDraft.decode_encode {u : UserDraft} (hage : u.age ≤ maxAge) :
    UserDraft.layout.decode (UserDraft.layout.encode u) = .ok u :=
  Layout.Faithful.decode_encode
    (Layout.faithful (by decide) (List.cons_ne_nil _ _) (UserDraft.readsBack_parts hage) rfl)

theorem User.faithful {u : User} (hage : u.age ≤ maxAge) : User.layout.Faithful u :=
  Layout.faithful (by decide) (List.cons_ne_nil _ _)
    (.cons (readsBack_text u.id) (UserDraft.readsBack_parts hage)) rfl

/-! ## Answers -/

namespace Http

theorem Created.decode_encode (created : Created) :
    Created.layout.decode (Created.layout.encode created) = .ok created :=
  Layout.Faithful.decode_encode
    (Layout.faithful (by decide) (List.cons_ne_nil _ _)
      (.cons (readsBack_text created.id) .nil) rfl)

theorem Failure.decode_encode (failure : Failure) :
    Failure.layout.decode (Failure.layout.encode failure) = .ok failure :=
  Layout.Faithful.decode_encode
    (Layout.faithful (by decide) (List.cons_ne_nil _ _)
      (.cons (readsBack_text failure.code) (.cons (readsBack_text failure.message) .nil)) rfl)

end Http

end Almanac
