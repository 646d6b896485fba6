/-
  Almanac.Proofs.Rpc.Message

  Messages survive the wire. A message is read from nothing by taking its fields into account
  one after the other, so it is read back when doing that with the fields that were written
  gives the message again (`decodeAt_encode`). A field that was left out is one that holds
  what a message has anyway; a timestamp of the epoch is written without content, but it is
  written.

  The seconds of every instant fit into 64 bits, so instants and their timestamps name each
  other (`toInstant?_ofInstant`, `ofInstant_of_toInstant?`).
-/
import Almanac.Proofs.Protobuf.Field
import Almanac.Proofs.Time.Notation
import Almanac.Rpc.Service

namespace Almanac.Rpc

open Protobuf

/-! ## Timestamps -/

namespace Timestamp

/-- The timestamp of an instant stands for that instant. -/
theorem toInstant?_ofInstant (t : Instant) : (ofInstant t).toInstant? = some t := by
  have hsecond := t.second_lt
  have hday : (t.day * 86400 + t.second) / 86400 = t.day := by omega
  have hrest : ((t.day * 86400 + (t.second : Int)) % 86400).toNat = t.second := by omega
  have hfrac : ¬(t.frac : Int) < 0 := by omega
  rw [toInstant?, ofInstant, if_neg hfrac, Int.toNat_natCast, Instant.ofUnix?, Instant.unixSeconds,
    hday, hrest]
  exact Instant.of?_parts t

/-- A timestamp that stands for an instant is the timestamp of that instant. -/
theorem ofInstant_of_toInstant? {ts : Timestamp} {t : Instant} (h : ts.toInstant? = some t) :
    ofInstant t = ts := by
  obtain ⟨seconds, nanos⟩ := ts
  unfold toInstant? at h
  split at h
  · simp at h
  · next hnanos =>
    have hnonneg : ¬nanos < 0 := hnanos
    unfold Instant.ofUnix? Instant.of? at h
    split at h
    · obtain rfl := Option.some.inj h
      -- Floor division and its remainder give the seconds back, before the epoch too.
      have hseconds : seconds / 86400 * 86400 + ((seconds % 86400).toNat : Int) = seconds := by
        omega
      have hfrac : ((nanos.toNat : Nat) : Int) = nanos := by omega
      simp only [ofInstant, Instant.unixSeconds, hseconds, hfrac]
    · simp at h

theorem required_ofInstant (name : String) (t : Instant) :
    required name (some (ofInstant t)) = .ok t := by
  simp only [required, toInstant?_ofInstant]

/-- The numbers of a timestamp fit their fields. -/
def InRange (ts : Timestamp) : Prop :=
  -9223372036854775808 ≤ ts.seconds ∧ ts.seconds < 9223372036854775808 ∧
    0 ≤ ts.nanos ∧ ts.nanos < 2147483648

theorem inRange_ofInstant (t : Instant) : (ofInstant t).InRange := by
  have hlow := t.day_ge
  have hhigh := t.day_le
  have hsecond := t.second_lt
  have hfrac := t.frac_lt
  simp only [minDay, maxDay] at hlow hhigh
  simp only [InRange, ofInstant, Instant.unixSeconds]
  omega

end Timestamp

/-! ## Taking fields into account -/

section

variable {α : Type} {f : α → Field → Option α} {number : Nat}

/-- Fields are taken into account one part after the other. -/
theorem foldlM_append_some {xs ys : List Field} {a b c : α} (hxs : xs.foldlM f a = some b)
    (hys : ys.foldlM f b = some c) : (xs ++ ys).foldlM f a = some c := by
  rw [List.foldlM_append, hxs]
  exact hys

/-- A text takes the place of an empty one, also when it is empty and was left out. -/
theorem foldlM_textField (put : String → α) {s : String}
    (hread : f (put "") ⟨number, .bytes (utf8 s)⟩ = some (put s)) :
    (textField number s).foldlM f (put "") = some (put s) := by
  unfold textField
  split
  · next h =>
    rw [String.isEmpty_iff.mp h]
    rfl
  · rw [List.foldlM_cons, hread]
    rfl

/-- A number takes the place of a zero, also when it is zero and was left out. -/
theorem foldlM_varintField (put : Nat → α) {n : Nat}
    (hread : f (put 0) ⟨number, .varint n⟩ = some (put n)) :
    (varintField number n).foldlM f (put 0) = some (put n) := by
  unfold varintField
  split
  · next h =>
    rw [h]
    rfl
  · rw [List.foldlM_cons, hread]
    rfl

end

theorem text?_utf8 (s : String) : (Payload.bytes (utf8 s)).text? = some s := ofUtf8?_utf8 s

theorem proper_of_mem_textField {number : Nat} {s : String} {f : Field}
    (hnumber : 0 < number) (hlarge : number < 536870912) (hf : f ∈ textField number s) :
    f.Proper := by
  unfold textField at hf
  split at hf
  · simp at hf
  · rw [List.mem_singleton.mp hf]
    exact ⟨hnumber, hlarge, trivial⟩

theorem proper_of_mem_varintField {number n : Nat} {f : Field} (hnumber : 0 < number)
    (hlarge : number < 536870912) (hn : n < 18446744073709551616)
    (hf : f ∈ varintField number n) : f.Proper := by
  unfold varintField at hf
  split at hf
  · simp at hf
  · rw [List.mem_singleton.mp hf]
    exact ⟨hnumber, hlarge, hn⟩

/-- A message is read back when taking its fields into account gives it again. -/
theorem decodeAt_encode {α : Type} [Message α] {level : Nat} {m : α}
    (hproper : ∀ f ∈ Message.fields m, f.Proper)
    (hlength : (Message.encode m).length < 18446744073709551616)
    (hfold : (Message.fields m).foldlM (Message.merge level) Message.default = some m) :
    Message.decodeAt level (Message.encode m) = some m := by
  rw [Message.decodeAt, Message.encode, fields?_encodeFields level hproper hlength]
  exact hfold

namespace Timestamp

theorem proper_of_mem_fields (ts : Timestamp) {f : Field} (hf : f ∈ ts.fields) : f.Proper := by
  rcases List.mem_append.mp hf with hseconds | hnanos
  · exact proper_of_mem_varintField (by omega) (by omega) (ofSigned_lt _) hseconds
  · exact proper_of_mem_varintField (by omega) (by omega) (ofSigned_lt _) hnanos

theorem foldlM_fields {ts : Timestamp} (h : ts.InRange) : ts.fields.foldlM merge {} = some ts := by
  obtain ⟨hlow, hhigh, hnonneg, hlarge⟩ := h
  have hseconds : (varintField 1 (ofSigned ts.seconds)).foldlM merge {} =
      some ⟨toSigned 64 (ofSigned ts.seconds), 0⟩ :=
    foldlM_varintField (fun n => (⟨toSigned 64 n, 0⟩ : Timestamp)) rfl
  have hnanos : (varintField 2 (ofSigned ts.nanos)).foldlM merge ⟨ts.seconds, 0⟩ =
      some ⟨ts.seconds, toSigned 32 (ofSigned ts.nanos)⟩ :=
    foldlM_varintField (fun n => (⟨ts.seconds, toSigned 32 n⟩ : Timestamp)) rfl
  rw [toSigned_ofSigned hlow hhigh] at hseconds
  rw [toSigned_ofSigned_32 hnonneg hlarge] at hnanos
  exact foldlM_append_some hseconds hnanos

theorem length_encodeFields_le (ts : Timestamp) : (encodeFields ts.fields).length ≤ 40 := by
  have hseconds := length_encodeFields_varintField (show 1 < 536870912 by omega)
    (ofSigned_lt ts.seconds)
  have hnanos := length_encodeFields_varintField (show 2 < 536870912 by omega)
    (ofSigned_lt ts.nanos)
  rw [fields, encodeFields_append, List.length_append]
  omega

/-- The payload of a timestamp is read back. -/
theorem mergePayload_encode (level : Nat) {ts : Timestamp} (h : ts.InRange) :
    mergePayload level none (.bytes (encodeFields ts.fields)) = some ts := by
  have hlength := ts.length_encodeFields_le
  rw [mergePayload, fields?_encodeFields level (fun _ => ts.proper_of_mem_fields) (by omega)]
  exact foldlM_fields h

/-- A timestamp takes the place of a missing one. -/
theorem foldlM_field {α : Type} {f : α → Field → Option α} {number : Nat}
    (put : Option Timestamp → α) {ts : Timestamp}
    (hread : f (put none) ⟨number, .bytes (encodeFields ts.fields)⟩ = some (put (some ts))) :
    (field number (some ts)).foldlM f (put none) = some (put (some ts)) := by
  rw [field, List.foldlM_cons, hread]
  rfl

theorem proper_of_mem_field {number : Nat} {ts : Option Timestamp} {f : Field}
    (hnumber : 0 < number) (hlarge : number < 536870912) (hf : f ∈ field number ts) :
    f.Proper := by
  unfold field at hf
  split at hf
  · rw [List.mem_singleton.mp hf]
    exact ⟨hnumber, hlarge, trivial⟩
  · simp at hf

end Timestamp

/-! ## Users -/

theorem proper_of_mem_user {u : User} (hage : u.age ≤ maxAge) {f : Field}
    (hf : f ∈ Message.fields u) : f.Proper := by
  simp only [maxAge] at hage
  simp only [Message.fields, List.mem_append] at hf
  rcases hf with (((hid | hfirst) | hlast) | hemail) | hnumber
  · exact proper_of_mem_textField (by omega) (by omega) hid
  · exact proper_of_mem_textField (by omega) (by omega) hfirst
  · exact proper_of_mem_textField (by omega) (by omega) hlast
  · exact proper_of_mem_textField (by omega) (by omega) hemail
  · exact proper_of_mem_varintField (by omega) (by omega) (by omega) hnumber

theorem foldlM_user (level : Nat) {u : User} (hage : u.age ≤ maxAge) :
    (Message.fields u).foldlM (Message.merge level) Message.default = some u := by
  obtain ⟨⟨firstName, lastName, email, age⟩, id⟩ := u
  have hmod : age % 4294967296 = age := by
    simp only [maxAge] at hage
    omega
  -- One field after the other takes the place of its default.
  let user (firstName lastName email : String) (age : Nat) (id : String) : User :=
    ⟨⟨firstName, lastName, email, age⟩, id⟩
  have hid : (textField 1 id).foldlM (Message.merge level) (user "" "" "" 0 "") =
      some (user "" "" "" 0 id) :=
    foldlM_textField (fun s => user "" "" "" 0 s)
      (by simp only [Message.merge, text?_utf8, Option.map_some, user])
  have hfirst : (textField 2 firstName).foldlM (Message.merge level) (user "" "" "" 0 id) =
      some (user firstName "" "" 0 id) :=
    foldlM_textField (fun s => user s "" "" 0 id)
      (by simp only [Message.merge, text?_utf8, Option.map_some, user])
  have hlast : (textField 3 lastName).foldlM (Message.merge level) (user firstName "" "" 0 id) =
      some (user firstName lastName "" 0 id) :=
    foldlM_textField (fun s => user firstName s "" 0 id)
      (by simp only [Message.merge, text?_utf8, Option.map_some, user])
  have hemail : (textField 4 email).foldlM (Message.merge level)
      (user firstName lastName "" 0 id) = some (user firstName lastName email 0 id) :=
    foldlM_textField (fun s => user firstName lastName s 0 id)
      (by simp only [Message.merge, text?_utf8, Option.map_some, user])
  have hnumber : (varintField 5 age).foldlM (Message.merge level)
      (user firstName lastName email 0 id) = some (user firstName lastName email age id) :=
    foldlM_varintField (fun n => user firstName lastName email n id)
      (by simp only [Message.merge, hmod, user])
  exact foldlM_append_some (foldlM_append_some (foldlM_append_some
    (foldlM_append_some hid hfirst) hlast) hemail) hnumber

/-- A user whose age fits its field is read back. -/
theorem decodeAt_encode_user (level : Nat) {u : User} (hage : u.age ≤ maxAge)
    (hlength : (Message.encode u).length < 18446744073709551616) :
    Message.decodeAt level (Message.encode u) = some u :=
  decodeAt_encode (fun _ => proper_of_mem_user hage) hlength (foldlM_user level hage)

/-! ## Events -/

theorem proper_of_mem_event {m : EventMessage} {f : Field} (hf : f ∈ Message.fields m) :
    f.Proper := by
  simp only [Message.fields, List.mem_append] at hf
  rcases hf with (((((hid | htitle) | hdescription) | hbeginning) | hfinish) | hnotification) |
    huser
  · exact proper_of_mem_textField (by omega) (by omega) hid
  · exact proper_of_mem_textField (by omega) (by omega) htitle
  · exact proper_of_mem_textField (by omega) (by omega) hdescription
  · exact Timestamp.proper_of_mem_field (by omega) (by omega) hbeginning
  · exact Timestamp.proper_of_mem_field (by omega) (by omega) hfinish
  · exact Timestamp.proper_of_mem_field (by omega) (by omega) hnotification
  · exact proper_of_mem_textField (by omega) (by omega) huser

theorem foldlM_event (level : Nat) (e : Event) :
    (Message.fields (EventMessage.ofEvent e)).foldlM (Message.merge level) Message.default =
      some (EventMessage.ofEvent e) := by
  have hstamp (t : Instant) : Timestamp.mergePayload (level + 1) none
      (.bytes (encodeFields (Timestamp.ofInstant t).fields)) = some (.ofInstant t) :=
    Timestamp.mergePayload_encode (level + 1) (Timestamp.inRange_ofInstant t)
  -- The message of the event as far as it has been read.
  let b := Timestamp.ofInstant e.beginning
  let f := Timestamp.ofInstant e.finish
  let n := Timestamp.ofInstant e.notification
  have hid : (textField 1 e.id).foldlM (Message.merge level) ({} : EventMessage) =
      some { id := e.id } :=
    foldlM_textField (fun s => ({ id := s } : EventMessage))
      (by simp only [Message.merge, text?_utf8, Option.map_some])
  have htitle : (textField 2 e.title).foldlM (Message.merge level)
      ({ id := e.id } : EventMessage) = some { id := e.id, title := e.title } :=
    foldlM_textField (fun s => ({ id := e.id, title := s } : EventMessage))
      (by simp only [Message.merge, text?_utf8, Option.map_some])
  have hdescription : (textField 3 e.description).foldlM (Message.merge level)
      ({ id := e.id, title := e.title } : EventMessage) =
        some { id := e.id, title := e.title, description := e.description } :=
    foldlM_textField
      (fun s => ({ id := e.id, title := e.title, description := s } : EventMessage))
      (by simp only [Message.merge, text?_utf8, Option.map_some])
  have hbeginning : (Timestamp.field 4 (some b)).foldlM (Message.merge level)
      ({ id := e.id, title := e.title, description := e.description } : EventMessage) =
        some { id := e.id, title := e.title, description := e.description, beginning := some b } :=
    Timestamp.foldlM_field
      (fun ts => ({ id := e.id, title := e.title, description := e.description,
                    beginning := ts } : EventMessage))
      (by simp only [Message.merge, hstamp, Option.map_some, b])
  have hfinish : (Timestamp.field 5 (some f)).foldlM (Message.merge level)
      ({ id := e.id, title := e.title, description := e.description,
         beginning := some b } : EventMessage) =
        some { id := e.id, title := e.title, description := e.description, beginning := some b,
               finish := some f } :=
    Timestamp.foldlM_field
      (fun ts => ({ id := e.id, title := e.title, description := e.description,
                    beginning := some b, finish := ts } : EventMessage))
      (by simp only [Message.merge, hstamp, Option.map_some, f])
  have hnotification : (Timestamp.field 6 (some n)).foldlM (Message.merge level)
      ({ id := e.id, title := e.title, description := e.description, beginning := some b,
         finish := some f } : EventMessage) =
        some { id := e.id, title := e.title, description := e.description, beginning := some b,
               finish := some f, notification := some n } :=
    Timestamp.foldlM_field
      (fun ts => ({ id := e.id, title := e.title, description := e.description,
                    beginning := some b, finish := some f, notification := ts } : EventMessage))
      (by simp only [Message.merge, hstamp, Option.map_some, n])
  have huser : (textField 7 e.userId).foldlM (Message.merge level)
      ({ id := e.id, title := e.title, description := e.description, beginning := some b,
         finish := some f, notification := some n } : EventMessage) =
        some (EventMessage.ofEvent e) :=
    foldlM_textField
      (fun s => ({ id := e.id, title := e.title, description := e.description,
                   beginning := some b, finish := some f, notification := some n,
                   userId := s } : EventMessage))
      (by simp only [Message.merge, text?_utf8, Option.map_some])
  exact foldlM_append_some (foldlM_append_some (foldlM_append_some (foldlM_append_some
    (foldlM_append_some (foldlM_append_some hid htitle) hdescription) hbeginning) hfinish)
    hnotification) huser

/-- The message of an event is read back. -/
theorem decodeAt_encode_event (level : Nat) {e : Event}
    (hlength : (Message.encode (EventMessage.ofEvent e)).length < 18446744073709551616) :
    Message.decodeAt level (Message.encode (EventMessage.ofEvent e)) =
      some (EventMessage.ofEvent e) :=
  decodeAt_encode (fun _ => proper_of_mem_event) hlength (foldlM_event level e)

theorem toEventDraft_ofEvent (e : Event) :
    (EventMessage.ofEvent e).toEventDraft = .ok e.toEventDraft := by
  rw [EventMessage.toEventDraft]
  simp only [EventMessage.ofEvent, Timestamp.required_ofInstant, bind, Except.bind]
  rfl

/-- The message of an event stands for that event. -/
theorem toEvent_ofEvent (e : Event) : (EventMessage.ofEvent e).toEvent = .ok e := by
  rw [EventMessage.toEvent, toEventDraft_ofEvent]
  rfl

/-! ## Dates -/

theorem proper_of_mem_date {m : DateMessage} {f : Field} (hf : f ∈ Message.fields m) :
    f.Proper :=
  Timestamp.proper_of_mem_field (by omega) (by omega) hf

theorem length_encode_date_le (t : Instant) :
    (Message.encode (DateMessage.ofInstant t)).length ≤ 60 := by
  have hpayload := (Timestamp.ofInstant t).length_encodeFields_le
  have hkey := length_encodeVarint_le (show 1 * 8 + 2 < 18446744073709551616 by omega)
  have hsize := length_encodeVarint_le
    (show (encodeFields (Timestamp.ofInstant t).fields).length < 18446744073709551616 by omega)
  have hbytes : Message.encode (DateMessage.ofInstant t) =
      encodeVarint (1 * 8 + 2) ++
        encodeVarint (encodeFields (Timestamp.ofInstant t).fields).length ++
        encodeFields (Timestamp.ofInstant t).fields ++ [] := rfl
  rw [hbytes]
  simp only [List.length_append, List.length_nil]
  omega

/-- The request for the window at an instant is read back. -/
theorem decode_encode_date (t : Instant) :
    Message.decode (Message.encode (DateMessage.ofInstant t)) = some (DateMessage.ofInstant t) := by
  have hlength := length_encode_date_le t
  have hstamp : Timestamp.mergePayload 1 none
      (.bytes (encodeFields (Timestamp.ofInstant t).fields)) = some (.ofInstant t) :=
    Timestamp.mergePayload_encode 1 (Timestamp.inRange_ofInstant t)
  refine decodeAt_encode (fun _ => proper_of_mem_date) (by omega) ?_
  exact Timestamp.foldlM_field DateMessage.mk
    (by simp only [Message.merge, hstamp, if_true, Option.map_some])

/-! ## Listings -/

/-- Listings are read item by item. -/
theorem foldlM_listing {α : Type} [Message α] {level : Nat} {items : List α}
    (hitems : ∀ item ∈ items, Message.decodeAt (level + 1) (Message.encode item) = some item)
    (done : List α) :
    (Message.fields (Listing.mk items)).foldlM (Message.merge level) (Listing.mk done) =
      some (Listing.mk (done ++ items)) := by
  induction items generalizing done with
  | nil => simp [Message.fields]
  | cons item items ih =>
      have hitem := hitems item List.mem_cons_self
      have hread : Message.merge level (Listing.mk done) ⟨1, .bytes (Message.encode item)⟩ =
          some (Listing.mk (done ++ [item])) := by
        simp only [Message.merge, hitem, Option.map_some]
      have hrest := ih (fun i hi => hitems i (List.mem_cons_of_mem _ hi)) (done ++ [item])
      have hfields : Message.fields (Listing.mk (item :: items)) =
          ⟨1, .bytes (Message.encode item)⟩ :: Message.fields (Listing.mk items) := rfl
      rw [hfields, List.foldlM_cons, hread]
      simp only [Option.bind_eq_bind, Option.bind_some]
      rw [hrest, List.append_assoc, List.singleton_append]

/-- A listing is read back when its items are, each of which is shorter than the listing. -/
theorem decode_encode_listing {α : Type} [Message α] {items : List α}
    (hitems : ∀ item ∈ items, (Message.encode item).length < 18446744073709551616 →
      Message.decodeAt 1 (Message.encode item) = some item)
    (hlength : (Message.encode (Listing.mk items)).length < 18446744073709551616) :
    Message.decode (Message.encode (Listing.mk items)) = some (Listing.mk items) := by
  have hmem : ∀ item ∈ items,
      (⟨1, .bytes (Message.encode item)⟩ : Field) ∈ Message.fields (Listing.mk items) :=
    fun item hitem => List.mem_map.mpr ⟨item, hitem, rfl⟩
  refine decodeAt_encode (fun f hf => ?_) hlength (foldlM_listing (fun item hitem => ?_) [])
  · obtain ⟨item, -, rfl⟩ := List.mem_map.mp hf
    have hnumber : (1 : Nat) < 536870912 := by decide
    exact ⟨Nat.zero_lt_one, hnumber, trivial⟩
  · have hshorter : (Message.encode item).length ≤ (Message.encode (Listing.mk items)).length :=
      length_le_of_mem_encodeFields (hmem item hitem)
    exact hitems item hitem (by omega)

/-! ## Domain values -/

/-- Domain values survive the wire. An event, a list of events and a list of users are read back
    as they were, in order, if their bytes can be counted with 64 bits and ages with 32; the
    request for the window at an instant always is. A timestamp that stands for an instant is the
    one that is written for it. -/
theorem domain_values_survive :
    (∀ e : Event, (Message.encode (EventMessage.ofEvent e)).length < 2 ^ 64 →
      ∃ m : EventMessage, Message.decode (Message.encode (EventMessage.ofEvent e)) = some m ∧
        m.toEvent = .ok e) ∧
    (∀ es : List Event, (Message.encode (eventListing es)).length < 2 ^ 64 →
      ∃ l : Listing EventMessage, Message.decode (Message.encode (eventListing es)) = some l ∧
        l.items.map EventMessage.toEvent = es.map .ok) ∧
    (∀ us : List User, (∀ u ∈ us, u.age < 2 ^ 32) →
      (Message.encode (Listing.mk us)).length < 2 ^ 64 →
      Message.decode (Message.encode (Listing.mk us)) = some (Listing.mk us)) ∧
    (∀ t : Instant, ∃ d : DateMessage,
      Message.decode (Message.encode (DateMessage.ofInstant t)) = some d ∧
        d.reference = .ok t) ∧
    ∀ (ts : Timestamp) (t : Instant), ts.toInstant? = some t → Timestamp.ofInstant t = ts := by
  refine ⟨fun e hlength => ?_, fun es hlength => ?_, fun us hage hlength => ?_, fun t => ?_,
    fun ts t h => Timestamp.ofInstant_of_toInstant? h⟩
  · exact ⟨_, decodeAt_encode_event 0 hlength, toEvent_ofEvent e⟩
  · refine ⟨_, decode_encode_listing (fun m hm hshort => ?_) hlength, ?_⟩
    · obtain ⟨e, -, rfl⟩ := List.mem_map.mp hm
      exact decodeAt_encode_event 1 hshort
    · rw [List.map_map]
      exact List.map_congr_left fun e _ => toEvent_ofEvent e
  · refine decode_encode_listing (fun u hu hshort => ?_) hlength
    have hu := hage u hu
    exact decodeAt_encode_user 1 (by simp only [maxAge]; omega) hshort
  · exact ⟨_, decode_encode_date t, Timestamp.required_ofInstant "date" t⟩

/-- An event without a text, from a nanosecond before the epoch to the epoch, whose owner is
    alerted in the middle of a leap second. -/
def midnightEvent : Event where
  id := ""
  title := ""
  description := ""
  beginning := (Instant.of? (-1) 86399 999999999).getD Instant.first
  finish := (Instant.of? 0 0 0).getD Instant.first
  notification := (Instant.of? 17166 86399 1500000000).getD Instant.first
  userId := ""

/-- Nothing of an event is lost because it is empty or zero, alone and in a list. -/
theorem midnightEvent_survives :
    (Message.encode (EventMessage.ofEvent midnightEvent)).length < 2 ^ 64 ∧
    (∃ m : EventMessage,
      Message.decode (Message.encode (EventMessage.ofEvent midnightEvent)) = some m ∧
        m.toEvent = .ok midnightEvent) ∧
    ∃ l : Listing EventMessage,
      Message.decode (Message.encode (eventListing [midnightEvent, midnightEvent])) = some l ∧
        l.items.map EventMessage.toEvent = [.ok midnightEvent, .ok midnightEvent] := by
  have hone : (Message.encode (EventMessage.ofEvent midnightEvent)).length < 2 ^ 64 := by
    decide +kernel
  have htwo : (Message.encode (eventListing [midnightEvent, midnightEvent])).length < 2 ^ 64 := by
    decide +kernel
  exact ⟨hone, domain_values_survive.1 midnightEvent hone,
    domain_values_survive.2.1 [midnightEvent, midnightEvent] htwo⟩

end Almanac.Rpc
