/-
  Almanac.Proofs.Calendar.Windowed

  The windowed listings of a calendar, through both of its front ends. A listing crashes when it is
  asked for a window that does not exist, and answers otherwise, if the storage answers for every
  window (`AnswersWindows`). Over HTTP a window is asked for by a date, whose midnight is never
  behind `Instant.last`, so every request is answered (`respond_period_answers`). A remote call
  names any instant it likes (`refers_frame`), and one in the leap second behind `Instant.last` has
  no week and no month, and crashes the listing (`listFrom_crashes`).
-/
import Almanac.Http.Router
import Almanac.Proofs.Action
import Almanac.Proofs.Rpc.Called
import Almanac.Proofs.Time.Window

namespace Almanac

/-! ## Crashes -/

namespace Action

variable {σ α β : Type}

/-- A composed action crashes when its first part does. -/
theorem perform_bind_crash (message : String) (f : α → Action σ β) (s : σ) :
    ((crash message : Action σ α) >>= f).perform s = (.error (.crash message), s) := rfl

theorem not_answersFrom_of_crash {act : Action σ α} {s : σ} {message : String}
    (h : act.perform s = (.error (.crash message), s)) : ¬act.AnswersFrom s := by
  rintro ⟨a, s', hanswer⟩
  simp [h] at hanswer

end Action

namespace Storage

variable {σ : Type}

/-- A storage that answers for every window, with events or with an error. -/
def AnswersWindows (storage : Storage σ) : Prop := ∀ w s, (storage.eventsIn w).AnswersFrom s

theorem answersWindows_memory : memory.AnswersWindows := fun w s => ⟨.ok (s.store.eventsIn w), s, rfl⟩

end Storage

/-! ## Over HTTP -/

namespace Http

variable {σ : Type}

/-- The window of a period, if there is one. -/
def Period.window? (t : Instant) : Period → Option Window
  | .day => Window.day? t
  | .week => Window.week? t
  | .month => Window.month? t

theorem eventsOfPeriod_eq (c : Calendar σ) (t : Instant) (p : Period) :
    eventsOfPeriod c t p = c.storage.eventsOfWindow (p.window? t) := by
  cases p <;> rfl

/-- All periods have a window, up to the last instant that is not a leap second. -/
theorem Period.window?_of_le {t : Instant} (h : t ≤ Instant.last) (p : Period) :
    ∃ w, p.window? t = some w := by
  cases p with
  | day =>
      obtain ⟨w, hw, -⟩ := Window.day?_eq t
      exact ⟨w, hw⟩
  | week =>
      obtain ⟨w, hw, -⟩ := Window.week?_of_le h
      exact ⟨w, hw⟩
  | month =>
      obtain ⟨w, hw, -⟩ := Window.month?_of_le h
      exact ⟨w, hw⟩

/-- A date stands for a midnight, which is no leap second. -/
theorem reference_le_last {field : String} (q : DateChoice field) :
    q.reference ≤ Instant.last := by
  have hmidnight : q.reference.second = 0 := by
    unfold DateChoice.reference Instant.ofDate?
    split
    · cases h : Instant.of? q.date.toDay 0 0 with
      | none => rfl
      | some t => exact (Instant.of?_eq_some h).2.1
    · rfl
  rw [← Instant.not_lt, Instant.last_lt_iff]
  rintro ⟨-, hsecond, -⟩
  omega

/-- Every request for the events of a period gets a response. -/
theorem respond_period_answers {c : Calendar σ} (hc : c.storage.AnswersWindows) {r : Request}
    {p : Period} (hroute : Route.ofPath? (Target.parse r.target).path = some (.listPeriod p))
    (s : σ) : (respond c r).AnswersFrom s := by
  have hserve : ∀ query s', (serve c r query (.listPeriod p)).AnswersFrom s' := by
    intro query s'
    unfold serve given
    dsimp only
    split
    · next q hq =>
      obtain ⟨w, hw⟩ := p.window?_of_le (reference_le_last q)
      unfold ask
      rw [eventsOfPeriod_eq, hw]
      refine (hc w s').bind ?_
      intro result s''
      cases result <;> exact Action.answersFrom_answer _ _
    · exact Action.answersFrom_answer _ _
  unfold respond
  dsimp only
  rw [hroute]
  dsimp only
  split
  · exact Action.answersFrom_answer _ _
  · exact (hserve _ s).bind fun _ _ => Action.answersFrom_answer _ _

end Http

/-! ## As remote calls -/

namespace Rpc

variable {σ : Type} {c : Calendar σ} {body : Bytes} {t : Instant}

/-- The body of a call refers to an instant. -/
def Refers (body : Bytes) (t : Instant) : Prop :=
  ∃ d : DateMessage, readArgument body = .ok d ∧ d.reference = .ok t

theorem Refers.unique {u : Instant} (h : Refers body t) (h' : Refers body u) : u = t := by
  obtain ⟨d, hd, ht⟩ := h
  obtain ⟨d', hd', hu⟩ := h'
  obtain rfl := Except.ok.inj (hd.symm.trans hd')
  exact Except.ok.inj (hu.symm.trans ht)

theorem listFrom_of_refers (h : Refers body t) (list : Instant → StorageAction σ (List Event)) :
    listFrom body list = ask (list t) eventListing := by
  obtain ⟨d, hd, ht⟩ := h
  unfold listFrom given taken
  rw [hd]
  dsimp only
  rw [ht]

/-- A body that refers to no instant is turned away. -/
theorem listFrom_of_not_refers (h : ∀ t, ¬Refers body t)
    (list : Instant → StorageAction σ (List Event)) :
    ∃ refusal, listFrom body list = Action.answer (.error refusal) := by
  unfold listFrom given taken
  cases hargument : (readArgument body : Except Refusal DateMessage) with
  | error refusal => exact ⟨refusal, rfl⟩
  | ok d =>
      dsimp only
      cases hreference : d.reference with
      | error cause => exact ⟨.wire cause, rfl⟩
      | ok t => exact absurd ⟨d, hargument, hreference⟩ (h t)

/-- The listing of a window that does not exist crashes. -/
theorem listFrom_crashes (h : Refers body t) {window? : Instant → Option Window}
    (hwindow : window? t = none) (s : σ) :
    (listFrom body fun t => c.storage.eventsOfWindow (window? t)).perform s =
      (.error (.crash Window.reversedMessage), s) := by
  rw [listFrom_of_refers h, hwindow]
  exact Action.perform_bind_crash _ _ s

/-- The listing of a window that exists answers. -/
theorem listFrom_answers (hc : c.storage.AnswersWindows) (h : Refers body t)
    {window? : Instant → Option Window} (hwindow : ∃ w, window? t = some w) (s : σ) :
    (listFrom body fun t => c.storage.eventsOfWindow (window? t)).AnswersFrom s := by
  obtain ⟨w, hw⟩ := hwindow
  rw [listFrom_of_refers h, hw]
  refine (hc w s).bind ?_
  intro result s'
  cases result <;> exact Action.answersFrom_answer _ _

/-- A listing answers when there is a window for every instant that the body refers to. -/
theorem listFrom_answers_iff (hc : c.storage.AnswersWindows) (body : Bytes)
    (window? : Instant → Option Window) (s : σ) :
    (listFrom body fun t => c.storage.eventsOfWindow (window? t)).AnswersFrom s ↔
      ∀ t, Refers body t → ∃ w, window? t = some w := by
  constructor
  · intro hanswers t ht
    cases hw : window? t with
    | some w => exact ⟨w, rfl⟩
    | none => exact absurd hanswers (Action.not_answersFrom_of_crash (listFrom_crashes ht hw s))
  · intro hwindow
    by_cases hrefers : ∃ t, Refers body t
    · obtain ⟨t, ht⟩ := hrefers
      exact listFrom_answers hc ht (hwindow t ht) s
    · obtain ⟨refusal, heq⟩ :=
        listFrom_of_not_refers (not_exists.mp hrefers) fun t => c.storage.eventsOfWindow (window? t)
      rw [heq]
      exact Action.answersFrom_answer _ _

/-- Every instant can be the date of a call, leap second or not. -/
theorem refers_frame (t : Instant) :
    Refers (frame (Message.encode (DateMessage.ofInstant t))) t := by
  have hlength := length_encode_date_le t
  have hmax : maxMessage = 4194304 := rfl
  refine ⟨DateMessage.ofInstant t, readArgument_frame (by omega) (decode_encode_date t), ?_⟩
  exact Timestamp.required_ofInstant "date" t

end Rpc

/-! ## Both front ends -/

/-- Windowed listings. Every day has a window, from its midnight on; a week and a month from an
    instant there are exactly if the instant is not in the leap second behind `Instant.last`. So,
    over a storage that answers, every HTTP request for a period gets a response, and so does
    every remote call for a day; a remote call for a week or a month is answered exactly if it
    does not refer to an instant in that leap second. -/
theorem windowed_listings_answer {σ : Type} {c : Calendar σ} (hc : c.storage.AnswersWindows) :
    (∀ t, (∃ w, Window.day? t = some w ∧ w.start = t.dayStart ∧ w.start ≤ w.finish) ∧
      ((∃ w, Window.week? t = some w ∧ w.start = t ∧ w.start ≤ w.finish) ↔ t ≤ Instant.last) ∧
      ((∃ w, Window.month? t = some w ∧ w.start = t ∧ w.start ≤ w.finish) ↔ t ≤ Instant.last)) ∧
    (∀ r p s, Http.Route.ofPath? (Http.Target.parse r.target).path = some (.listPeriod p) →
      (Http.respond c r).AnswersFrom s) ∧
    (∀ body s, (Rpc.call c "EventService/SelectEventsForDay" body).AnswersFrom s) ∧
    (∀ body s, (Rpc.call c "EventService/SelectEventsForWeek" body).AnswersFrom s ↔
      ∀ t, Rpc.Refers body t → t ≤ Instant.last) ∧
    (∀ body s, (Rpc.call c "EventService/SelectEventsForMonth" body).AnswersFrom s ↔
      ∀ t, Rpc.Refers body t → t ≤ Instant.last) := by
  have hweek : ∀ t, (∃ w, Window.week? t = some w) ↔ t ≤ Instant.last := fun t =>
    Window.exists_iff_of_le Window.week?_of_le Window.week?_eq_none
  have hmonth : ∀ t, (∃ w, Window.month? t = some w) ↔ t ≤ Instant.last := fun t =>
    Window.exists_iff_of_le Window.month?_of_le Window.month?_eq_none
  refine ⟨fun t => ⟨Window.day?_eq t, ⟨?_, Window.week?_of_le⟩, ⟨?_, Window.month?_of_le⟩⟩, ?_, ?_,
    ?_, ?_⟩
  · rintro ⟨w, hw, -⟩
    exact (hweek t).mp ⟨w, hw⟩
  · rintro ⟨w, hw, -⟩
    exact (hmonth t).mp ⟨w, hw⟩
  · intro r p s hroute
    exact Http.respond_period_answers hc hroute s
  · intro body s
    apply (Rpc.listFrom_answers_iff hc body Window.day? s).mpr
    intro t _
    obtain ⟨w, hw, -⟩ := Window.day?_eq t
    exact ⟨w, hw⟩
  · intro body s
    refine (Rpc.listFrom_answers_iff hc body Window.week? s).trans ?_
    simp only [hweek]
  · intro body s
    refine (Rpc.listFrom_answers_iff hc body Window.month? s).trans ?_
    simp only [hmonth]

/-- Half a second into the leap second at the end of a day. -/
def leapSecondOf (day : Int) : Instant :=
  (Instant.of? day 86399 1500000000).getD Instant.first

/-- The leap second at the end of 2016. -/
def newYearLeapSecond : Instant := leapSecondOf 17166

/-- A call for the week from a leap second is answered. -/
theorem newYearLeapSecond_listed :
    Storage.memory.AnswersWindows ∧
      (∃ w, Window.week? newYearLeapSecond = some w ∧ w.start = newYearLeapSecond ∧
        w.start ≤ w.finish) ∧
      (Rpc.call ⟨Storage.memory⟩ "EventService/SelectEventsForWeek"
        (Rpc.frame (Rpc.Message.encode (Rpc.DateMessage.ofInstant newYearLeapSecond)))).AnswersFrom
          {} := by
  have hlast : newYearLeapSecond ≤ Instant.last := by decide
  obtain ⟨hwindow, -, -, hweek, -⟩ :=
    windowed_listings_answer (c := ⟨Storage.memory⟩) Storage.answersWindows_memory
  refine ⟨Storage.answersWindows_memory, (hwindow _).2.1.mpr hlast, (hweek _ _).mpr ?_⟩
  intro t ht
  rw [(Rpc.refers_frame newYearLeapSecond).unique ht]
  exact hlast

/-- The leap second behind `Instant.last`. -/
def lastLeapSecond : Instant := leapSecondOf maxDay

/-- It can be the date of a call, and it has neither a week nor a month: the call crashes. -/
theorem lastLeapSecond_crashes :
    Rpc.Refers (Rpc.frame (Rpc.Message.encode (Rpc.DateMessage.ofInstant lastLeapSecond)))
        lastLeapSecond ∧
      Window.week? lastLeapSecond = none ∧ Window.month? lastLeapSecond = none ∧
      (Rpc.call ⟨Storage.memory⟩ "EventService/SelectEventsForWeek"
        (Rpc.frame (Rpc.Message.encode (Rpc.DateMessage.ofInstant lastLeapSecond)))).perform {} =
          (.error (.crash Window.reversedMessage), {}) := by
  have hrefers := Rpc.refers_frame lastLeapSecond
  have hlast : Instant.last < lastLeapSecond := by decide
  have hweek := Window.week?_eq_none hlast
  exact ⟨hrefers, hweek, Window.month?_eq_none hlast,
    Rpc.listFrom_crashes (c := ⟨Storage.memory⟩) hrefers hweek {}⟩

end Almanac
