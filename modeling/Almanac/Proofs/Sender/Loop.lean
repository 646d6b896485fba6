/-
  Almanac.Proofs.Sender.Loop

  A sender that has registered, call by call, beside others. A `Desk` is what it shares with them:
  the world of its broker, and a channel for each `StopPath`, the one that shuts the service down and
  the one of its own handle. A `Post` adds what only the sender has, the place where it is (`Place`),
  and books of what it took from its stream and of the answers to its acknowledgements.

  The sender makes one `Move` at a time: a step of a waiter, a call of the broker, a look at a flag.
  Between any two of them others do what they like to the world, trigger the channels, and make and
  give up handles (`Desk.Change`). So a `Run` is any interleaving, over any broker. The step of the
  sender as the service makes it is such a run (`run_of_step`).

  Whatever happens, the waiters of the sender miss nothing (`Poised`).
-/
import Almanac.Proofs.Action
import Almanac.Proofs.Shutdown
import Almanac.Sender
import Mathlib.Logic.Function.Basic

namespace Almanac.Sender

open Broker (Client ConsumeSettings Consumer Delivery)
open Shutdown (Channel Waiter)

variable {σ : Type}

/-! ## What is shared -/

/-- A way to stop a sender. -/
inductive StopPath
  /-- The service shuts down. -/
  | shutdown
  /-- Somebody stops the sender by its handle. -/
  | handle
deriving DecidableEq

/-- What a sender shares with others. -/
structure Desk (σ : Type) where
  world : σ
  channels : StopPath → Channel

namespace Desk

/-- A stop path was taken. -/
def Stopped (d : Desk σ) : Prop := ∃ path, (d.channels path).triggered = true

/-- What others do. -/
inductive Change (d : Desk σ) : Desk σ → Prop
  | world (w : σ) : Change d { d with world := w }
  | channel {path : StopPath} {c : Channel} (h : (d.channels path).Change c) :
      Change d { d with channels := Function.update d.channels path c }

theorem Change.triggered {d e : Desk σ} (h : d.Change e) {path : StopPath}
    (htriggered : (d.channels path).triggered = true) : (e.channels path).triggered = true := by
  cases h with
  | world w => exact htriggered
  | @channel other c h =>
      by_cases heq : path = other
      · subst heq
        simpa using h.triggered htriggered
      · simpa [heq] using htriggered

/-- A sender that can be stopped both ways. -/
def sender (settings : ConsumeSettings) (client : Client σ) : Sender (Desk σ) where
  settings
  broker := client.zoom Desk.world fun w d => { d with world := w }
  stopRequested := Action.look fun d =>
    (d.channels .shutdown).triggered || (d.channels .handle).triggered

end Desk

/-! ## The sender -/

/-- Where a sender is in its loop. -/
inductive Place
  /-- It waits for a stop. -/
  | asking (path : StopPath)
  | listening
  /-- It has taken a delivery. -/
  | received (d : Delivery Bytes)
  /-- It has read and counted the delivery, and is going to acknowledge it. -/
  | counted (d : Delivery Bytes)
  /-- Its stream has ended, and it looks for a stop once more. -/
  | checking (path : StopPath)
  | leaving (outcome : Except Service.Error Unit)
  | returned (outcome : Except Service.Error Unit)

/-- What a sender turns to when it has not been stopped one way. -/
def StopPath.otherwise : StopPath → Place
  | .shutdown => .asking .handle
  | .handle => .listening

/-- What it turns to when its stream has ended and it has not been stopped one way. -/
def StopPath.atEnd (queue : String) : StopPath → Place
  | .shutdown => .checking .handle
  | .handle => .leaving (.error (.consumerClosed queue))

namespace Place

/-- It goes on. -/
def Looping : Place → Prop
  | asking _ | listening | received _ | counted _ => True
  | _ => False

/-- It knows how it is going to end. -/
def Decided (place : Place) (outcome : Except Service.Error Unit) : Prop :=
  place = .leaving outcome ∨ place = .returned outcome

theorem not_decided_of_looping {place : Place} (h : place.Looping)
    (outcome : Except Service.Error Unit) : ¬place.Decided outcome := by
  rintro (rfl | rfl)
  · exact h
  · exact h

end Place

/-- A sender at work, with its books. -/
structure Post (σ : Type) where
  desk : Desk σ
  waiters : StopPath → Waiter := fun _ => {}
  tally : Tally := {}
  place : Place := .asking .shutdown
  /-- What it took from its stream. -/
  taken : List (Delivery Bytes) := []
  /-- What it acknowledged, with the answers. -/
  attempts : List (Delivery Bytes × Except Broker.Error Unit) := []
  /-- It has found its stream at the end. -/
  ended : Bool := false

namespace Post

/-- The waiter of a path, after a step. -/
def stepped (p : Post σ) (path : StopPath) : Waiter :=
  (p.waiters path).step (p.desk.channels path)

/-- The post after a call of the broker. -/
def called (p : Post σ) (w : σ) : Post σ := { p with desk := { p.desk with world := w } }

/-- One move of the sender. -/
inductive Move (settings : ConsumeSettings) (client : Client σ) (c : Consumer) :
    Post σ → Post σ → Prop
  /-- A waiter makes a step. -/
  | ask {p : Post σ} {path : StopPath} (hplace : p.place = .asking path)
      (hready : (p.waiters path).ready (p.desk.channels path) = true) :
      Move settings client c p
        { p with
          waiters := Function.update p.waiters path (p.stepped path)
          place := if (p.stepped path).phase = .done then .leaving (.ok ()) else .asking path }
  /-- A waiter sleeps. -/
  | asked {p : Post σ} {path : StopPath} (hplace : p.place = .asking path)
      (hidle : (p.waiters path).ready (p.desk.channels path) = false) :
      Move settings client c p { p with place := path.otherwise }
  | take {p : Post σ} {d : Delivery Bytes} {w : σ} (hplace : p.place = .listening)
      (hcall : (client.receive c).perform p.desk.world = (.ok (.delivery d), w)) :
      Move settings client c p
        { p.called w with place := .received d, taken := p.taken ++ [d] }
  | wait {p : Post σ} {w : σ} (hplace : p.place = .listening)
      (hcall : (client.receive c).perform p.desk.world = (.ok .empty, w)) :
      Move settings client c p { p.called w with place := .asking .shutdown }
  | finish {p : Post σ} {w : σ} (hplace : p.place = .listening)
      (hcall : (client.receive c).perform p.desk.world = (.ok .ended, w)) :
      Move settings client c p { p.called w with place := .checking .shutdown, ended := true }
  | read {p : Post σ} {d : Delivery Bytes} (hplace : p.place = .received d) :
      Move settings client c p
        { p with
          tally := p.tally.read d.body
          place := if settings.autoAck then .asking .shutdown else .counted d }
  | settle {p : Post σ} {d : Delivery Bytes} {answer : Except Broker.Error Unit} {w : σ}
      (hplace : p.place = .counted d)
      (hcall : (client.ack d.tag false).perform p.desk.world = (.ok answer, w)) :
      Move settings client c p
        { p.called w with
          tally := p.tally.settled answer
          place := .asking .shutdown
          attempts := p.attempts ++ [(d, answer)] }
  | check {p : Post σ} {path : StopPath} (hplace : p.place = .checking path) :
      Move settings client c p
        { p with
          place := if (p.desk.channels path).triggered then .leaving (.ok ())
            else path.atEnd settings.queue }
  | leave {p : Post σ} {outcome : Except Service.Error Unit} {w : σ}
      (hplace : p.place = .leaving outcome)
      (hcall : (client.drop c).perform p.desk.world = (.ok (), w)) :
      Move settings client c p { p.called w with place := .returned outcome }

/-- A run of a sender among others, in which it makes a number of moves. -/
inductive Run (settings : ConsumeSettings) (client : Client σ) (c : Consumer) :
    Nat → Post σ → Post σ → Prop
  | refl (p : Post σ) : Run settings client c 0 p p
  | move {n : Nat} {p q r : Post σ} (hrun : Run settings client c n p q)
      (hmove : Move settings client c q r) : Run settings client c (n + 1) p r
  | other {n : Nat} {p q : Post σ} {desk : Desk σ} (hrun : Run settings client c n p q)
      (hchange : q.desk.Change desk) : Run settings client c n p { q with desk }

variable {settings : ConsumeSettings} {client : Client σ} {c : Consumer} {n m : Nat}
  {p q r : Post σ}

namespace Run

theorem single (h : Move settings client c p q) : Run settings client c 1 p q := .move (.refl p) h

theorem trans (h : Run settings client c n p q) (h' : Run settings client c m q r) :
    Run settings client c (n + m) p r := by
  induction h' with
  | refl => exact h
  | move _ hmove ih => exact .move (ih h) hmove
  | other _ hchange ih => exact .other (ih h) hchange

/-- What the sender and the others keep holds through a run. -/
theorem preserves {P : Post σ → Prop} (h : Run settings client c n p q)
    (hmove : ∀ p q, P p → Move settings client c p q → P q)
    (hother : ∀ p desk, P p → p.desk.Change desk → P { p with desk }) (hp : P p) : P q := by
  induction h with
  | refl => exact hp
  | move _ hnext ih => exact hmove _ _ (ih hp) hnext
  | other _ hchange ih => exact hother _ _ (ih hp) hchange

end Run

/-! ## The channels -/

/-- The sender leaves the channels to others. -/
theorem Move.channels (h : Move settings client c p q) : q.desk.channels = p.desk.channels := by
  cases h <;> rfl

/-- A stop lasts. -/
theorem Run.triggered (h : Run settings client c n p q) {path : StopPath}
    (htriggered : (p.desk.channels path).triggered = true) :
    (q.desk.channels path).triggered = true :=
  h.preserves (P := fun p => (p.desk.channels path).triggered = true)
    (fun _ _ hp hmove => hmove.channels ▸ hp) (fun _ _ hp hchange => hchange.triggered hp) htriggered

theorem Run.stopped (h : Run settings client c n p q) (hstopped : p.desk.Stopped) :
    q.desk.Stopped :=
  hstopped.imp fun _ htriggered => h.triggered htriggered

/-- So does the end of the stream. -/
theorem Run.ended (h : Run settings client c n p q) (hended : p.ended = true) : q.ended = true := by
  refine h.preserves (P := fun p => p.ended = true) (fun p q hp hmove => ?_) (fun _ _ hp _ => hp)
    hended
  cases hmove with
  | finish => rfl
  | _ => exact hp

/-- The channels are live, and the waiters of the sender miss nothing. -/
structure Poised (p : Post σ) : Prop where
  live : ∀ path, (p.desk.channels path).Live
  alert : ∀ path, Waiter.Alert (p.desk.channels path) (p.waiters path)
  /-- When a waiter is done, the sender leaves. -/
  awake : (∃ outcome, p.place.Decided outcome) ∨ ∀ path, (p.waiters path).phase ≠ .done

/-- A sender that starts has missed nothing. -/
theorem poised_start {desk : Desk σ} (hlive : ∀ path, (desk.channels path).Live) :
    ({ desk } : Post σ).Poised :=
  ⟨hlive, fun _ => Waiter.alert_fresh _, Or.inr fun _ => by simp⟩

namespace Poised

/-- While the sender has not decided to leave, its waiters wait. -/
theorem waiting (h : p.Poised) (hnot : ∀ outcome, ¬p.place.Decided outcome) (path : StopPath) :
    (p.waiters path).phase ≠ .done :=
  h.awake.resolve_left (fun ⟨outcome, hdecided⟩ => hnot outcome hdecided) path

theorem change (h : p.Poised) {desk : Desk σ} (hchange : p.desk.Change desk) :
    ({ p with desk } : Post σ).Poised := by
  cases hchange with
  | world w => exact ⟨h.live, h.alert, h.awake⟩
  | @channel path c hchannel =>
      refine ⟨fun other => ?_, fun other => ?_, h.awake⟩
      · by_cases heq : other = path
        · subst heq
          simpa using (h.live other).change hchannel
        · simpa [heq] using h.live other
      · by_cases heq : other = path
        · subst heq
          simpa using (h.alert other).change hchannel
        · simpa [heq] using h.alert other

theorem stepped (h : p.Poised) (path : StopPath) :
    Waiter.Alert (p.desk.channels path) (p.stepped path) :=
  (h.alert path).step (h.live path)

theorem move (h : p.Poised) (hmove : Move settings client c p q) : q.Poised := by
  cases hmove with
  | @ask path hplace =>
      have hwaiting := h.waiting (by simp [Place.Decided, hplace])
      refine ⟨h.live, fun other => ?_, ?_⟩
      · by_cases heq : other = path
        · subst heq
          simpa using h.stepped other
        · simpa [heq] using h.alert other
      · by_cases hdone : (p.stepped path).phase = .done
        · exact Or.inl ⟨.ok (), Or.inl (if_pos hdone)⟩
        · refine Or.inr fun other => ?_
          by_cases heq : other = path
          · subst heq
            simpa using hdone
          · simpa [heq] using hwaiting other
  | @leave outcome => exact ⟨h.live, h.alert, Or.inl ⟨outcome, Or.inr rfl⟩⟩
  | asked hplace | take hplace | wait hplace | finish hplace | read hplace | settle hplace
  | check hplace =>
      exact ⟨h.live, h.alert, Or.inr (h.waiting (by simp [Place.Decided, hplace]))⟩

theorem run (h : p.Poised) (hrun : Run settings client c n p q) : q.Poised :=
  hrun.preserves (fun _ _ hp hmove => hp.move hmove) (fun _ _ hp hchange => hp.change hchange) h

end Poised

/-! ## The step of a sender -/

/-- A sender that is left alone finds out whether it has been stopped one way. -/
theorem Poised.exists_asked (settings : ConsumeSettings) (client : Client σ) (c : Consumer)
    (h : p.Poised) {path : StopPath} (hplace : p.place = .asking path) :
    ∃ n q, Run settings client c n p q ∧ q.desk = p.desk ∧ q.tally = p.tally ∧
      q.place = if (p.desk.channels path).triggered then .leaving (.ok ()) else path.otherwise := by
  induction hpatience : Waiter.patience (p.desk.channels path) (p.waiters path) using
    Nat.strongRecOn generalizing p with
  | ind k ih =>
      subst hpatience
      have hnot := h.waiting (by simp [Place.Decided, hplace]) path
      cases hready : (p.waiters path).ready (p.desk.channels path) with
      | false =>
          have hidle := (((h.alert path).ready_iff (h.live path) hnot).mp hready).2
          exact ⟨_, _, .single (.asked hplace hready), rfl, rfl, by simp [hidle]⟩
      | true =>
          have hmove : Move settings client c p _ := .ask hplace hready
          by_cases hdone : (p.stepped path).phase = .done
          · have htriggered := (h.stepped path).done hdone
            exact ⟨_, _, .single hmove, rfl, rfl, by simp [hdone, htriggered]⟩
          · -- The waiter has less to do from now on.
            have hless := (h.alert path).patience_step (h.live path) hready
            obtain ⟨n, q, hrun, hdesk, htally, hplaced⟩ :=
              ih _ (by simpa [Post.stepped] using hless) (h.move hmove) (by simp [hdone]) rfl
            exact ⟨_, q, (Run.single hmove).trans hrun, hdesk, htally, hplaced⟩

/-- A stop leads it out of the loop, and otherwise it comes to its stream. -/
theorem Poised.exists_looked (settings : ConsumeSettings) (client : Client σ) (c : Consumer)
    (h : p.Poised) (hplace : p.place = .asking .shutdown) :
    ∃ n q, Run settings client c n p q ∧ q.desk = p.desk ∧ q.tally = p.tally ∧
      q.place = if (p.desk.channels .shutdown).triggered || (p.desk.channels .handle).triggered
        then .leaving (.ok ()) else .listening := by
  obtain ⟨n, q, hrun, hdesk, htally, hplaced⟩ := h.exists_asked settings client c hplace
  cases hshutdown : (p.desk.channels .shutdown).triggered with
  | true => exact ⟨n, q, hrun, hdesk, htally, by rw [hplaced, hshutdown]; rfl⟩
  | false =>
      have hnext : q.place = .asking .handle := by
        rw [hplaced, hshutdown]
        rfl
      obtain ⟨m, r, hrun', hdesk', htally', hplaced'⟩ :=
        (h.run hrun).exists_asked settings client c hnext
      refine ⟨n + m, r, hrun.trans hrun', hdesk'.trans hdesk, htally'.trans htally, ?_⟩
      rw [hplaced', hdesk]
      rfl

/-- What a post has come to when a step went in a certain way. -/
def Shows (p : Post σ) (c : Consumer) (before : Tally) : Progress → Prop
  | .waits => p.place = .asking .shutdown ∧ p.tally = before
  | .moved t (.consuming c') => c' = c ∧ p.place = .asking .shutdown ∧ p.tally = t
  | .moved t (.ended outcome) => p.place = .returned outcome ∧ p.tally = t
  | .moved _ .registering => False

/-- A call of the broker leaves the channels alone. -/
theorem perform_world {α : Type} {act : Action σ α} {d e : Desk σ} {a : α}
    (h : (Action.zoom Desk.world (fun w (d : Desk σ) => { d with world := w }) act).perform d =
      (.ok a, e)) :
    ∃ w, act.perform d.world = (.ok a, w) ∧ e = { d with world := w } := by
  rw [Action.perform_zoom] at h
  obtain ⟨hanswer, rfl⟩ := Prod.mk.inj h
  exact ⟨_, Prod.ext hanswer rfl, rfl⟩

/-- A sender that is about to leave does so. -/
theorem run_of_leave {outcome : Except Service.Error Unit} {progress : Progress} {desk : Desk σ}
    (hplace : p.place = .leaving outcome)
    (h : ((Desk.sender settings client).leave p.tally c outcome).perform p.desk =
      (.ok progress, desk)) :
    ∃ q, Run settings client c 1 p q ∧ q.desk = desk ∧ q.Shows c p.tally progress := by
  obtain ⟨_, e, hdrop, h⟩ := Action.perform_bind_eq_ok.mp h
  cases h
  obtain ⟨w, hcall, rfl⟩ := perform_world hdrop
  exact ⟨_, .single (.leave hplace hcall), rfl, rfl, rfl⟩

/-- A sender that has taken a delivery handles it, and goes on whatever the broker answers. -/
theorem run_of_handle {d : Delivery Bytes} {t : Tally} {desk : Desk σ}
    (hplace : p.place = .received d)
    (h : ((Desk.sender settings client).handle p.tally d).perform p.desk = (.ok t, desk)) :
    ∃ n q, Run settings client c n p q ∧ q.desk = desk ∧ q.tally = t ∧
      q.place = .asking .shutdown := by
  have hread : Move settings client c p _ := .read hplace
  cases hauto : settings.autoAck with
  | true =>
      simp only [handle, Desk.sender, hauto, if_true] at h
      cases h
      exact ⟨1, _, .single hread, rfl, rfl, by simp [hauto]⟩
  | false =>
      simp only [handle, Desk.sender, hauto, Bool.false_eq_true, if_false] at h
      obtain ⟨answer, e, hack, h⟩ := Action.perform_bind_eq_ok.mp h
      cases h
      obtain ⟨w, hcall, rfl⟩ := perform_world hack
      rw [hauto] at hread
      exact ⟨2, _, .move (.single hread) (.settle rfl hcall), rfl, rfl, rfl⟩

/-- A sender that finds its stream at the end, and has not been stopped, is going to fail. -/
theorem run_of_check (hplace : p.place = .checking .shutdown)
    (hshutdown : (p.desk.channels .shutdown).triggered = false)
    (hhandle : (p.desk.channels .handle).triggered = false) :
    ∃ q, Run settings client c 2 p q ∧ q.desk = p.desk ∧ q.tally = p.tally ∧
      q.place = .leaving (.error (.consumerClosed settings.queue)) := by
  have hcheck : Move settings client c p { p with place := .checking .handle } := by
    have hmove : Move settings client c p _ := .check hplace
    rwa [hshutdown] at hmove
  have hcheck' : Move settings client c { p with place := .checking .handle }
      { p with place := .leaving (.error (.consumerClosed settings.queue)) } := by
    have hmove : Move settings client c { p with place := .checking .handle } _ := .check rfl
    rwa [show (({ p with place := .checking .handle } : Post σ).desk.channels .handle).triggered =
      false from hhandle] at hmove
  exact ⟨_, .move (.single hcheck) hcheck', rfl, rfl, rfl⟩

/-- The step of a sender that consumes is a run, in which nobody disturbs it. -/
theorem Poised.run_of_step (h : p.Poised) (hplace : p.place = .asking .shutdown)
    {progress : Progress} {desk : Desk σ}
    (hstep : ((Desk.sender settings client).step p.tally (.consuming c)).perform p.desk =
      (.ok progress, desk)) :
    ∃ n q, Run settings client c n p q ∧ q.desk = desk ∧ q.Shows c p.tally progress := by
  obtain ⟨n, q, hrun, hdesk, htally, hplaced⟩ := h.exists_looked settings client c hplace
  obtain ⟨stop, e, hlook, hstep⟩ := Action.perform_bind_eq_ok.mp hstep
  cases hlook
  cases hstop : (p.desk.channels .shutdown).triggered || (p.desk.channels .handle).triggered with
  | true =>
      rw [hstop, if_pos rfl] at hplaced
      simp only [hstop, if_true] at hstep
      rw [← hdesk, ← htally] at hstep
      obtain ⟨r, hleft, hdesk', hshows⟩ := run_of_leave hplaced hstep
      exact ⟨_, r, hrun.trans hleft, hdesk', htally ▸ hshows⟩
  | false =>
      rw [hstop, if_neg (by simp)] at hplaced
      simp only [hstop, Bool.false_eq_true, if_false] at hstep
      rw [← hdesk, ← htally] at hstep
      obtain ⟨found, e, hreceive, hstep⟩ := Action.perform_bind_eq_ok.mp hstep
      obtain ⟨w, hcall, rfl⟩ := perform_world hreceive
      cases found with
      | empty =>
          cases hstep
          exact ⟨_, _, hrun.trans (.single (.wait hplaced hcall)), rfl, rfl, htally⟩
      | delivery d =>
          obtain ⟨t, e, hhandle, hstep⟩ := Action.perform_bind_eq_ok.mp hstep
          cases hstep
          obtain ⟨m, r, hhandled, hdesk', htally', hplaced'⟩ := run_of_handle
            (p := { q.called w with place := .received d, taken := q.taken ++ [d] }) rfl hhandle
          have htake := hrun.trans (.single (.take hplaced hcall))
          exact ⟨_, r, htake.trans hhandled, hdesk', rfl, hplaced', htally'⟩
      | ended =>
          -- Nobody has stopped it in between, so both checks pass.
          obtain ⟨stop, e, hlook, hstep⟩ := Action.perform_bind_eq_ok.mp hstep
          cases hlook
          obtain ⟨hshutdown, hhandle⟩ := Bool.or_eq_false_iff.mp hstop
          rw [← hdesk] at hshutdown hhandle
          simp only [hshutdown, hhandle, Bool.or_false, Bool.false_eq_true, if_false] at hstep
          obtain ⟨r, hchecked, hdesk', htally', hplaced'⟩ := run_of_check
            (p := { q.called w with place := .checking .shutdown, ended := true }) rfl hshutdown
            hhandle
          have hleave : ((Desk.sender settings client).leave r.tally c
              (.error (.consumerClosed settings.queue))).perform r.desk = (.ok progress, desk) := by
            rw [hdesk', htally']
            exact hstep
          obtain ⟨r', hleft, hdesk'', hshows⟩ := run_of_leave hplaced' hleave
          have hend := (hrun.trans (.single (.finish hplaced hcall))).trans (hchecked.trans hleft)
          rw [htally', show ({ q.called w with place := .checking .shutdown, ended := true } :
            Post σ).tally = p.tally from htally] at hshows
          exact ⟨_, r', hend, hdesk'', hshows⟩

end Post

end Almanac.Sender
