/-
  Almanac.Proofs.Rpc.Called

  Calls that have been read. A body of one frame is read as the message in it
  (`readArgument_frame`), and what the calendar says to that message is the reply
  (`given_ok`, `perform_ask`).
-/
import Almanac.Proofs.Action
import Almanac.Proofs.Rpc.Message
import Almanac.Rpc.Service

namespace Almanac.Rpc

/-! ## Frames -/

/-- The four bytes of a number that they hold. -/
theorem bigEndian_bytes {n : Nat} (h : n < 4294967296) :
    bigEndian [UInt8.ofNat (n / 16777216), UInt8.ofNat (n / 65536), UInt8.ofNat (n / 256),
      UInt8.ofNat n] = n := by
  simp only [bigEndian, List.foldl_cons, List.foldl_nil, UInt8.toNat_ofNat']
  omega

/-- A message in a frame of its own is the next frame. -/
theorem nextFrame_frame {message : Bytes} (h : message.length ≤ maxMessage) :
    nextFrame (frame message) = .ok (some (message, [])) := by
  have hmax : maxMessage = 4194304 := rfl
  have hlength := bigEndian_bytes (n := message.length) (by omega)
  simp only [frame, List.cons_append, List.nil_append, nextFrame, hlength]
  rw [if_neg (by decide), if_neg (by omega), List.take_length, if_neg (Nat.lt_irrefl _),
    List.drop_length]

/-- A body of one frame has one message. -/
theorem readMessages_frame {α : Type} [Message α] {message : Bytes} {a : α}
    (hlength : message.length ≤ maxMessage) (h : Message.decode message = some a) (fuel : Nat) :
    readMessages (fuel + 2) (frame message) = .ok [a] := by
  have hrest : (readMessages (fuel + 1) [] : Except Refusal (List α)) = .ok [] := rfl
  rw [readMessages, nextFrame_frame hlength]
  simp only [bind, Except.bind, h, hrest]
  rfl

/-- The argument of a call with one frame is the message in it. -/
theorem readArgument_frame {α : Type} [Message α] {message : Bytes} {a : α}
    (hlength : message.length ≤ maxMessage) (h : Message.decode message = some a) :
    readArgument (frame message) = .ok a := by
  have hfuel : (frame message).length + 1 = message.length + 4 + 2 := by simp [frame]
  rw [readArgument, hfuel, readMessages_frame hlength h]
  rfl

/-! ## Replies -/

/-- What comes of asking the calendar. -/
theorem perform_ask {σ α β : Type} [Message β] {act : StorageAction σ α} {s s' : σ}
    {result : Except StorageError α} (h : act.perform s = (.ok result, s')) (reply : α → β) :
    (ask act reply).perform s =
      (.ok (match result with
        | .ok a => .ok (Message.encode (reply a))
        | .error e => .error (.storage e)), s') := by
  rw [ask, Action.perform_bind_of_ok h]
  cases result <;> rfl

theorem given_ok {σ α : Type} [Message α] {body : Bytes} {a : α} (h : readArgument body = .ok a)
    (next : α → Reply σ) : given body next = next a := by
  unfold given
  rw [h]

end Almanac.Rpc
