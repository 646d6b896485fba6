/-
  Almanac.Proofs.Notification

  The codec of notifications. What is written is read back as it was (`decode_of_encode`),
  because writing and reading check the size against the same limit; writing fails for size
  alone (`written_within_limit_and_read_back`).
-/
import Almanac.Notification
import Almanac.Proofs.Json.Record

namespace Almanac.Notification

open Json

theorem layout_decode_encode (n : Notification) : layout.decode (layout.encode n) = .ok n :=
  Layout.Faithful.decode_encode <| Layout.faithful (by decide) (by simp [layout])
    (.cons (readsBack_text n.id) (.cons (readsBack_text n.title)
      (.cons (readsBack_text n.description) (.cons (readsBack_instant n.notification) .nil))))
    rfl

/-- What was written is read back. -/
theorem decode_of_encode {n : Notification} {body : Bytes} (h : n.encode = .ok body) :
    decode body = .ok n := by
  unfold encode at h
  dsimp only at h
  split at h
  · simp at h
  · next hsize =>
    have hbody : layout.encode n = body := Except.ok.inj h
    -- A JSON text is never empty.
    have hne : body.isEmpty = false := by rw [← hbody]; rfl
    rw [hbody] at hsize
    unfold decode
    rw [if_neg (by simp [hne]), if_neg hsize, ← hbody, layout_decode_encode]

/-! ## The limit -/

/-- Reading refuses a body for its size when it is longer than the limit of writing, and for no
    other reason. -/
theorem decode_eq_tooLarge_iff {body : Bytes} {size limit : Nat} :
    decode body = .error (.tooLarge size limit) ↔
      maxSize < body.length ∧ size = body.length ∧ limit = maxSize := by
  unfold decode
  split
  · next hempty =>
    -- An empty body has an error of its own, and is not too long.
    have hlength : body.length = 0 := by rw [List.isEmpty_iff.mp hempty]; rfl
    have hsmall : ¬maxSize < body.length := by omega
    simp [hsmall]
  split
  · next hlarge =>
    simp only [Except.error.injEq, WireError.tooLarge.injEq]
    constructor
    · rintro ⟨hsize, hlimit⟩
      exact ⟨hlarge, hsize.symm, hlimit.symm⟩
    · rintro ⟨-, hsize, hlimit⟩
      exact ⟨hsize.symm, hlimit.symm⟩
  · next hsmall =>
    -- What is left to fail is the JSON.
    constructor
    · intro h
      cases hread : layout.decode body with
      | ok n => simp [hread] at h
      | error fault => simp [hread] at h
    · rintro ⟨hlarge, -⟩
      exact absurd hlarge hsmall

/-- Writing a notification fails exactly when its JSON text is longer than 64 KiB, and then says how
    long it is. Any other notification is written as that text and read back as it was. Reading
    refuses a body for its size at the same limit. -/
theorem written_within_limit_and_read_back (n : Notification) :
    (∀ e, n.encode = .error e ↔
      65536 < (layout.encode n).length ∧ e = .tooLarge (layout.encode n).length 65536) ∧
    (∀ body, n.encode = .ok body ↔
      (layout.encode n).length ≤ 65536 ∧ body = layout.encode n) ∧
    (∀ body, n.encode = .ok body → decode body = .ok n) ∧
    ∀ body size limit, decode body = .error (.tooLarge size limit) ↔
      65536 < body.length ∧ size = body.length ∧ limit = 65536 := by
  have hencode : n.encode = if 65536 < (layout.encode n).length then
      .error (.tooLarge (layout.encode n).length 65536) else .ok (layout.encode n) := rfl
  refine ⟨fun e => ?_, fun body => ?_, fun body => decode_of_encode,
    fun body size limit => decode_eq_tooLarge_iff⟩
  · rw [hencode]
    split
    · next hlarge =>
      rw [Except.error.injEq]
      exact ⟨fun h => ⟨hlarge, h.symm⟩, fun h => h.2.symm⟩
    · next hsmall =>
      constructor
      · intro h
        simp at h
      · rintro ⟨hlarge, -⟩
        exact absurd hlarge hsmall
  · rw [hencode]
    split
    · next hlarge =>
      constructor
      · intro h
        simp at h
      · rintro ⟨hsmall, -⟩
        omega
    · next hsmall =>
      rw [Except.ok.injEq]
      exact ⟨fun h => ⟨by omega, h.symm⟩, fun h => h.2.symm⟩

end Almanac.Notification
