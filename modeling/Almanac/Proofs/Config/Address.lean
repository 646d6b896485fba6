/-
  Almanac.Proofs.Config.Address

  Which settings of the database share an address. Nothing in the address marks the separators that
  stand within a part, so a part may be taken for another one: a password for the rest of a user
  name, the front of a host for the rest of an account, the front of a database name for the rest of
  a host or of a password. Plain settings (`DatabaseSection.Plain`) have addresses of their own.

  Behind the first colon of a plain address the first slash ends the authority
  (`DatabaseSection.Plain.exists_cut`), in an authority the last at-sign ends the account, and in an
  account the first colon ends the user name.
-/
import Almanac.Config.Check
import Almanac.Proofs.Text.Decimal
import Mathlib.Data.List.Basic

namespace Almanac

/-! ## Separators -/

section Separators

variable {α : Type} {a : α} {xs xs' ys ys' : List α}

/-- What comes before the first separator and what comes behind it. -/
theorem parts_of_first (hxs : a ∉ xs) (hxs' : a ∉ xs') (h : xs ++ a :: ys = xs' ++ a :: ys') :
    xs = xs' ∧ ys = ys' := by
  induction xs generalizing xs' with
  | nil =>
      cases xs' with
      | nil => exact ⟨rfl, (List.cons.inj h).2⟩
      | cons x xs' =>
          obtain ⟨rfl, -⟩ := List.cons.inj h
          exact (hxs' List.mem_cons_self).elim
  | cons x xs ih =>
      cases xs' with
      | nil =>
          obtain ⟨rfl, -⟩ := List.cons.inj h
          exact (hxs List.mem_cons_self).elim
      | cons x' xs' =>
          obtain ⟨rfl, hrest⟩ := List.cons.inj h
          obtain ⟨rfl, hys⟩ := ih (fun hmem => hxs (List.mem_cons_of_mem _ hmem))
            (fun hmem => hxs' (List.mem_cons_of_mem _ hmem)) hrest
          exact ⟨rfl, hys⟩

/-- What comes before the last separator and what comes behind it. -/
theorem parts_of_last (hys : a ∉ ys) (hys' : a ∉ ys') (h : xs ++ a :: ys = xs' ++ a :: ys') :
    xs = xs' ∧ ys = ys' := by
  have hreverse : ys.reverse ++ a :: xs.reverse = ys'.reverse ++ a :: xs'.reverse := by
    simpa using congrArg List.reverse h
  obtain ⟨hback, hfront⟩ := parts_of_first (by simpa using hys) (by simpa using hys') hreverse
  exact ⟨List.reverse_injective hfront, List.reverse_injective hback⟩

end Separators

namespace Config.DatabaseSection

variable {s s' : DatabaseSection}

/-! ## The parts of an address -/

/-- The user name, and the password if there is one. -/
def account (s : DatabaseSection) : List Char :=
  if s.password.isEmpty then s.userName.toList
  else s.userName.toList ++ ':' :: s.password.toList

/-- The host and the port. -/
def endpoint (s : DatabaseSection) : List Char := s.host.toList ++ ':' :: (natText s.port).toList

/-- What stands between the scheme and the name of the database. -/
def authority (s : DatabaseSection) : List Char := s.account ++ '@' :: s.endpoint

theorem toList_address (h : s.url = none) :
    s.address.toList =
      "postgres://".toList ++ (s.authority ++ '/' :: s.databaseName.toList) := by
  unfold address authority account endpoint
  rw [h]
  dsimp only
  split <;> simp [String.toList_append]

/-! ## Plain settings -/

/-- Settings in which no part holds a separator that could be taken for one between parts. -/
structure Plain (s : DatabaseSection) : Prop where
  userName : ':' ∉ s.userName.toList
  password : '/' ∉ s.password.toList
  host_at : '@' ∉ s.host.toList
  host_slash : '/' ∉ s.host.toList

theorem isDigit_of_mem_natText {n : Nat} {c : Char} (h : c ∈ (natText n).toList) :
    c.isDigit = true := by
  rw [natText, String.toList_ofList] at h
  exact Nat.isDigit_of_mem_toDigits (by decide) (by decide) h

/-- A separator that is not in the host is not in front of or behind its colon. -/
theorem notMem_endpoint {c : Char} (hhost : c ∉ s.host.toList) (hcolon : c ≠ ':')
    (hdigit : c.isDigit = false) : c ∉ s.endpoint := by
  have hport : c ∉ (natText s.port).toList := fun hmem => by
    simp [isDigit_of_mem_natText hmem] at hdigit
  simp [endpoint, hhost, hcolon, hport]

theorem Plain.at_notMem_endpoint (hs : s.Plain) : '@' ∉ s.endpoint :=
  notMem_endpoint hs.host_at (by decide) (by decide)

theorem Plain.slash_notMem_endpoint (hs : s.Plain) : '/' ∉ s.endpoint :=
  notMem_endpoint hs.host_slash (by decide) (by decide)

/-- Behind the first colon of a plain authority there is no slash. -/
theorem Plain.exists_cut (hs : s.Plain) :
    ∃ front back, s.authority = front ++ ':' :: back ∧ ':' ∉ front ∧ '/' ∉ back := by
  have hslash := hs.slash_notMem_endpoint
  have huser := hs.userName
  have hpassword := hs.password
  unfold authority account
  by_cases hempty : s.password.isEmpty
  · -- The first colon is one of the host, or the one behind it.
    have hcolon : ':' ∈ s.endpoint := by simp [endpoint]
    obtain ⟨front, back, hsplit, hfront⟩ := List.eq_append_cons_of_mem hcolon
    refine ⟨s.userName.toList ++ '@' :: front, back, ?_, ?_, ?_⟩
    · rw [if_pos hempty, hsplit]
      simp
    · simp [huser, hfront]
    · exact fun hmem => hslash (by simp [hsplit, hmem])
  · refine ⟨s.userName.toList, s.password.toList ++ '@' :: s.endpoint, ?_, huser, ?_⟩
    · rw [if_neg hempty]
      simp
    · simp [hpassword, hslash]

/-! ## Reading back -/

/-- Plain settings with one address have one authority and one database. -/
theorem authority_of_address (hurl : s.url = none) (hurl' : s'.url = none) (hs : s.Plain)
    (hs' : s'.Plain) (h : s.address = s'.address) :
    s.authority = s'.authority ∧ s.databaseName = s'.databaseName := by
  obtain ⟨front, back, hcut, hfront, hback⟩ := hs.exists_cut
  obtain ⟨front', back', hcut', hfront', hback'⟩ := hs'.exists_cut
  have hchars := congrArg String.toList h
  rw [toList_address hurl, toList_address hurl', List.append_cancel_left_eq, hcut, hcut',
    List.append_assoc, List.append_assoc, List.cons_append, List.cons_append] at hchars
  obtain ⟨rfl, hrest⟩ := parts_of_first hfront hfront' hchars
  obtain ⟨rfl, hname⟩ := parts_of_first hback hback' hrest
  exact ⟨hcut.trans hcut'.symm, String.toList_inj.mp hname⟩

/-- The digits of the port stand behind the last colon. -/
theorem host_of_endpoint (h : s.endpoint = s'.endpoint) : s.host = s'.host ∧ s.port = s'.port := by
  have hcolon : ∀ n, ':' ∉ (natText n).toList := fun n hmem => by
    have hdigit := isDigit_of_mem_natText hmem
    revert hdigit
    decide
  obtain ⟨hhost, hport⟩ := parts_of_last (hcolon s.port) (hcolon s'.port) h
  exact ⟨String.toList_inj.mp hhost, natText_inj (String.toList_inj.mp hport)⟩

/-- The password stands behind the first colon, if there is one. -/
theorem userName_of_account (hs : s.Plain) (hs' : s'.Plain) (h : s.account = s'.account) :
    s.userName = s'.userName ∧ s.password = s'.password := by
  unfold account at h
  by_cases hempty : s.password.isEmpty <;> by_cases hempty' : s'.password.isEmpty
  · rw [if_pos hempty, if_pos hempty'] at h
    rw [String.isEmpty_iff.mp hempty, String.isEmpty_iff.mp hempty']
    exact ⟨String.toList_inj.mp h, rfl⟩
  · -- Only one of the accounts has a colon.
    rw [if_pos hempty, if_neg hempty'] at h
    exact (hs.userName (h ▸ by simp)).elim
  · rw [if_neg hempty, if_pos hempty'] at h
    exact (hs'.userName (h ▸ by simp)).elim
  · rw [if_neg hempty, if_neg hempty'] at h
    obtain ⟨huser, hpassword⟩ := parts_of_first hs.userName hs'.userName h
    exact ⟨String.toList_inj.mp huser, String.toList_inj.mp hpassword⟩

/-- The addresses of plain settings are made of their parts in one way only, so no two of them that
    differ in a part share an address. -/
theorem plain_addresses_apart (hurl : s.url = none) (hurl' : s'.url = none) (hs : s.Plain)
    (hs' : s'.Plain) :
    s.address = s'.address ↔ s.userName = s'.userName ∧ s.password = s'.password ∧
      s.host = s'.host ∧ s.port = s'.port ∧ s.databaseName = s'.databaseName := by
  constructor
  · intro h
    obtain ⟨hauthority, hname⟩ := authority_of_address hurl hurl' hs hs' h
    obtain ⟨haccount, hendpoint⟩ :=
      parts_of_last hs.at_notMem_endpoint hs'.at_notMem_endpoint hauthority
    obtain ⟨huser, hpassword⟩ := userName_of_account hs hs' haccount
    obtain ⟨hhost, hport⟩ := host_of_endpoint hendpoint
    exact ⟨huser, hpassword, hhost, hport, hname⟩
  · rintro ⟨huser, hpassword, hhost, hport, hname⟩
    unfold address
    rw [hurl, hurl', huser, hpassword, hhost, hport, hname]

/-- Two settings with a colon in a password, and with signs of every kind in what may hold them. -/
theorem wildParts_apart :
    let s : DatabaseSection :=
      { userName := "a@b", password := "c:d@e", host := "::1", databaseName := "f:1/g@h" }
    let s' : DatabaseSection :=
      { userName := "a@b", password := "c:d", host := "::1", databaseName := "f:1/g@h" }
    s.Plain ∧ s'.Plain ∧ s.address ≠ s'.address := by
  intro s s'
  have hs : s.Plain := ⟨by decide, by decide, by decide, by decide⟩
  have hs' : s'.Plain := ⟨by decide, by decide, by decide, by decide⟩
  refine ⟨hs, hs', fun h => ?_⟩
  obtain ⟨-, hpassword, -⟩ := (plain_addresses_apart rfl rfl hs hs').mp h
  exact absurd hpassword (by decide)

/-! ## Settings that share an address -/

/-- A password may be a part of the user name. -/
theorem address_password_moved (hurl : s.url = none) (hpassword : s.password.isEmpty = false) :
    { s with userName := s.userName ++ ":" ++ s.password, password := "" }.address =
      s.address := by
  have hnone : "".isEmpty = true := rfl
  simp only [address, hurl, hpassword, hnone, if_true, Bool.false_eq_true, if_false,
    String.append_assoc]

/-- The front of a host may be a part of the user name. -/
theorem address_host_moved (hurl : s.url = none) (hpassword : s.password.isEmpty = true)
    (front host : String) :
    { s with host := front ++ "@" ++ host }.address =
      { s with userName := s.userName ++ "@" ++ front, host }.address := by
  simp only [address, hurl, hpassword, if_true, String.append_assoc]

/-- The front of the name of the database may be a part of the host. -/
theorem address_databaseName_moved (hurl : s.url = none) (front name : String) (port : Nat) :
    { s with databaseName := front ++ ":" ++ natText port ++ "/" ++ name }.address =
      { s with
        host := s.host ++ ":" ++ natText s.port ++ "/" ++ front, port,
        databaseName := name }.address := by
  simp only [address, hurl, String.append_assoc]

/-- An endpoint may be a part of the password, and what follows it the name of the database. -/
theorem address_endpoint_moved (hurl : s.url = none) {password : String}
    (hpassword : password.isEmpty = false) (host name : String) (port : Nat) :
    { s with
      password, host, port,
      databaseName := name ++ "@" ++ s.host ++ ":" ++ natText s.port ++ "/" ++
        s.databaseName }.address =
      { s with
        password := password ++ "@" ++ host ++ ":" ++ natText port ++ "/" ++ name }.address := by
  have hlonger : (password ++ "@" ++ host ++ ":" ++ natText port ++ "/" ++ name).isEmpty =
      false := by simp
  simp only [address, hurl, hpassword, hlonger, Bool.false_eq_true, if_false]
  simp only [String.append_assoc]

/-- A user name with a colon and a user name with a password. -/
theorem colonInName_shares_address :
    let s : DatabaseSection := { userName := "a:b" }
    let s' : DatabaseSection := { userName := "a", password := "b" }
    s.url = none ∧ s'.url = none ∧ s.address = s'.address ∧
      s.address = "postgres://a:b@localhost:5432/calendar" ∧
      s.userName ≠ s'.userName ∧ s.password ≠ s'.password := by
  refine ⟨rfl, rfl, ?_, by decide, by decide, by decide⟩
  exact address_password_moved (s := { userName := "a", password := "b" }) rfl rfl

end Config.DatabaseSection

end Almanac
