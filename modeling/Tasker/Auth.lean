import Tasker.Models

/-!
Accounts of Firebase Auth.

* `Auth`: the password accounts by their email addresses, and the accounts of
  the identities of other providers.
* `createUser`, `signIn`, `updatePassword`, `signInWith`, `deleteUser`: the
  requests the screens make; `none` is an error. A password is stored and
  compared as the exact text.
-/

namespace Tasker

open DocStore

/-- An account with a password. -/
structure Account where
  uid : String
  password : String
  deriving DecidableEq, Repr

/-- The accounts. -/
structure Auth where
  accounts : Collection String Account := ∅
  identities : Collection String String := ∅

namespace Auth

/-- `createUser(withEmail:password:)`, with the uid of the new account. -/
def createUser (auth : Auth) (email password uid : String) : Option Auth :=
  match auth.accounts.lookup email with
  | none => some { auth with accounts := setData auth.accounts email { uid, password } }
  | some _ => none

/-- `signIn(withEmail:password:)`, and `reauthenticate`. -/
def signIn (auth : Auth) (email password : String) : Option String :=
  match auth.accounts.lookup email with
  | some account => if account.password = password then some account.uid else none
  | none => none

/-- `updatePassword(to:)`. -/
def updatePassword (auth : Auth) (email password : String) : Option Auth :=
  (auth.accounts.lookup email).map fun account =>
    { auth with accounts := setData auth.accounts email { account with password } }

/-- `signIn(with:)` a credential of another provider: the account of the
identity, or a new one. -/
def signInWith (auth : Auth) (credential uid : String) : Auth × String :=
  match auth.identities.lookup credential with
  | some known => (auth, known)
  | none => ({ auth with identities := setData auth.identities credential uid }, uid)

/-- `delete` of the user `uid`, who signed in with the credential. -/
def deleteUser (auth : Auth) (credential uid : String) : Auth :=
  if auth.identities.lookup credential = some uid then
    { auth with identities := auth.identities.erase credential }
  else auth

/-- A new account is the only change. -/
lemma createUser_eq_some {auth auth' : Auth} {email password uid : String}
    (h : auth.createUser email password uid = some auth') :
    auth.accounts.lookup email = none ∧
      auth' = { auth with accounts := setData auth.accounts email { uid, password } } := by
  rw [createUser] at h
  split at h
  · next hnone => exact ⟨hnone, (Option.some.inj h).symm⟩
  · exact absurd h (by simp)

lemma updatePassword_eq_some {auth auth' : Auth} {email password : String}
    (h : auth.updatePassword email password = some auth') :
    ∃ account, auth.accounts.lookup email = some account ∧
      auth' = { auth with accounts := setData auth.accounts email { account with password } } := by
  obtain ⟨account, haccount, rfl⟩ := Option.map_eq_some_iff.mp h
  exact ⟨account, haccount, rfl⟩

/-- Exactly the stored text signs in. -/
lemma signIn_eq {auth : Auth} {email : String} {account : Account} (password : String)
    (h : auth.accounts.lookup email = some account) :
    auth.signIn email password =
      if account.password = password then some account.uid else none := by
  rw [signIn, h]

/-- Signing in again finds the account. -/
lemma signInWith_of_some {auth : Auth} {credential known : String} (uid : String)
    (h : auth.identities.lookup credential = some known) :
    auth.signInWith credential uid = (auth, known) := by
  rw [signInWith, h]

/-- Signing in for the first time creates one. -/
lemma signInWith_of_none {auth : Auth} {credential : String} (uid : String)
    (h : auth.identities.lookup credential = none) :
    auth.signInWith credential uid =
      ({ auth with identities := setData auth.identities credential uid }, uid) := by
  rw [signInWith, h]

/-- The account is deleted if it is the one of the identity. -/
lemma lookup_deleteUser (auth : Auth) (credential uid : String) :
    (auth.deleteUser credential uid).identities.lookup credential =
      if auth.identities.lookup credential = some uid then none
      else auth.identities.lookup credential := by
  rw [deleteUser]
  split
  · exact AList.lookup_erase credential auth.identities
  · rfl

end Auth

end Tasker
