import Tasker.Lib.EventSystem
import Tasker.Screens.Login
import Tasker.Screens.Registration

/-!
Passwords typed again.

* `Event`, `step`: registrations, logins and changes of a password that succeed;
  one that fails leaves the accounts alone.
* `Retypable`: a text accepted as a password by either screen can be typed
  again, at any later time before the next change, at the login and in the
  account settings.
* `retypable_iff`: these are the texts without surrounding whitespace, and the
  texts that no screen accepts.
-/

namespace Tasker.Account

open DocStore EventSystem

/-- A success of one of the screens. -/
inductive PasswordEvent where
  /-- `RegistrationStep1ViewController.continueTapped`, and `createUser` on the
  setup page it presents. -/
  | register (page : RegistrationStep1ViewController) (uid : String)
  /-- `LoginViewController.continueTapped`. -/
  | login (page : LoginViewController)
  /-- `AccountSettingsViewController.confirmTapped` of the user with the address
  `email`. -/
  | confirm (email : String) (page : AccountSettingsViewController)

/-- The accounts after an event. -/
def passwordStep (auth : Auth) : PasswordEvent → Option Auth
  | .register page uid =>
      page.continueTapped.2.bind fun setup =>
        if setup.password ≠ "" then auth.createUser setup.email setup.password uid else none
  | .login page => (page.continueTapped auth "").2.map fun _ => auth
  | .confirm email page => (page.confirmTapped auth email "").2

/-- The event accepts the text `t` as the password of `email`. -/
def Accepts (t email : String) : PasswordEvent → Prop
  | .register page _ =>
      trimmingCharacters page.emailAddressTextField = email ∧ page.passwordTextField = t ∧
        page.confirmPasswordTextField = t
  | .login _ => False
  | .confirm email' page => email' = email ∧ page.newPass = t ∧ page.confirmPass = t

/-- The event changes the password of `email`. -/
def Changes (email : String) : PasswordEvent → Prop
  | .confirm email' _ => email' = email
  | _ => False

/-- Once accepted, and until it is changed, the text signs in and reauthenticates. -/
def Retypable (t : String) : Prop :=
  ∀ (email : String) (es es' : List PasswordEvent) (e : PasswordEvent) (auth auth' : Auth),
    exec passwordStep {} (es ++ [e]) = some auth → Accepts t email e →
    exec passwordStep auth es' = some auth' → (∀ x ∈ es', ¬ Changes email x) →
    (∀ page : LoginViewController, trimmingCharacters page.emailAddressTextField = email →
      page.passwordTextField = t → (page.continueTapped auth' "").2.isSome) ∧
    (∀ page : AccountSettingsViewController, page.curPass = t →
      (page.reauthenticate auth' email).isSome)

/-! ### What an event does -/

variable {auth auth' : Auth} {email t : String}

/-- What a registration takes: a valid address and a valid password. -/
lemma register_spec {page : RegistrationStep1ViewController} {uid : String}
    (h : passwordStep auth (.register page uid) = some auth') :
    isEmailValid (trimmingCharacters page.emailAddressTextField) = true ∧
      isPasswordValid (trimmingCharacters page.passwordTextField) = true ∧
      auth.createUser (trimmingCharacters page.emailAddressTextField)
        (trimmingCharacters page.confirmPasswordTextField) uid = some auth' := by
  obtain ⟨setup, hsetup, hcreate⟩ := Option.bind_eq_some_iff.mp h
  rw [RegistrationStep1ViewController.continueTapped] at hsetup
  split at hsetup
  · exact absurd hsetup (by simp)
  · next hvalid =>
      rw [RegistrationStep1ViewController.validateFields] at hvalid
      split_ifs at hvalid with _ hemail hpassword _
      obtain rfl := Option.some.inj hsetup
      split at hcreate
      · exact ⟨Bool.of_not_eq_false hemail, Bool.of_not_eq_false hpassword, hcreate⟩
      · exact absurd hcreate (by simp)

/-- What a change takes: a valid password, which replaces the old one. -/
lemma confirm_spec {page : AccountSettingsViewController}
    (h : passwordStep auth (.confirm email page) = some auth') :
    isPasswordValid (trimmingCharacters page.newPass) = true ∧
      auth.updatePassword email page.newPass = some auth' := by
  obtain ⟨hvalid, hupdate⟩ := AccountSettingsViewController.confirmTapped_eq_some h
  rw [AccountSettingsViewController.validateFields] at hvalid
  split_ifs at hvalid with _ hpassword _
  exact ⟨Bool.of_not_eq_false hpassword, hupdate⟩

/-- No account has the empty address. -/
def NoBlank (auth : Auth) : Prop := auth.accounts.lookup "" = none

lemma noBlank_empty : NoBlank {} := rfl

lemma noBlank_step {e : PasswordEvent} (h : NoBlank auth)
    (hs : passwordStep auth e = some auth') : NoBlank auth' := by
  cases e with
  | register page uid =>
      obtain ⟨hemail, -, hcreate⟩ := register_spec hs
      obtain ⟨-, rfl⟩ := Auth.createUser_eq_some hcreate
      refine (lookup_setData_ne (fun hempty => ?_) _ _).trans h
      rw [← hempty] at hemail
      exact absurd hemail (by decide +kernel)
  | login page =>
      obtain ⟨uid, -, rfl⟩ := Option.map_eq_some_iff.mp hs
      exact h
  | confirm email page =>
      obtain ⟨account, haccount, rfl⟩ := Auth.updatePassword_eq_some (confirm_spec hs).2
      refine (lookup_setData_ne ?_ _ _).trans h
      rintro rfl
      exact absurd (h.symm.trans haccount) (by simp)

/-- The account of `email`. -/
def Stores (email : String) (account : Account) (auth : Auth) : Prop :=
  auth.accounts.lookup email = some account

/-- An account stays as it is until its password is changed. -/
lemma stores_step {e : PasswordEvent} {account : Account} (h : Stores email account auth)
    (he : ¬ Changes email e) (hs : passwordStep auth e = some auth') :
    Stores email account auth' := by
  cases e with
  | register page uid =>
      obtain ⟨hnew, rfl⟩ := Auth.createUser_eq_some (register_spec hs).2.2
      refine (lookup_setData_ne ?_ _ _).trans h
      rintro rfl
      exact absurd (hnew.symm.trans h) (by simp)
  | login page =>
      obtain ⟨uid, -, rfl⟩ := Option.map_eq_some_iff.mp hs
      exact h
  | confirm email' page =>
      obtain ⟨account', -, rfl⟩ := Auth.updatePassword_eq_some (confirm_spec hs).2
      exact (lookup_setData_ne (Ne.symm he) _ _).trans h

/-- What is stored for an accepted text: itself, or itself trimmed. -/
lemma stored_of_accepts {e : PasswordEvent} (hs : passwordStep auth e = some auth')
    (he : Accepts t email e) :
    isPasswordValid (trimmingCharacters t) = true ∧ ∃ account,
      Stores email account auth' ∧
        (account.password = trimmingCharacters t ∨ account.password = t) := by
  cases e with
  | register page uid =>
      obtain ⟨rfl, rfl, hconfirm⟩ := he
      obtain ⟨-, hvalid, hcreate⟩ := register_spec hs
      obtain ⟨-, rfl⟩ := Auth.createUser_eq_some hcreate
      exact ⟨hvalid, _, lookup_setData_self _ _ _, Or.inl (by rw [hconfirm])⟩
  | login page => exact he.elim
  | confirm email' page =>
      obtain ⟨rfl, rfl, -⟩ := he
      obtain ⟨hvalid, hupdate⟩ := confirm_spec hs
      obtain ⟨account, -, rfl⟩ := Auth.updatePassword_eq_some hupdate
      exact ⟨hvalid, _, lookup_setData_self _ _ _, Or.inr rfl⟩

/-- With the text stored, its trimmed form signs in. -/
lemma login_isSome {page : LoginViewController} {account : Account}
    (h : Stores email account auth) (hne : email ≠ "")
    (hemail : trimmingCharacters page.emailAddressTextField = email)
    (hpassword : account.password = trimmingCharacters page.passwordTextField)
    (hnonempty : account.password ≠ "") : (page.continueTapped auth "").2.isSome := by
  have hvalid : page.validateFields = none := by
    rw [LoginViewController.validateFields, hemail, ← hpassword]
    simp [hne, hnonempty]
  rw [LoginViewController.continueTapped]
  simp only [hvalid]
  rw [hemail, Auth.signIn_eq _ h, if_pos hpassword]
  rfl

/-! ### The texts that can be typed again -/

/-- The page filled in by Ann, with the text `t` in both fields. -/
def annPage (t : String) : RegistrationStep1ViewController where
  emailAddressTextField := "ann@example.com"
  passwordTextField := t
  confirmPasswordTextField := t

/-- Ann registers with the text `t`. -/
def registering (t : String) : PasswordEvent := .register (annPage t) "u1"

/-- The account of Ann. -/
def registered (t : String) : Auth where
  accounts := setData ∅ "ann@example.com" { uid := "u1", password := trimmingCharacters t }

/-- Every valid password is accepted from Ann. -/
lemma passwordStep_registering (h : isPasswordValid (trimmingCharacters t) = true) :
    passwordStep {} (registering t) = some (registered t) := by
  have hne : trimmingCharacters t ≠ "" := by
    intro hempty
    rw [hempty] at h
    exact absurd h (by decide +kernel)
  have hemail : trimmingCharacters "ann@example.com" = "ann@example.com" := by decide +kernel
  have hemailValid : isEmailValid "ann@example.com" = true := by decide +kernel
  simp [passwordStep, registering, annPage, RegistrationStep1ViewController.continueTapped,
    RegistrationStep1ViewController.validateFields, hne, hemail, hemailValid, h, Auth.createUser,
    registered]

/-- The registration stores the trimmed text, the settings compare the text
itself. -/
lemma trimmed_of_retypable (h : Retypable t)
    (hvalid : isPasswordValid (trimmingCharacters t) = true) : trimmingCharacters t = t := by
  have hrun : exec passwordStep {} ([] ++ [registering t]) = some (registered t) :=
    exec_concat_eq_some.mpr ⟨{}, rfl, passwordStep_registering hvalid⟩
  have hemail : trimmingCharacters "ann@example.com" = "ann@example.com" := by decide +kernel
  obtain ⟨-, hsettings⟩ := h "ann@example.com" [] [] (registering t) _ _ hrun
    ⟨hemail, rfl, rfl⟩ rfl (by simp)
  have hsome := hsettings { curPass := t } rfl
  rw [AccountSettingsViewController.reauthenticate,
    Auth.signIn_eq _ (lookup_setData_self _ _ _)] at hsome
  by_contra hne
  rw [if_neg hne] at hsome
  exact absurd hsome (by simp)

/-- **Passwords typed again**: a text can be typed again wherever it is accepted
if and only if it has no surrounding whitespace, or is not accepted at all. -/
theorem retypable_iff (t : String) :
    Retypable t ↔ (isPasswordValid (trimmingCharacters t) = true → trimmingCharacters t = t) := by
  refine ⟨trimmed_of_retypable, fun htrim email es es' e auth auth' hrun he hlater hkeep => ?_⟩
  obtain ⟨before, hbefore, hstep⟩ := exec_concat_eq_some.mp hrun
  obtain ⟨hvalid, account, haccount, hstored⟩ := stored_of_accepts hstep he
  have heq : trimmingCharacters t = t := htrim hvalid
  rw [heq] at hvalid hstored
  have hpassword : account.password = t := hstored.elim id id
  have hlookup : Stores email account auth' :=
    exec_invariant_of_eachStep (fun _ _ _ hs hx hstep => stores_step hs hx hstep) haccount
      (eachStep_of_forall fun _ => hkeep) hlater
  have hblank : NoBlank auth :=
    noBlank_step (exec_invariant (fun _ _ _ => noBlank_step) noBlank_empty hbefore) hstep
  have hne : email ≠ "" := by
    rintro rfl
    exact absurd (hblank.symm.trans haccount) (by simp)
  have hnonempty : account.password ≠ "" := by
    intro hempty
    rw [← hpassword, hempty] at hvalid
    exact absurd hvalid (by decide +kernel)
  refine ⟨fun page hemail htyped => ?_, fun page htyped => ?_⟩
  · refine login_isSome hlookup hne hemail ?_ hnonempty
    rw [htyped, hpassword, heq]
  · rw [AccountSettingsViewController.reauthenticate, Auth.signIn_eq _ hlookup, htyped,
      if_pos hpassword]
    rfl

/-- Ann changes her password to the text `t`. -/
def settingsPage (cur t : String) : AccountSettingsViewController where
  curPass := cur
  newPass := t
  confirmPass := t

/-- Ann's login with the text `t`. -/
def loginPage (t : String) : LoginViewController where
  emailAddressTextField := "ann@example.com"
  passwordTextField := t

/-- The text registered with a leading space does not reauthenticate; with a
leading space taken over by a change, it does not sign in. -/
theorem leading_space_rejected : ¬ Retypable " passw0rd!" ∧ ∃ auth auth',
    exec passwordStep {} [registering " passw0rd!"] = some auth ∧
    (settingsPage " passw0rd!" "n3wpassw0rd!").validateFields = none ∧
    ((settingsPage " passw0rd!" "n3wpassw0rd!").reauthenticate auth "ann@example.com").isNone ∧
    exec passwordStep auth [.confirm "ann@example.com" (settingsPage "passw0rd!" " passw0rd!")] =
      some auth' ∧
    ((loginPage " passw0rd!").continueTapped auth' "").2.isNone := by
  have hrun : ((exec passwordStep {} [registering " passw0rd!"]).bind fun auth =>
      (exec passwordStep auth
        [.confirm "ann@example.com" (settingsPage "passw0rd!" " passw0rd!")]).map fun auth' =>
          (((settingsPage " passw0rd!" "n3wpassw0rd!").reauthenticate auth
              "ann@example.com").isNone,
            ((loginPage " passw0rd!").continueTapped auth' "").2.isNone)) =
      some (true, true) := by decide +kernel
  obtain ⟨auth, hauth, hrest⟩ := Option.bind_eq_some_iff.mp hrun
  obtain ⟨auth', hauth', hends⟩ := Option.map_eq_some_iff.mp hrest
  obtain ⟨hsettings, hlogin⟩ := Prod.mk.inj hends
  refine ⟨fun h => ?_, auth, auth', hauth, by decide +kernel, hsettings, hauth', hlogin⟩
  have hsome := (h "ann@example.com" [] [] (registering " passw0rd!") auth auth hauth
    ⟨by decide +kernel, rfl, rfl⟩ rfl (by simp)).2 (settingsPage " passw0rd!" "n3wpassw0rd!") rfl
  rw [Option.isNone_iff_eq_none.mp hsettings] at hsome
  exact absurd hsome (by simp)

end Tasker.Account
