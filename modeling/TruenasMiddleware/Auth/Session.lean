import TruenasMiddleware.Foundation.Dict
import TruenasMiddleware.Foundation.Transition

/-! `SessionManager` of `plugins/auth.py`: the sessions and the credentials that the
connections are authenticated with, over any kind of credentials. A connection is given by
its session id. -/

namespace TruenasMiddleware.Auth

open Transition Function

inductive LoginStep
  | success
  | failure
  | raises
deriving DecidableEq

inductive LoginOutcome
  | returned
  | callError
  | keyError
  | raised

structure SessionManager (κ : Type) where
  sessions : List (Nat × κ) := []
  /-- `app.authenticated_credentials` of every connection. -/
  authenticatedCredentials : Nat → Option κ := fun _ => none

namespace SessionManager

variable {κ : Type} (manager : SessionManager κ)

def authenticated (app : Nat) : Bool :=
  (manager.authenticatedCredentials app).isSome

def authenticate (app : Nat) (credentials : κ) : SessionManager κ where
  sessions := Dict.set app credentials manager.sessions
  authenticatedCredentials :=
    update manager.authenticatedCredentials app (some credentials)

/-- The audit message comes last; it may raise. -/
def login (app : Nat) (credentials : κ) (response : LoginStep)
    (auditRaises : Bool) : SessionManager κ × LoginOutcome :=
  let outcome := if auditRaises then .raised else .returned
  if manager.authenticated app then
    if response = .raises then (manager, .raised)
    else if (manager.sessions.lookup app).isSome then
      (manager.authenticate app credentials, outcome)
    else (manager, .keyError)
  else
    match response with
    | .raises => (manager, .raised)
    | .failure => (manager, .callError)
    | .success => (manager.authenticate app credentials, outcome)

/-- The audit message comes first. What the credentials do on `logout` comes after the
connection has lost them. -/
def logout (app : Nat) (auditRaises : Bool) : SessionManager κ :=
  if (manager.sessions.lookup app).isSome && auditRaises then manager
  else
    { sessions := Dict.pop app manager.sessions
      authenticatedCredentials := update manager.authenticatedCredentials app none }

def appOnMessage (app : Nat) (valid auditRaises : Bool) : SessionManager κ :=
  match manager.sessions.lookup app with
  | none =>
    { manager with
      authenticatedCredentials := update manager.authenticatedCredentials app none }
  | some _ => if valid then manager else manager.logout app auditRaises

end SessionManager

/-- A manager with, for each connection, the last login whose own step came to an end. -/
structure SessionRun (κ : Type) where
  manager : SessionManager κ := {}
  lastLogin : Nat → Option (κ × LoginStep) := fun _ => none

namespace SessionRun

variable {κ : Type}

inductive Label (κ : Type)
  | login (app : Nat) (credentials : κ) (response : LoginStep) (auditRaises : Bool)
  | logout (app : Nat) (auditRaises : Bool)
  | message (app : Nat) (valid auditRaises : Bool)

def step (run : SessionRun κ) : Label κ → Option (SessionRun κ)
  | .login app credentials response auditRaises =>
    some
      { manager := (run.manager.login app credentials response auditRaises).1
        lastLogin :=
          if response = .raises then run.lastLogin
          else update run.lastLogin app (some (credentials, response)) }
  | .logout app auditRaises => some { run with manager := run.manager.logout app auditRaises }
  | .message app valid auditRaises =>
    some { run with manager := run.manager.appOnMessage app valid auditRaises }

/-- No login over an existing session has a step that fails. -/
def Checked (run : SessionRun κ) : Label κ → Prop
  | .login app _ response _ => run.manager.authenticated app = true → response ≠ .failure
  | _ => True

instance (run : SessionRun κ) (label : Label κ) : Decidable (run.Checked label) := by
  cases label <;> unfold Checked <;> infer_instance

end SessionRun

namespace SessionManager

variable {κ : Type} {manager : SessionManager κ} {app other : Nat}

def Consistent (manager : SessionManager κ) : Prop :=
  ∀ app credentials, manager.authenticatedCredentials app = some credentials →
    manager.sessions.lookup app = some credentials

theorem login_eq_of_consistent (consistent : manager.Consistent) (app : Nat) (credentials : κ)
    (response : LoginStep) (auditRaises : Bool) :
    (manager.login app credentials response auditRaises).1 =
      if response = .success ∨ (response = .failure ∧ manager.authenticated app = true) then
        manager.authenticate app credentials
      else manager := by
  unfold login
  cases held : manager.authenticated app with
  | false => cases response <;> simp
  | true =>
    obtain ⟨old, eq⟩ := Option.isSome_iff_exists.mp held
    have known := consistent app old eq
    cases response <;> simp [known]

theorem Consistent.authenticate (consistent : manager.Consistent) (app : Nat) (credentials : κ) :
    (manager.authenticate app credentials).Consistent := by
  intro other held eq
  simp only [SessionManager.authenticate] at eq ⊢
  rw [Dict.lookup_set]
  by_cases here : other = app
  · rw [here, update_self] at eq
    rw [if_pos here, eq]
  · rw [update_of_ne here] at eq
    rw [if_neg here]
    exact consistent other held eq

theorem Consistent.login (consistent : manager.Consistent) (app : Nat) (credentials : κ)
    (response : LoginStep) (auditRaises : Bool) :
    (manager.login app credentials response auditRaises).1.Consistent := by
  rw [login_eq_of_consistent consistent]
  split_ifs
  · exact consistent.authenticate app credentials
  · exact consistent

/-- After `logout` and after a message a connection has what it had, or nothing. -/
structure Keeps (manager next : SessionManager κ) : Prop where
  consistent : manager.Consistent → next.Consistent
  held : ∀ app credentials, next.authenticatedCredentials app = some credentials →
    manager.authenticatedCredentials app = some credentials

theorem keeps_refl (manager : SessionManager κ) : manager.Keeps manager := ⟨id, fun _ _ => id⟩

theorem held_of_update_none {credentials : κ}
    (eq : update manager.authenticatedCredentials app none other = some credentials) :
    other ≠ app ∧ manager.authenticatedCredentials other = some credentials := by
  by_cases here : other = app
  · rw [here, update_self] at eq
    cases eq
  · rw [update_of_ne here] at eq
    exact ⟨here, eq⟩

theorem keeps_logout (manager : SessionManager κ) (app : Nat) (auditRaises : Bool) :
    manager.Keeps (manager.logout app auditRaises) := by
  rw [logout]
  split_ifs
  · exact keeps_refl manager
  · refine ⟨fun consistent other held eq => ?_, fun other held eq =>
      (held_of_update_none eq).2⟩
    obtain ⟨differs, before⟩ := held_of_update_none eq
    rw [Dict.lookup_pop, if_neg differs]
    exact consistent other held before

theorem keeps_appOnMessage (manager : SessionManager κ) (app : Nat) (valid auditRaises : Bool) :
    manager.Keeps (manager.appOnMessage app valid auditRaises) := by
  rw [appOnMessage]
  cases manager.sessions.lookup app with
  | none =>
    exact ⟨fun consistent other held eq => consistent other held (held_of_update_none eq).2,
      fun other held eq => (held_of_update_none eq).2⟩
  | some session =>
    cases valid with
    | true => exact keeps_refl manager
    | false => exact keeps_logout manager app auditRaises

end SessionManager

namespace SessionRun

variable {κ : Type} {run next : SessionRun κ}

theorem consistent_of_reach (reached : Reach step Always ({} : SessionRun κ) run) :
    run.manager.Consistent := by
  refine reached.invariant (P := fun run => run.manager.Consistent) (fun _ _ none => ?_) ?_
  · cases none
  · intro run label next consistent _ taken
    cases label with
    | login app credentials response auditRaises =>
      cases taken
      exact consistent.login app credentials response auditRaises
    | logout app auditRaises =>
      cases taken
      exact (run.manager.keeps_logout app auditRaises).consistent consistent
    | message app valid auditRaises =>
      cases taken
      exact (run.manager.keeps_appOnMessage app valid auditRaises).consistent consistent

/-- Every connection holds the credentials of its last login, which succeeded. -/
structure Earned (run : SessionRun κ) : Prop where
  consistent : run.manager.Consistent
  success : ∀ app credentials, run.manager.authenticatedCredentials app = some credentials →
    run.lastLogin app = some (credentials, .success)

theorem Earned.login {app : Nat} {credentials : κ} {response : LoginStep} {auditRaises : Bool}
    (earned : run.Earned) (checked : run.Checked (.login app credentials response auditRaises))
    (taken : run.step (.login app credentials response auditRaises) = some next) :
    next.Earned := by
  cases taken
  refine ⟨earned.consistent.login app credentials response auditRaises, ?_⟩
  intro other held eq
  simp only [SessionManager.login_eq_of_consistent earned.consistent] at eq
  cases response with
  | raises =>
    simp only [reduceCtorEq, false_and, or_self, if_false] at eq
    exact earned.success other held eq
  | failure =>
    have free : run.manager.authenticated app = false := by
      by_contra busy
      exact checked (by simpa using busy) rfl
    simp only [free, reduceCtorEq, Bool.false_eq_true, and_false, or_self, if_false] at eq
    have differs : other ≠ app := by
      rintro rfl
      rw [SessionManager.authenticated, eq] at free
      cases free
    simp only [reduceCtorEq, if_false, update_of_ne differs]
    exact earned.success other held eq
  | success =>
    simp only [true_or, if_true, SessionManager.authenticate] at eq
    simp only [reduceCtorEq, if_false]
    by_cases here : other = app
    · rw [here, update_self] at eq ⊢
      rw [Option.some.inj eq]
    · rw [update_of_ne here] at eq ⊢
      exact earned.success other held eq

theorem earned_of_reach (reached : Reach step Checked ({} : SessionRun κ) run) : run.Earned := by
  refine reached.invariant (P := Earned) ⟨fun _ _ none => ?_, fun _ _ none => ?_⟩ ?_
  · cases none
  · cases none
  · intro run label next earned checked taken
    have kept : ∀ {manager}, run.manager.Keeps manager →
        Earned { run with manager := manager } := fun keeps =>
      ⟨keeps.consistent earned.consistent, fun app credentials eq =>
        earned.success app credentials (keeps.held app credentials eq)⟩
    cases label with
    | login app credentials response auditRaises => exact earned.login checked taken
    | logout app auditRaises =>
      cases taken
      exact kept (run.manager.keeps_logout app auditRaises)
    | message app valid auditRaises =>
      cases taken
      exact kept (run.manager.keeps_appOnMessage app valid auditRaises)

/-- If every login over a session is checked, a connection only holds credentials whose
login succeeded; and a login that fails is kept from the connection iff it is checked. -/
theorem connection_holds_successful_login :
    (∀ run : SessionRun κ, Reach step Checked {} run → ∀ app credentials,
      run.manager.authenticatedCredentials app = some credentials →
        run.lastLogin app = some (credentials, .success)) ∧
    (∀ run : SessionRun κ, Reach step Always {} run → ∀ app credentials response auditRaises,
      (response = .failure →
        (run.manager.login app credentials response auditRaises).1.authenticatedCredentials app ≠
          some credentials) ↔
        run.Checked (.login app credentials response auditRaises)) := by
  refine ⟨fun run reached => (earned_of_reach reached).success, ?_⟩
  intro run reached app credentials response auditRaises
  rw [SessionManager.login_eq_of_consistent (consistent_of_reach reached), Checked]
  cases response with
  | success | raises => simp
  | failure =>
    simp only [reduceCtorEq, false_or, true_and, forall_const, ne_eq, not_true_eq_false]
    cases held : run.manager.authenticated app with
    | true => simp [SessionManager.authenticate]
    | false =>
      have nothing : run.manager.authenticatedCredentials app = none := by
        simpa [SessionManager.authenticated] using held
      simp [nothing]

section Example

/-- Over an existing session a login that fails returns, and the connection has its
credentials. -/
theorem failed_login_over_session : ∃ run, Reach step Always ({} : SessionRun String) run ∧
      (run.manager.login 0 "second" .failure false).2 = .returned ∧
      (run.manager.login 0 "second" .failure false).1.authenticatedCredentials 0 =
        some "second" :=
  exists_reach [.login 0 "first" .success false] ⟨_, rfl, rfl, rfl⟩

theorem connection_holds_successful_login_twice :
    ∃ run, Reach step Checked ({} : SessionRun String) run ∧
      run.manager.authenticatedCredentials 0 = some "second" ∧
      run.lastLogin 0 = some ("second", .success) := by
  obtain ⟨run, reached, held⟩ : ∃ run, Reach step Checked ({} : SessionRun String) run ∧
      run.manager.authenticatedCredentials 0 = some "second" :=
    exists_reach [.login 0 "first" .success false, .login 1 "third" .failure false,
      .login 0 "second" .success false] ⟨_, rfl, rfl⟩
  exact ⟨run, reached, held, connection_holds_successful_login.1 run reached 0 "second" held⟩

end Example

end SessionRun

end TruenasMiddleware.Auth
