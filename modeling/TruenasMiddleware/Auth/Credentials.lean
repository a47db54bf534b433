import Mathlib.Tactic.Linarith
import TruenasMiddleware.Foundation.Transition
import TruenasMiddleware.Roles.Allowlist

/-! `middlewared/auth.py`: the credentials of a session, when they are valid and what they
authorize. Times are those of `time.monotonic`, in seconds. -/

namespace TruenasMiddleware.Auth

open Roles Transition

abbrev Time := ℚ

inductive AuthMech
  | apiKeyPlain
  | passwordPlain
  | tokenPlain
  | otpToken
  | scram
deriving DecidableEq

structure AuthenticatorAssuranceLevel where
  maxSessionAge : Int
  maxInactivity : Option Int
  mechanisms : List AuthMech
  otpMandatory : Bool

def AA_LEVEL1 : AuthenticatorAssuranceLevel where
  maxSessionAge := 86400 * 30
  maxInactivity := none
  mechanisms := [.apiKeyPlain, .tokenPlain, .passwordPlain, .scram]
  otpMandatory := false

def AA_LEVEL2 : AuthenticatorAssuranceLevel where
  maxSessionAge := 12 * 60 * 60
  maxInactivity := some (30 * 60)
  mechanisms := [.passwordPlain, .scram]
  otpMandatory := true

def AA_LEVEL3 : AuthenticatorAssuranceLevel where
  maxSessionAge := 13 * 60
  maxInactivity := some (15 * 60)
  mechanisms := []
  otpMandatory := true

/-- `UserSessionManagerCredentials` and its subclasses, which differ in what they are
called. The expiry and the inactivity timeout are set once, from the time of creation. -/
structure UserSession where
  assurance : Option AuthenticatorAssuranceLevel
  allowlist : Allowlist
  createdAt : Time
  lastUsedAt : Time

namespace UserSession

def create (assurance : Option AuthenticatorAssuranceLevel) (allowlist : List AllowListItem)
    (now : Time) : UserSession where
  assurance := assurance
  allowlist := .ofItems allowlist
  createdAt := now
  lastUsedAt := now

variable (session : UserSession)

def expiry : Option Time :=
  session.assurance.map fun level => session.createdAt + level.maxSessionAge

/-- The timeout as `if self.inactivity_timeout` sees it: none or 0 is no timeout. -/
def inactivityTimeout : Option Int :=
  (session.assurance.bind AuthenticatorAssuranceLevel.maxInactivity).filter (· ≠ 0)

def notifyUsed (now : Time) : UserSession :=
  match session.inactivityTimeout with
  | some timeout =>
    if now < session.lastUsedAt + timeout then { session with lastUsedAt := now } else session
  | none => session

def isValid (now : Time) : Bool :=
  !(session.expiry.any fun expiry => decide (now > expiry)) &&
    !(session.inactivityTimeout.any fun timeout => decide (now > session.lastUsedAt + timeout))

def authorize (session : UserSession) (now : Time) (method : HttpVerb) (resource : String) : Bool :=
  session.isValid now && session.allowlist.authorize method resource

end UserSession

structure TokenOf (κ : Type) where
  token : String
  ttl : Int
  parentCredentials : κ
  lastUsedAt : Time
  singleUse : Bool := false

inductive Credentials
  | base
  | user (session : UserSession)
  | token (token : TokenOf Credentials) (pamAuthenticated : Bool)
  | truenasNode

def TokenOf.isValid {κ : Type} (token : TokenOf κ) (now : Time) : Bool :=
  decide (now < token.lastUsedAt + token.ttl)

namespace Credentials

/-- What `Token.root_credentials` comes to from the credentials of a token. -/
def root : Credentials → Credentials
  | .token ⟨_, _, parentCredentials, _, _⟩ _ => parentCredentials.root
  | credentials => credentials

variable (now : Time)

def isValidItself : Credentials → Bool
  | .user session => session.isValid now
  | _ => true

def isValid (now : Time) : Credentials → Bool
  | .token this pamAuthenticated =>
    this.parentCredentials.root.isValidItself now && pamAuthenticated && this.isValid now
  | credentials => credentials.isValidItself now

def authorize (now : Time) (method : HttpVerb) (resource : String) : Credentials → Bool
  | .base => false
  | .user session => session.authorize now method resource
  | .token ⟨_, _, parentCredentials, _, _⟩ _ => parentCredentials.authorize now method resource
  | .truenasNode => true

def isUserSession (credentials : Credentials) : Bool :=
  match credentials.root with
  | .user _ => true
  | _ => false

theorem root_cases : ∀ credentials : Credentials, credentials.root = .base ∨
    (∃ session, credentials.root = .user session) ∨ credentials.root = .truenasNode
  | .base => .inl rfl
  | .user session => .inr (.inl ⟨session, rfl⟩)
  | .truenasNode => .inr (.inr rfl)
  | .token ⟨_, _, parentCredentials, _, _⟩ _ => parentCredentials.root_cases

theorem authorize_root (now : Time) (method : HttpVerb) (resource : String) :
    ∀ credentials : Credentials,
      credentials.authorize now method resource = credentials.root.authorize now method resource
  | .base => rfl
  | .user _ => rfl
  | .truenasNode => rfl
  | .token ⟨_, _, parentCredentials, _, _⟩ _ => parentCredentials.authorize_root now method resource

def Powerless : Credentials → Prop
  | .base => True
  | .user session => session.isValid now = false ∨
      ∀ method resource, session.allowlist.authorize method resource = false
  | .token _ _ => True
  | .truenasNode => False

/-- The checks that a token session makes besides those of its root credentials hold, or
there is nothing to authorize. -/
def Guarded : Credentials → Prop
  | .token this pamAuthenticated =>
    (pamAuthenticated = true ∧ this.isValid now = true) ∨ this.parentCredentials.root.Powerless now
  | _ => True

theorem powerless_root_iff (credentials : Credentials) :
    credentials.root.Powerless now ↔
      ∀ method resource, credentials.root.authorize now method resource = false := by
  rcases credentials.root_cases with root | ⟨session, root⟩ | root
  · simp [root, Powerless, authorize]
  · rw [root]
    simp only [Powerless, authorize, UserSession.authorize]
    cases session.isValid now with
    | false | true => simp
  · rw [root]
    exact ⟨False.elim, fun nothing => Bool.false_ne_true (nothing .call "").symm⟩

theorem powerless_of_invalid {now : Time} {credentials : Credentials}
    (invalid : credentials.root.isValidItself now = false) : credentials.root.Powerless now := by
  rcases credentials.root_cases with root | ⟨session, root⟩ | root
  · rw [root] at invalid
    cases invalid
  · rw [root] at invalid ⊢
    exact .inl invalid
  · rw [root] at invalid
    cases invalid

/-- Credentials that are not valid authorize nothing iff they are guarded. -/
theorem authorize_eq_false_of_invalid_iff (credentials : Credentials) (now : Time) :
    (credentials.isValid now = false →
      ∀ method resource, credentials.authorize now method resource = false) ↔
      credentials.Guarded now := by
  cases credentials with
  | base | truenasNode => simp [isValid, isValidItself, Guarded]
  | user session =>
    simp only [isValid, isValidItself, Guarded, authorize, UserSession.authorize, iff_true]
    intro invalid method resource
    rw [invalid, Bool.false_and]
  | token this pamAuthenticated =>
    have delegated : (∀ method resource,
        (token this pamAuthenticated).authorize now method resource = false) ↔
          this.parentCredentials.root.Powerless now := by
      rw [powerless_root_iff]
      refine forall₂_congr fun method resource => ?_
      rw [authorize_root]
      rfl
    rw [delegated, Guarded, isValid]
    constructor
    · intro guarded
      by_cases own : pamAuthenticated = true ∧ this.isValid now = true
      · exact .inl own
      · right
        apply guarded
        rw [Bool.and_assoc, Bool.and_eq_false_iff]
        exact .inr (by simpa using own)
    · rintro (⟨authenticated, valid⟩ | powerless) invalid
      · rw [authenticated, valid, Bool.and_true, Bool.and_true] at invalid
        exact powerless_of_invalid invalid
      · exact powerless

end Credentials

def expiredToken : Credentials :=
  .token
    { token := "t"
      ttl := 600
      parentCredentials := .user (.create (some AA_LEVEL1) [ALLOW_LIST_FULL_ADMIN] 0)
      lastUsedAt := 0 }
    true

theorem expiredToken_authorizes :
    expiredToken.isValid 1000 = false ∧ expiredToken.authorize 1000 .call "pool.create" = true := by
  decide +kernel

namespace UserSession

variable (session : UserSession) (now : Time)

theorem isValid_iff : session.isValid now = true ↔
      (∀ expiry, session.expiry = some expiry → now ≤ expiry) ∧
        ∀ timeout, session.inactivityTimeout = some timeout →
          now ≤ session.lastUsedAt + timeout := by
  rw [isValid, Bool.and_eq_true]
  refine and_congr ?_ ?_
  · cases session.expiry <;> simp
  · cases session.inactivityTimeout <;> simp

theorem notifyUsed_frame : (session.notifyUsed now).assurance = session.assurance ∧
      (session.notifyUsed now).createdAt = session.createdAt := by
  rw [notifyUsed]
  cases session.inactivityTimeout with
  | none => exact ⟨rfl, rfl⟩
  | some timeout =>
    simp only
    split_ifs <;> exact ⟨rfl, rfl⟩

theorem notifyUsed_expiry : (session.notifyUsed now).expiry = session.expiry := by
  rw [expiry, expiry, (session.notifyUsed_frame now).1, (session.notifyUsed_frame now).2]

theorem notifyUsed_inactivityTimeout :
    (session.notifyUsed now).inactivityTimeout = session.inactivityTimeout := by
  rw [inactivityTimeout, inactivityTimeout, (session.notifyUsed_frame now).1]

theorem notifyUsed_lastUsedAt :
    (session.notifyUsed now).lastUsedAt = session.lastUsedAt ∨
      (session.notifyUsed now).lastUsedAt = now := by
  rw [notifyUsed]
  cases session.inactivityTimeout with
  | none => exact .inl rfl
  | some timeout =>
    simp only
    split_ifs
    · exact .inr rfl
    · exact .inl rfl

theorem isValid_of_notifyUsed {session : UserSession} {now : Time}
    (valid : (session.notifyUsed now).isValid now = true) : session.isValid now = true := by
  rw [isValid_iff, notifyUsed_expiry, notifyUsed_inactivityTimeout] at valid
  rw [isValid_iff]
  refine ⟨valid.1, fun timeout some => ?_⟩
  by_contra late
  have unchanged : session.notifyUsed now = session := by
    rw [notifyUsed, some]
    exact if_neg fun early => late early.le
  have still := valid.2 timeout some
  rw [unchanged] at still
  exact late still

theorem isValid_of_later {session : UserSession} {now later : Time} (order : now ≤ later)
    (valid : session.isValid later = true) : session.isValid now = true := by
  rw [isValid_iff] at valid ⊢
  exact ⟨fun expiry some => order.trans (valid.1 expiry some),
    fun timeout some => order.trans (valid.2 timeout some)⟩

end UserSession

/-- A user session and the clock, with the time of its last use while it was valid. -/
structure SessionClock where
  session : UserSession
  now : Time
  lastUse : Time

namespace SessionClock

inductive Label
  | advance (duration : Time)
  | notifyUsed

def step (clock : SessionClock) : Label → Option SessionClock
  | .advance duration =>
    if 0 ≤ duration then some { clock with now := clock.now + duration } else none
  | .notifyUsed =>
    some { clock with
      session := clock.session.notifyUsed clock.now
      lastUse := if clock.session.isValid clock.now then clock.now else clock.lastUse }

def start (assurance : Option AuthenticatorAssuranceLevel) (allowlist : List AllowListItem)
    (now : Time) : SessionClock :=
  ⟨.create assurance allowlist now, now, now⟩

def isValid (clock : SessionClock) : Bool := clock.session.isValid clock.now

variable {clock next : SessionClock} {label : Label}
  {assurance : Option AuthenticatorAssuranceLevel} {created : Time}

theorem isValid_of_step (taken : clock.step label = some next) (valid : next.isValid = true) :
    clock.isValid = true := by
  cases label with
  | advance duration =>
    rw [step, Option.ite_none_right_eq_some] at taken
    obtain ⟨forward, eq⟩ := taken
    cases eq
    exact UserSession.isValid_of_later (le_add_of_nonneg_right forward) valid
  | notifyUsed =>
    cases taken
    exact UserSession.isValid_of_notifyUsed valid

theorem isValid_of_reach {later : SessionClock} (run : Reach step Always clock later)
    (valid : later.isValid = true) : clock.isValid = true := by
  induction run with
  | start => exact valid
  | next _ _ taken ih => exact ih (isValid_of_step taken valid)

structure Timed (assurance : Option AuthenticatorAssuranceLevel) (created : Time)
    (clock : SessionClock) : Prop where
  assurance_eq : clock.session.assurance = assurance
  created_eq : clock.session.createdAt = created
  lastUse_le : clock.lastUse ≤ clock.now
  used_le : clock.isValid = true → clock.session.lastUsedAt ≤ clock.lastUse

theorem Timed.step (timed : clock.Timed assurance created)
    (taken : clock.step label = some next) : next.Timed assurance created := by
  have before := fun valid => timed.used_le (isValid_of_step taken valid)
  cases label with
  | advance duration =>
    rw [SessionClock.step, Option.ite_none_right_eq_some] at taken
    obtain ⟨forward, eq⟩ := taken
    cases eq
    exact ⟨timed.assurance_eq, timed.created_eq,
      timed.lastUse_le.trans (le_add_of_nonneg_right forward), before⟩
  | notifyUsed =>
    have valid := fun valid => isValid_of_step taken valid
    cases taken
    have frame := clock.session.notifyUsed_frame clock.now
    refine ⟨frame.1.trans timed.assurance_eq, frame.2.trans timed.created_eq, ?_, fun now => ?_⟩
    · simp only
      split_ifs
      · exact le_refl _
      · exact timed.lastUse_le
    · have wasValid : clock.session.isValid clock.now = true := valid now
      simp only [wasValid, if_true]
      rcases clock.session.notifyUsed_lastUsedAt clock.now with eq | eq
      · rw [eq]
        exact (before now).trans timed.lastUse_le
      · exact eq.le

theorem timed_of_reach {allowlist : List AllowListItem}
    (run : Reach step Always (start assurance allowlist created) clock) :
    clock.Timed assurance created :=
  run.invariant (P := Timed assurance created) ⟨rfl, rfl, le_refl _, fun _ => le_refl _⟩
    fun _ _ _ timed _ taken => timed.step taken

/-- The expiry of a user session is final, and it comes no later than its level says. -/
theorem session_expiry_irreversible (assurance : Option AuthenticatorAssuranceLevel)
    (allowlist : List AllowListItem) (created : Time) (clock : SessionClock)
    (run : Reach step Always (start assurance allowlist created) clock) :
    (clock.isValid = false → ∀ later, Reach step Always clock later → later.isValid = false) ∧
    (clock.isValid = true → ∀ level, assurance = some level →
      clock.now ≤ created + level.maxSessionAge ∧
        ∀ timeout : Int, level.maxInactivity = some timeout → timeout ≠ 0 →
          clock.now ≤ clock.lastUse + timeout) := by
  refine ⟨fun invalid later after => ?_, fun valid level known => ?_⟩
  · by_contra again
    rw [Bool.not_eq_false] at again
    exact Bool.false_ne_true (invalid.symm.trans (isValid_of_reach after again))
  · have timed := timed_of_reach run
    have both := (UserSession.isValid_iff _ _).mp valid
    constructor
    · refine both.1 _ ?_
      rw [UserSession.expiry, timed.assurance_eq, known, timed.created_eq]
      rfl
    · intro timeout some nonzero
      have limit := both.2 timeout (by
        rw [UserSession.inactivityTimeout, timed.assurance_eq, known, Option.bind_some, some,
          Option.filter_some, if_pos (decide_eq_true nonzero)])
      have used := timed.used_le valid
      linarith

theorem reach_advance {first : SessionClock} (run : Reach step Always first clock)
    {duration : Time} (forward : 0 ≤ duration) :
    Reach step Always first { clock with now := clock.now + duration } :=
  .next run (a := .advance duration) trivial (by rw [step, if_pos forward])

theorem session_expiry_irreversible_level2 :
    ∃ clock, Reach step Always (start (some AA_LEVEL2) [] 0) clock ∧ clock.now = 2000 ∧
      clock.lastUse = 1000 ∧ clock.isValid = true ∧ clock.now ≤ 0 + AA_LEVEL2.maxSessionAge := by
  let used : SessionClock := ⟨.create (some AA_LEVEL2) [] 0, 0 + 1000, 0⟩
  let clock : SessionClock :=
    ⟨used.session.notifyUsed used.now, 0 + 1000 + 1000,
      if used.session.isValid used.now then used.now else used.lastUse⟩
  have advanced : Reach step Always (start (some AA_LEVEL2) [] 0) used :=
    reach_advance .start (by norm_num)
  have run : Reach step Always (start (some AA_LEVEL2) [] 0) clock :=
    reach_advance (.next advanced (a := .notifyUsed) trivial rfl) (by norm_num)
  have valid : clock.isValid = true := by decide +kernel
  exact ⟨clock, run, by decide +kernel, by decide +kernel, valid,
    ((session_expiry_irreversible _ _ _ clock run).2 valid AA_LEVEL2 rfl).1⟩

end SessionClock

end TruenasMiddleware.Auth
