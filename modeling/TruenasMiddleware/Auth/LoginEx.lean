import TruenasMiddleware.Auth.Credentials

/-! `AuthService.login_ex` on one connection, with the functions of `login_ex_impl.py` that
keep an exchange of several messages in the authentication context. What the rest of the
system answers to a message is its `Answers`. -/

namespace TruenasMiddleware.Auth.LoginEx

open Transition

inductive PamCode
  | success
  | convAgain
  | permDenied
  | authErr
  | userUnknown
  | acctExpired
  | newAuthtokReqd
  | credExpired
  | other

inductive Message
  | passwordPlain (username : String)
  | apiKeyPlain (username : String)
  | tokenPlain
  | otpToken
  | scramFirst (username : String)
  | scramFinal

def Message.mechanism : Message → AuthMech
  | .passwordPlain _ => .passwordPlain
  | .apiKeyPlain _ => .apiKeyPlain
  | .tokenPlain => .tokenPlain
  | .otpToken => .otpToken
  | .scramFirst _ => .scram
  | .scramFinal => .scram

inductive HandleKind
  | user
  | apiKey
  | token
  | scram
deriving DecidableEq

/-- A PAM authenticator, with the number of the message that it was made for. -/
structure Handle where
  kind : HandleKind
  username : String
  exchange : Nat
  /-- `_twofactor_user`: PAM has asked for the second factor. -/
  twofactorUser : Bool := false
  sentServerFirst : Bool := false

structure AuthenticationContext where
  pamHdl : Option Handle := none
  nextMech : Option AuthMech := none
  /-- The user name in `auth_data`. -/
  authData : Option String := none

inductive LoginEnd
  | returns
  | raises
  | raisesAfterLogin

structure Answers where
  /-- The other controller is the master, so that the client is sent there. -/
  redirect : Bool := false
  level : AuthenticatorAssuranceLevel := AA_LEVEL1
  /-- The result of `_auth_ctx_check`. -/
  precheck : Bool := true
  tokenFound : Bool := true
  pam : Option PamCode := some .success
  onetimePassword : Bool := false
  userInfo : Bool := true
  login : LoginEnd := .returns

inductive Reply
  | redirect
  | unsupported
  | raised
  | aborted
  | otpRequired
  | serverFirst
  | serverFinal
  | success
  | authErr
  | denied
  | expired
deriving DecidableEq

/-- The context after a message, the reply, and the authenticator of the session if the
message has led to one. -/
structure Outcome where
  context : AuthenticationContext
  reply : Reply
  session : Option Handle := none

variable (context : AuthenticationContext)

def discard (mechanism : AuthMech) : AuthenticationContext :=
  if context.nextMech.any (· ≠ mechanism) then { context with nextMech := none, authData := none }
  else context

def aalAuthMechanismCheck (mechanism : AuthMech) (level : AuthenticatorAssuranceLevel) : Bool :=
  mechanism = .otpToken || mechanism ∈ level.mechanisms

/-- What `check_auth_mechanism` raises after `discard`, if anything. -/
def checkAuthMechanism (mechanism : AuthMech)
    (level : AuthenticatorAssuranceLevel) : Option Reply :=
  if context.nextMech = none ∧ mechanism = .otpToken then some .raised
  else if aalAuthMechanismCheck mechanism level then none
  else some .unsupported

def logIn (end_ : LoginEnd) (reply : Reply) : Outcome :=
  match end_ with
  | .returns => ⟨{ context with pamHdl := none }, reply, context.pamHdl⟩
  | .raises => ⟨context, .raised, none⟩
  | .raisesAfterLogin => ⟨context, .raised, context.pamHdl⟩

/-- The last `match` of `login_ex`. -/
def respond (end_ : LoginEnd) : PamCode → Outcome
  | .success => logIn context end_ .success
  | .permDenied => ⟨context, .denied, none⟩
  | .authErr => ⟨context, .authErr, none⟩
  | .userUnknown => ⟨context, .authErr, none⟩
  | .acctExpired => ⟨context, .expired, none⟩
  | .newAuthtokReqd => ⟨context, .expired, none⟩
  | .credExpired => ⟨context, .expired, none⟩
  | .convAgain => ⟨context, .authErr, none⟩
  | .other => ⟨context, .authErr, none⟩

/-- A code of success stands only for a user with access to the API. -/
def withAccess (userInfo : Bool) : PamCode → PamCode
  | .success => if userInfo then .success else .permDenied
  | code => code

/-- `login_ex_password_plain`. Where the level wants a second factor, a password alone is
not enough unless it is a one-time password. -/
def passwordPlain (number : Nat) (username : String) (answers : Answers) : Outcome :=
  let handle : Handle := { kind := .user, username := username, exchange := number }
  let context := { context with pamHdl := some handle }
  if answers.precheck then
    match answers.pam with
    | none => ⟨context, .raised, none⟩
    | some .convAgain =>
      ⟨{ pamHdl := some { handle with twofactorUser := true }
         nextMech := some .otpToken
         authData := some username }, .otpRequired, none⟩
    | some .success =>
      if answers.level.otpMandatory && !answers.onetimePassword then
        respond context answers.login .authErr
      else respond context answers.login (withAccess answers.userInfo .success)
    | some code => respond context answers.login code
  else ⟨context, .aborted, none⟩

/-- `login_ex_api_key_plain`, given the code that it ends with. -/
def apiKeyPlain (number : Nat) (username : String) (answers : Answers) : Outcome :=
  let context := { context with
    pamHdl := some { kind := .apiKey, username := username, exchange := number } }
  if answers.precheck then
    match answers.pam with
    | none => ⟨context, .raised, none⟩
    | some code => respond context answers.login (withAccess answers.userInfo code)
  else ⟨context, .aborted, none⟩

def tokenPlain (number : Nat) (answers : Answers) : Outcome :=
  if answers.tokenFound then
    let context := { context with
      pamHdl := some { kind := .token, username := "", exchange := number } }
    match answers.pam with
    | none => ⟨context, .raised, none⟩
    | some code => respond context answers.login code
  else ⟨context, .authErr, none⟩

/-- `login_ex_oath_token`. Every authenticator is a `UserPamAuthenticator`; one that PAM has
not asked for a second factor answers `PAM_AUTH_ERR`. -/
def oathToken (answers : Answers) : Outcome :=
  match context.pamHdl with
  | none => ⟨context, .raised, none⟩
  | some handle =>
    if answers.precheck then
      let answer := if handle.twofactorUser then answers.pam else some .authErr
      match answer with
      | none => ⟨context, .raised, none⟩
      | some code =>
        let context' := { context with nextMech := none, authData := none }
        match context.authData with
        | none => ⟨context', .raised, none⟩
        | some _ => respond context' answers.login (withAccess answers.userInfo code)
    else ⟨context, .aborted, none⟩

def scramFirst (number : Nat) (username : String) (answers : Answers) : Outcome :=
  let handle : Handle := { kind := .scram, username := username, exchange := number }
  let context := { context with pamHdl := some handle }
  if answers.precheck then
    match answers.pam with
    | none => ⟨context, .raised, none⟩
    | some .convAgain =>
      ⟨{ context with
          pamHdl := some { handle with sentServerFirst := true }
          nextMech := some .scram }, .serverFirst, none⟩
    -- `handle_first_message` has no other code than these two
    | some _ => ⟨context, .authErr, none⟩
  else ⟨context, .aborted, none⟩

/-- The final message of `login_ex_scram`. A user without access makes the constructor of the
credentials raise. -/
def scramFinal (answers : Answers) : Outcome :=
  match context.pamHdl with
  | none => ⟨context, .raised, none⟩
  | some handle =>
    if answers.precheck then
      if context.nextMech ≠ some .scram then ⟨context, .raised, none⟩
      else if handle.kind ≠ .scram then ⟨context, .raised, none⟩
      else
        let context := { context with nextMech := none }
        if handle.sentServerFirst then
          match answers.pam with
          | none => ⟨context, .raised, none⟩
          | some .success =>
            if answers.userInfo then logIn context answers.login .serverFinal
            else ⟨context, .raised, none⟩
          | some _ => ⟨context, .authErr, none⟩
        else ⟨context, .raised, none⟩
    else ⟨context, .aborted, none⟩

def loginEx (number : Nat) (message : Message) (answers : Answers) : Outcome :=
  if answers.redirect then ⟨context, .redirect, none⟩
  else
    let context := discard context message.mechanism
    match checkAuthMechanism context message.mechanism answers.level with
    | some error => ⟨context, error, none⟩
    | none =>
      match message with
      | .passwordPlain username => passwordPlain context number username answers
      | .apiKeyPlain username => apiKeyPlain context number username answers
      | .tokenPlain => tokenPlain context number answers
      | .otpToken => oathToken context answers
      | .scramFirst username => scramFirst context number username answers
      | .scramFinal => scramFinal context answers

structure Entry where
  number : Nat
  message : Message
  reply : Reply
  session : Option Handle
  redirected : Bool := false

structure Connection where
  context : AuthenticationContext := {}
  /-- The messages so far, the last one first. -/
  log : List Entry := []

inductive Label
  | message (message : Message) (answers : Answers)
  | logout

/-- After a logout the context is made anew. -/
def step (connection : Connection) : Label → Option Connection
  | .message message answers =>
    let number := connection.log.length
    let outcome := loginEx connection.context number message answers
    some
      { context := outcome.context
        log := ⟨number, message, outcome.reply, outcome.session, answers.redirect⟩ ::
          connection.log }
  | .logout => some { connection with context := {} }

def answered (log : List Entry) : List Entry :=
  log.filter fun entry => !entry.redirected

/-- The exchange that a second factor belongs to: its last message is a password that was
answered with `OTP_REQUIRED`, or a second factor that failed. -/
def pendingOtp : List Entry → Option (Nat × String)
  | [] => none
  | entry :: rest =>
    match entry.message with
    | .otpToken => if entry.session.isSome then none else pendingOtp rest
    | .passwordPlain username =>
      if entry.reply = .otpRequired then some (entry.number, username) else none
    | _ => none

/-- A final message that was refused before the authenticator saw it, by the precheck or for
the level, and a first message that was refused for the level. -/
def Entry.refusedScram (entry : Entry) : Bool :=
  match entry.message with
  | .scramFirst _ => entry.reply = .unsupported
  | .scramFinal => entry.reply = .unsupported || entry.reply = .aborted
  | _ => false

/-- The exchange that a final SCRAM message belongs to: its last message is the first one,
answered by the server. -/
def pendingScram : List Entry → Option (Nat × String)
  | [] => none
  | entry :: rest =>
    if entry.refusedScram then pendingScram rest
    else
      match entry.message with
      | .scramFirst username =>
        if entry.reply = .serverFirst then some (entry.number, username) else none
      | _ => none

structure Pending (log : List Entry) : Prop where
  mech : context.nextMech = none ∨ context.nextMech = some .otpToken ∨
    context.nextMech = some .scram
  otp : context.nextMech = some .otpToken → ∃ handle, context.pamHdl = some handle ∧
    pendingOtp log = some (handle.exchange, handle.username)
  scram : context.nextMech = some .scram → ∃ handle, context.pamHdl = some handle ∧
    handle.kind = .scram ∧ (handle.sentServerFirst = true →
      pendingScram log = some (handle.exchange, handle.username))

variable {context : AuthenticationContext} {log : List Entry} {handle : Handle} {end_ : LoginEnd}

theorem pending_of_none (none : context.nextMech = none) : Pending context log where
  mech := .inl none
  otp := fun some => by rw [none] at some; cases some
  scram := fun some => by rw [none] at some; cases some

theorem pending_of_scram
    (scram : context.nextMech = some .scram) (found : context.pamHdl = some handle)
    (kind : handle.kind = .scram)
    (exchange : handle.sentServerFirst = true →
      pendingScram log = some (handle.exchange, handle.username)) :
    Pending context log where
  mech := .inr (.inr scram)
  otp := fun other => by rw [scram] at other; cases other
  scram := fun _ => ⟨handle, found, kind, exchange⟩

theorem logIn_session {reply : Reply}
    (session : (logIn context end_ reply).session = some handle) :
    context.pamHdl = some handle := by
  cases end_ with
  | raises => cases session
  | _ => exact session

theorem respond_session {code : PamCode}
    (session : (respond context end_ code).session = some handle) :
    context.pamHdl = some handle := by
  cases code with
  | success => exact logIn_session session
  | _ => cases session

theorem respond_nextMech (context : AuthenticationContext) (end_ : LoginEnd) (code : PamCode) :
    (respond context end_ code).context.nextMech = context.nextMech := by
  cases code <;> cases end_ <;> rfl

theorem discard_nextMech (context : AuthenticationContext) (mechanism : AuthMech) :
    (discard context mechanism).nextMech = none ∨
      (discard context mechanism = context ∧ context.nextMech = some mechanism) := by
  rw [discard]
  cases next : context.nextMech with
  | none => exact .inl (by simp [next])
  | some other =>
    by_cases eq : other = mechanism
    · exact .inr (by simp [eq])
    · exact .inl (by simp [eq])

section Steps

variable {context : AuthenticationContext} {number : Nat} {username : String} {answers : Answers}
  {log : List Entry}

def Outcome.entry (outcome : Outcome) (number : Nat) (message : Message) : Entry :=
  { number := number, message := message, reply := outcome.reply, session := outcome.session }

theorem passwordPlain_cases (number : Nat) (username : String) (answers : Answers)
    (idle : context.nextMech = none) :
    (passwordPlain context number username answers).context.nextMech = none ∨
      passwordPlain context number username answers =
        ⟨{ pamHdl := some { kind := .user, username, exchange := number, twofactorUser := true }
           nextMech := some .otpToken
           authData := some username }, .otpRequired, none⟩ := by
  unfold passwordPlain
  cases answers.precheck with
  | false => exact .inl idle
  | true =>
    cases answers.pam with
    | none => exact .inl idle
    | some code =>
      cases code with
      | convAgain => exact .inr rfl
      | success =>
        left
        simp only [if_true]
        split_ifs
        all_goals exact (respond_nextMech _ _ _).trans idle
      | _ =>
        left
        simp only [if_true]
        exact (respond_nextMech _ _ _).trans idle

theorem passwordPlain_pending (idle : context.nextMech = none) :
    Pending (passwordPlain context number username answers).context
      ((passwordPlain context number username answers).entry number (.passwordPlain username) ::
        log) := by
  rcases passwordPlain_cases number username answers idle with none | asked
  · exact pending_of_none none
  · rw [asked]
    exact ⟨.inr (.inl rfl), fun _ => ⟨_, rfl, rfl⟩, fun other => by cases other⟩

theorem apiKeyPlain_nextMech :
    (apiKeyPlain context number username answers).context.nextMech = context.nextMech := by
  unfold apiKeyPlain
  cases answers.precheck with
  | false => rfl
  | true =>
    cases answers.pam with
    | none => rfl
    | some code => exact respond_nextMech _ _ _

theorem tokenPlain_nextMech :
    (tokenPlain context number answers).context.nextMech = context.nextMech := by
  unfold tokenPlain
  cases answers.tokenFound with
  | false => rfl
  | true =>
    cases answers.pam with
    | none => rfl
    | some code => exact respond_nextMech _ _ _

theorem oathToken_cases (context : AuthenticationContext) (answers : Answers) :
    (oathToken context answers).context.nextMech = none ∨
      ((oathToken context answers).context = context ∧
        (oathToken context answers).session = none) := by
  unfold oathToken
  cases context.pamHdl with
  | none => exact .inr ⟨rfl, rfl⟩
  | some handle =>
    cases answers.precheck with
    | false => exact .inr ⟨rfl, rfl⟩
    | true =>
      simp only [if_true]
      cases (if handle.twofactorUser = true then answers.pam else some PamCode.authErr) with
      | none => exact .inr ⟨rfl, rfl⟩
      | some code =>
        cases context.authData with
        | none => exact .inl rfl
        | some user => exact .inl (respond_nextMech _ _ _)

theorem oathToken_pending (pending : Pending context log)
    (mech : context.nextMech = some .otpToken) :
    Pending (oathToken context answers).context
      ((oathToken context answers).entry number .otpToken :: log) := by
  rcases oathToken_cases context answers with ended | ⟨eq, none⟩
  · exact pending_of_none ended
  · rw [eq]
    refine ⟨pending.mech, fun _ => ?_, fun other => by rw [mech] at other; cases other⟩
    obtain ⟨handle, found, before⟩ := pending.otp mech
    refine ⟨handle, found, ?_⟩
    rw [← before]
    simp [pendingOtp, Outcome.entry, none]

variable {handle : Handle} {message : Message}

theorem oathToken_session (session : (oathToken context answers).session = some handle) :
    context.pamHdl = some handle := by
  unfold oathToken at session
  split at session
  · cases session
  · split at session
    · dsimp only at session
      split at session
      · cases session
      · split at session
        · cases session
        · have kept := respond_session session
          exact kept
    · cases session

theorem scramFirst_pending (mech : context.nextMech = none ∨ context.nextMech = some .scram) :
    Pending (scramFirst context number username answers).context
      ((scramFirst context number username answers).entry number (.scramFirst username) ::
        log) := by
  -- an authenticator that has not sent its first message has no exchange yet
  have fresh : ∀ log, Pending { context with
      pamHdl := some { kind := .scram, username := username, exchange := number } } log := by
    intro log
    rcases mech with none | scram
    · exact pending_of_none none
    · exact pending_of_scram scram rfl rfl fun sent => by cases sent
  unfold scramFirst
  cases answers.precheck with
  | false => exact fresh _
  | true =>
    cases answers.pam with
    | none => exact fresh _
    | some code =>
      cases code with
      | convAgain => exact pending_of_scram rfl rfl rfl fun _ => rfl
      | _ => exact fresh _

theorem scramFinal_cases (answers : Answers) (pending : Pending context log)
    (scram : context.nextMech = some .scram) :
    (scramFinal context answers).context.nextMech = none ∨
      ((scramFinal context answers).context = context ∧
        (scramFinal context answers).reply = .aborted) := by
  obtain ⟨handle, found, kind, -⟩ := pending.scram scram
  unfold scramFinal
  simp only [found, scram, kind, ne_eq, not_true_eq_false, if_false]
  cases answers.precheck with
  | false => exact .inr ⟨rfl, rfl⟩
  | true =>
    left
    cases handle.sentServerFirst with
    | false => rfl
    | true =>
      cases answers.pam with
      | none => rfl
      | some code =>
        cases code with
        | success =>
          cases answers.userInfo with
          | false => rfl
          | true => cases answers.login <;> rfl
        | _ => rfl

theorem scramFinal_idle (answers : Answers) (idle : context.nextMech = none) :
    (scramFinal context answers).context = context ∧
      (scramFinal context answers).session = none := by
  unfold scramFinal
  cases context.pamHdl with
  | none => exact ⟨rfl, rfl⟩
  | some handle =>
    cases answers.precheck with
    | false => exact ⟨rfl, rfl⟩
    | true => simp [idle]

theorem scramFinal_session {mine : Handle} (scram : context.nextMech = some .scram)
    (found : context.pamHdl = some mine) (kind : mine.kind = .scram)
    (session : (scramFinal context answers).session = some handle) :
    mine = handle ∧ mine.sentServerFirst = true := by
  simp only [scramFinal, found, scram, kind, ne_eq, not_true_eq_false, if_false] at session
  split at session
  · split at session
    · rename_i sent
      split at session
      · cases session
      · split at session
        · exact ⟨Option.some.inj (logIn_session session), sent⟩
        · cases session
      · cases session
    · cases session
  · cases session

variable (pending : Pending context log)
include pending

theorem scramFinal_pending (mech : context.nextMech = none ∨ context.nextMech = some .scram) :
    Pending (scramFinal context answers).context
      ((scramFinal context answers).entry number .scramFinal :: log) := by
  rcases mech with idle | scram
  · rw [(scramFinal_idle answers idle).1]
    exact pending_of_none idle
  · rcases scramFinal_cases answers pending scram with ended | ⟨eq, refused⟩
    · exact pending_of_none ended
    · rw [eq]
      obtain ⟨handle, found, kind, before⟩ := pending.scram scram
      refine pending_of_scram scram found kind fun sent => ?_
      rw [← before sent]
      simp [pendingScram, Outcome.entry, Entry.refusedScram, refused]

theorem discard_pending (mechanism : AuthMech) :
    Pending (discard context mechanism) log ∧ ((discard context mechanism).nextMech = none ∨
        (discard context mechanism).nextMech = some mechanism ∧
          (mechanism = .otpToken ∨ mechanism = .scram)) := by
  rcases discard_nextMech context mechanism with idle | ⟨eq, mech⟩
  · exact ⟨pending_of_none idle, .inl idle⟩
  · rw [eq]
    refine ⟨pending, .inr ⟨mech, ?_⟩⟩
    rcases pending.mech with none | otp | scram
    · rw [mech] at none
      cases none
    · exact .inl (Option.some.inj (mech.symm.trans otp))
    · exact .inr (Option.some.inj (mech.symm.trans scram))

theorem refused_pending {error : Reply} {level : AuthenticatorAssuranceLevel}
    (mech : context.nextMech = none ∨ context.nextMech = some message.mechanism)
    (refused : checkAuthMechanism context message.mechanism level = some error) :
    Pending context (⟨number, message, error, none, false⟩ :: log) := by
  rcases mech with idle | mech
  · exact pending_of_none idle
  · rw [checkAuthMechanism, mech] at refused
    rcases pending.mech with none | otp | scram
    · rw [mech] at none
      cases none
    · rw [Option.some.inj (mech.symm.trans otp)] at refused
      simp [aalAuthMechanismCheck] at refused
    · have eq := Option.some.inj (mech.symm.trans scram)
      rw [eq] at refused
      have unsupported : error = .unsupported := by
        simp only [reduceCtorEq, and_self, if_false] at refused
        split_ifs at refused
        exact (Option.some.inj refused).symm
      obtain ⟨handle, found, kind, before⟩ := pending.scram scram
      refine pending_of_scram scram found kind fun sent => ?_
      rw [← before sent]
      cases message with
      | scramFirst | scramFinal => simp [pendingScram, Entry.refusedScram, unsupported]
      | _ => cases eq

theorem loginEx_pending (number : Nat) (message : Message) (here : answers.redirect = false) :
    Pending (loginEx context number message answers).context
      ((loginEx context number message answers).entry number message :: log) := by
  obtain ⟨kept, mech⟩ := discard_pending pending message.mechanism
  unfold loginEx
  simp only [here, Bool.false_eq_true, if_false]
  cases checked : checkAuthMechanism (discard context message.mechanism) message.mechanism
      answers.level with
  | some error => exact refused_pending kept (mech.imp_right And.left) checked
  | none =>
    -- only these two mechanisms take more than one message
    have single (otp : message.mechanism ≠ .otpToken) (scram : message.mechanism ≠ .scram) :
        (discard context message.mechanism).nextMech = none :=
      mech.resolve_right fun both => both.2.elim otp scram
    cases message with
    | passwordPlain username => exact passwordPlain_pending (single nofun nofun)
    | apiKeyPlain username =>
      exact pending_of_none (apiKeyPlain_nextMech.trans (single nofun nofun))
    | tokenPlain => exact pending_of_none (tokenPlain_nextMech.trans (single nofun nofun))
    | otpToken =>
      rcases mech with idle | ⟨otp, -⟩
      · rw [checkAuthMechanism, if_pos ⟨idle, rfl⟩] at checked
        cases checked
      · exact oathToken_pending kept otp
    | scramFirst username => exact scramFirst_pending (mech.imp_right And.left)
    | scramFinal => exact scramFinal_pending kept (mech.imp_right And.left)

omit pending in
theorem checked_of_session
    (session : (loginEx context number message answers).session = some handle) :
    answers.redirect = false ∧
      checkAuthMechanism (discard context message.mechanism) message.mechanism answers.level =
        none := by
  unfold loginEx at session
  split at session
  · cases session
  · rename_i here
    dsimp only at session
    split at session
    · cases session
    · rename_i checked
      exact ⟨Bool.eq_false_iff.mpr here, checked⟩

theorem otpToken_session
    (session : (loginEx context number .otpToken answers).session = some handle) :
    pendingOtp log = some (handle.exchange, handle.username) := by
  obtain ⟨here, checked⟩ := checked_of_session session
  obtain ⟨kept, idle | ⟨otp, -⟩⟩ := discard_pending pending .otpToken
  · rw [checkAuthMechanism, if_pos ⟨idle, rfl⟩] at checked
    cases checked
  · simp only [loginEx, here, checked] at session
    obtain ⟨mine, found, before⟩ := kept.otp otp
    have eq := oathToken_session session
    cases found.symm.trans eq
    exact before

theorem scramFinal_loginEx_session
    (session : (loginEx context number .scramFinal answers).session = some handle) :
    pendingScram log = some (handle.exchange, handle.username) := by
  obtain ⟨here, checked⟩ := checked_of_session session
  simp only [loginEx, here, checked] at session
  have final : (scramFinal (discard context .scram) answers).session = some handle := session
  obtain ⟨kept, idle | ⟨scram, -⟩⟩ := discard_pending pending .scram
  · rw [(scramFinal_idle answers idle).2] at final
    cases final
  · obtain ⟨mine, found, kind, before⟩ := kept.scram scram
    obtain ⟨rfl, sent⟩ := scramFinal_session scram found kind final
    exact before sent

omit pending

theorem scramFirst_new (context : AuthenticationContext) (number : Nat) (username : String)
    (answers : Answers) :
    ∃ handle, (scramFirst context number username answers).context.pamHdl = some handle ∧
      handle.exchange = number := by
  unfold scramFirst
  cases answers.precheck with
  | false => exact ⟨_, rfl, rfl⟩
  | true =>
    cases answers.pam with
    | none => exact ⟨_, rfl, rfl⟩
    | some code => cases code <;> exact ⟨_, rfl, rfl⟩

theorem loginEx_discards {mechanism : AuthMech} (progress : context.nextMech = some mechanism)
    (other : message.mechanism ≠ mechanism) (here : answers.redirect = false) :
    (loginEx context number message answers).context.nextMech = none ∨
      ∃ handle, (loginEx context number message answers).context.pamHdl = some handle ∧
        handle.exchange = number := by
  have idle : (discard context message.mechanism).nextMech = none := by
    rcases discard_nextMech context message.mechanism with idle | ⟨-, eq⟩
    · exact idle
    · exact absurd (Option.some.inj (eq.symm.trans progress)) other
  unfold loginEx
  simp only [here, Bool.false_eq_true, if_false]
  cases checkAuthMechanism (discard context message.mechanism) message.mechanism answers.level with
  | some error => exact .inl idle
  | none =>
    cases message with
    | passwordPlain username =>
      rcases passwordPlain_cases number username answers idle with none | asked
      · exact .inl none
      · exact .inr ⟨_, congrArg (·.context.pamHdl) asked, rfl⟩
    | apiKeyPlain username => exact .inl (apiKeyPlain_nextMech.trans idle)
    | tokenPlain => exact .inl (tokenPlain_nextMech.trans idle)
    | otpToken =>
      rcases oathToken_cases (discard context .otpToken) answers with ended | ⟨eq, -⟩
      · exact .inl ended
      · exact .inl ((congrArg AuthenticationContext.nextMech eq).trans idle)
    | scramFirst username => exact .inr (scramFirst_new _ number username answers)
    | scramFinal =>
      exact .inl ((congrArg AuthenticationContext.nextMech (scramFinal_idle answers idle).1).trans
        idle)

end Steps

theorem pending_of_reach {connection : Connection} (run : Reach step Always {} connection) :
    Pending connection.context (answered connection.log) := by
  refine run.invariant (P := fun connection =>
    Pending connection.context (answered connection.log)) (pending_of_none rfl) ?_
  intro connection label next pending _ taken
  cases label with
  | logout =>
    cases taken
    exact pending_of_none rfl
  | message message answers =>
    cases taken
    cases away : answers.redirect with
    | true =>
      simp only [loginEx, away, if_true]
      simpa [answered] using pending
    | false =>
      have kept := loginEx_pending pending connection.log.length message away
      simpa [answered, away, Outcome.entry] using kept

/-- Among the messages that were not redirected: a second factor leads to a session only in
the exchange of the password before it, and a final SCRAM message only in that of the first
one before it; a message of another mechanism ends the exchange. -/
theorem login_exchange (connection : Connection) (run : Reach step Always {} connection)
    (message : Message) (answers : Answers) :
    (∀ handle, message = .otpToken →
      (loginEx connection.context connection.log.length message answers).session = some handle →
      pendingOtp (answered connection.log) = some (handle.exchange, handle.username)) ∧
    (∀ handle, message = .scramFinal →
      (loginEx connection.context connection.log.length message answers).session = some handle →
      pendingScram (answered connection.log) = some (handle.exchange, handle.username)) ∧
    (∀ mechanism, connection.context.nextMech = some mechanism → message.mechanism ≠ mechanism →
      answers.redirect = false →
      (loginEx connection.context connection.log.length message answers).context.nextMech = none ∨
        ∃ handle, (loginEx connection.context connection.log.length message
          answers).context.pamHdl = some handle ∧ handle.exchange = connection.log.length) := by
  have pending := pending_of_reach run
  refine ⟨?_, ?_, fun mechanism progress other here => loginEx_discards progress other here⟩
  · rintro handle rfl session
    exact otpToken_session pending session
  · rintro handle rfl session
    exact scramFinal_loginEx_session pending session

section Example

/-- Alice's password is asked for a second factor, one of Bob's messages is redirected, and
then Alice's second factor is accepted. -/
def redirectedBetween : List Label :=
  [.message (.passwordPlain "alice") { pam := some .convAgain },
    .message (.passwordPlain "bob") { redirect := true },
    .message .otpToken {}]

/-- Between the two SCRAM messages of Alice the level refuses a first one of Bob, and the
configuration a final one. -/
def refusedBetween : List Label :=
  [.message (.scramFirst "alice") { pam := some .convAgain },
    .message (.scramFirst "bob") { level := AA_LEVEL3 },
    .message .scramFinal { precheck := false },
    .message .scramFinal {}]

theorem otp_after_redirected_password : (∃ connection, Reach step Always {} connection ∧
      connection.log.map (fun entry => (entry.message, entry.reply)) =
        [(.otpToken, .success), (.passwordPlain "bob", .redirect),
          (.passwordPlain "alice", .otpRequired)]) ∧
    ∃ connection, Reach step Always {} connection ∧
      connection.log.map (fun entry => (entry.message, entry.reply)) =
        [(.scramFinal, .serverFinal), (.scramFinal, .aborted), (.scramFirst "bob", .unsupported),
          (.scramFirst "alice", .serverFirst)] :=
  ⟨exists_reach redirectedBetween ⟨_, rfl, rfl⟩, exists_reach refusedBetween ⟨_, rfl, rfl⟩⟩

theorem login_exchange_alice : ∃ connection, Reach step Always {} connection ∧
      pendingOtp (answered connection.log) = some (1, "alice") := by
  obtain ⟨connection, run, session⟩ : ∃ connection, Reach step Always {} connection ∧
      (loginEx connection.context connection.log.length .otpToken {}).session =
        some { kind := .user, username := "alice", exchange := 1, twofactorUser := true } :=
    exists_reach [.message (.apiKeyPlain "bob") { pam := some .authErr },
      .message (.passwordPlain "alice") { pam := some .convAgain }] ⟨_, rfl, rfl⟩
  exact ⟨connection, run, (login_exchange connection run .otpToken {}).1 _ rfl session⟩

end Example

end TruenasMiddleware.Auth.LoginEx
