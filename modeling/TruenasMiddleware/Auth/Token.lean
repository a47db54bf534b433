import TruenasMiddleware.Auth.Credentials

/-! `TokenManager` of `plugins/auth.py`, and logins with tokens (`login_ex_token_plain` and
the login after it) whose steps interleave. A token is the index of its object; its text is
random and never comes again. -/

namespace TruenasMiddleware.Auth

open Transition List Option

variable {Origin : Type}

structure TokenObject (Origin : Type) where
  ttl : Int
  /-- Whether `attributes` is not empty. -/
  attributes : Bool := false
  matchOrigin : Option Origin := none
  sessionIds : List String := []
  singleUse : Bool
  lastUsedAt : Time

/-- The dictionary `tokens` holds some of the objects that were made. -/
structure TokenManager (Origin : Type) where
  objects : List (TokenObject Origin) := []
  tokens : List Nat := []

namespace TokenManager

variable (manager : TokenManager Origin)

def create (object : TokenObject Origin) : TokenManager Origin where
  objects := manager.objects ++ [object]
  tokens := manager.objects.length :: manager.tokens

def destroy (token : Nat) : TokenManager Origin :=
  { manager with tokens := manager.tokens.filter (· ≠ token) }

def destroyBySessionId (sessionId : String) : TokenManager Origin :=
  { manager with tokens := manager.tokens.filter fun token =>
      !(manager.objects[token]?.any fun object => object.sessionIds.contains sessionId) }

def notifyUsed (token : Nat) (now : Time) : TokenManager Origin :=
  { manager with objects := manager.objects.modify token fun object =>
      { object with lastUsedAt := now } }

/-- `get`, with `sameOrigin` for `ConnectionOrigin.match`. A token that has run out is taken
from the dictionary. -/
def get (sameOrigin : Origin → Origin → Bool) (manager : TokenManager Origin) (now : Time)
    (token : Nat) (origin : Origin) : TokenManager Origin × Option (TokenObject Origin) :=
  if token ∈ manager.tokens then
    match manager.objects[token]? with
    | none => (manager, none)
    | some object =>
      if now < object.lastUsedAt + object.ttl then
        if object.matchOrigin.all fun first => sameOrigin first origin then
          (manager, some object)
        else (manager, none)
      else (manager.destroy token, none)
  else (manager, none)

def isSingleUse (token : Nat) : Bool :=
  manager.objects[token]?.any TokenObject.singleUse

end TokenManager

/-- How far a login has come: before its lookup, then in PAM with the token it found, then
about to destroy it, then about to log in. -/
inductive TokenStage
  | presented
  | authenticating
  | destroying
  | loggingIn
  | authenticated
  | failed
deriving DecidableEq

structure TokenLogin (Origin : Type) where
  token : Nat
  origin : Origin
  stage : TokenStage
deriving DecidableEq

structure TokenLogins (Origin : Type) where
  now : Time := 0
  manager : TokenManager Origin := {}
  logins : List (TokenLogin Origin) := []

namespace TokenLogins

/-- `consume` is every other call that destroys a token: `get_token`, the other lookups, and
the logout of a session. -/
inductive Label (Origin : Type)
  | advance (duration : Time)
  | create (object : TokenObject Origin)
  | consume (token : Nat)
  | destroyBySessionId (sessionId : String)
  | notifyUsed (token : Nat)
  | present (token : Nat) (origin : Origin)
  | lookup (login : Nat)
  | authenticate (login : Nat) (success : Bool)
  | destroy (login : Nat)
  | logIn (login : Nat) (success : Bool)

variable (sameOrigin : Origin → Origin → Bool)

variable (state : TokenLogins Origin)

def loginAt (id : Nat) (stage : TokenStage) : Option (TokenLogin Origin) :=
  state.logins[id]?.filter fun login => decide (login.stage = stage)

def move (id : Nat) (login : TokenLogin Origin) (stage : TokenStage) : TokenLogins Origin :=
  { state with logins := state.logins.set id { login with stage := stage } }

def afterLookup : Option (TokenObject Origin) → TokenStage
  | none => .failed
  | some object => if object.attributes then .failed else .authenticating

def afterPam (success singleUse : Bool) : TokenStage :=
  if success then if singleUse then .destroying else .loggingIn else .failed

def step : Label Origin → Option (TokenLogins Origin)
  | .advance duration =>
    if 0 ≤ duration then some { state with now := state.now + duration } else none
  | .create object => some { state with manager := state.manager.create object }
  | .consume token => some { state with manager := state.manager.destroy token }
  | .destroyBySessionId sessionId =>
    some { state with manager := state.manager.destroyBySessionId sessionId }
  | .notifyUsed token =>
    some { state with manager := state.manager.notifyUsed token state.now }
  | .present token origin =>
    some { state with logins := state.logins ++ [⟨token, origin, .presented⟩] }
  | .lookup id =>
    (state.loginAt id .presented).map fun login =>
      let found := state.manager.get sameOrigin state.now login.token login.origin
      { state with manager := found.1 }.move id login (afterLookup found.2)
  | .authenticate id success =>
    (state.loginAt id .authenticating).map fun login =>
      state.move id login (afterPam success (state.manager.isSingleUse login.token))
  | .destroy id =>
    (state.loginAt id .destroying).map fun login =>
      { state with manager := state.manager.destroy login.token }.move id login .loggingIn
  | .logIn id success =>
    (state.loginAt id .loggingIn).map fun login =>
      state.move id login (if success then .authenticated else .failed)

end TokenLogins

def TokenStage.holds : TokenStage → Bool
  | .presented => false
  | .failed => false
  | _ => true

def TokenStage.past : TokenStage → Bool
  | .loggingIn => true
  | .authenticated => true
  | _ => false

namespace TokenManager

/-- The manager has no new tokens, and the objects are for the same number of uses. -/
structure Shrinks (manager next : TokenManager Origin) : Prop where
  tokens : next.tokens ⊆ manager.tokens
  length : next.objects.length = manager.objects.length
  singleUse : next.isSingleUse = manager.isSingleUse

variable (manager : TokenManager Origin)

theorem shrinks_refl : manager.Shrinks manager :=
  ⟨List.Subset.refl _, rfl, rfl⟩

theorem shrinks_destroy (token : Nat) : manager.Shrinks (manager.destroy token) :=
  ⟨filter_subset_self _, rfl, rfl⟩

theorem shrinks_destroyBySessionId (sessionId : String) :
    manager.Shrinks (manager.destroyBySessionId sessionId) :=
  ⟨filter_subset_self _, rfl, rfl⟩

theorem shrinks_notifyUsed (token : Nat) (now : Time) :
    manager.Shrinks (manager.notifyUsed token now) := by
  refine ⟨List.Subset.refl _, length_modify .., funext fun other => ?_⟩
  simp only [isSingleUse, notifyUsed, List.getElem?_modify]
  cases manager.objects[other]? with
  | none => simp
  | some object => by_cases here : token = other <;> simp [here]

theorem shrinks_get (sameOrigin : Origin → Origin → Bool) (manager : TokenManager Origin)
    (now : Time) (token : Nat) (origin : Origin) :
    manager.Shrinks (manager.get sameOrigin now token origin).1 := by
  rw [get]
  split_ifs
  · cases manager.objects[token]? with
    | none => exact manager.shrinks_refl
    | some object =>
      simp only
      split_ifs
      · exact manager.shrinks_refl
      · exact manager.shrinks_refl
      · exact manager.shrinks_destroy token
  · exact manager.shrinks_refl

theorem mem_of_get {sameOrigin : Origin → Origin → Bool} {manager : TokenManager Origin}
    {now : Time} {token : Nat} {origin : Origin} {object : TokenObject Origin}
    (found : (manager.get sameOrigin now token origin).2 = some object) :
    token ∈ manager.tokens := by
  by_contra missing
  rw [get, if_neg missing] at found
  cases found

theorem not_mem_destroy (token : Nat) : token ∉ (manager.destroy token).tokens := by
  simp [destroy]

theorem isSingleUse_create {manager : TokenManager Origin} {token : Nat}
    (old : token < manager.objects.length) (object : TokenObject Origin) :
    (manager.create object).isSingleUse token = manager.isSingleUse token := by
  simp only [isSingleUse, create]
  rw [List.getElem?_append_left old]

end TokenManager

namespace TokenLogins

/-- A single-use token is held by one login only, and is not in the dictionary once that
login is past its destruction. -/
structure Exclusive (state : TokenLogins Origin) : Prop where
  tokens_known : ∀ token ∈ state.manager.tokens, token < state.manager.objects.length
  logins_known : ∀ (id : Nat) (login : TokenLogin Origin),
    state.logins[id]? = some login → login.stage.holds = true →
      login.token < state.manager.objects.length
  spent : ∀ (id : Nat) (login : TokenLogin Origin), state.logins[id]? = some login →
    login.stage.past = true → state.manager.isSingleUse login.token = true →
    login.token ∉ state.manager.tokens
  unique : ∀ (id id' : Nat) (login login' : TokenLogin Origin),
    state.logins[id]? = some login → state.logins[id']? = some login' →
    login.token = login'.token → login.stage.holds = true → login'.stage.holds = true →
    state.manager.isSingleUse login.token = true → id = id'

variable {state : TokenLogins Origin} {login : TokenLogin Origin} (exclusive : state.Exclusive)
include exclusive

theorem Exclusive.shrink {manager : TokenManager Origin} (shrinks : state.manager.Shrinks manager) :
    Exclusive { state with manager := manager } where
  tokens_known := fun token mem => by
    rw [shrinks.length]
    exact exclusive.tokens_known token (shrinks.tokens mem)
  logins_known := fun id login found holds => by
    rw [shrinks.length]
    exact exclusive.logins_known id login found holds
  spent := fun id login found past single mem => by
    rw [shrinks.singleUse] at single
    exact exclusive.spent id login found past single (shrinks.tokens mem)
  unique := fun id id' login login' found found' eq holds holds' single => by
    rw [shrinks.singleUse] at single
    exact exclusive.unique id id' login login' found found' eq holds holds' single

theorem Exclusive.create (object : TokenObject Origin) :
    Exclusive { state with manager := state.manager.create object } where
  tokens_known := fun token mem => by
    simp only [TokenManager.create, length_append, length_singleton]
    rcases List.mem_cons.mp mem with rfl | old
    · exact Nat.lt_succ_self _
    · exact Nat.lt_succ_of_lt (exclusive.tokens_known token old)
  logins_known := fun id login found holds => by
    simp only [TokenManager.create, length_append, length_singleton]
    exact Nat.lt_succ_of_lt (exclusive.logins_known id login found holds)
  spent := fun id login found past single mem => by
    have holds : login.stage.holds = true := by
      cases stage : login.stage <;> simp_all [TokenStage.past, TokenStage.holds]
    have known := exclusive.logins_known id login found holds
    rw [TokenManager.isSingleUse_create known] at single
    rcases mem_cons.mp mem with eq | old
    · exact absurd eq (Nat.ne_of_lt known)
    · exact exclusive.spent id login found past single old
  unique := fun id id' login login' found found' eq holds holds' single => by
    rw [TokenManager.isSingleUse_create (exclusive.logins_known id login found holds)] at single
    exact exclusive.unique id id' login login' found found' eq holds holds' single

variable {id : Nat} {stage : TokenStage} {sameOrigin : Origin → Origin → Bool}
  {next : TokenLogins Origin}

theorem Exclusive.move (known : stage.holds = true → login.token < state.manager.objects.length)
    (spent : stage.past = true → state.manager.isSingleUse login.token = true →
      login.token ∉ state.manager.tokens)
    (alone : stage.holds = true → state.manager.isSingleUse login.token = true →
      ∀ (other : Nat), other ≠ id → ∀ login', state.logins[other]? = some login' →
      login'.token = login.token → login'.stage.holds = false) :
    (state.move id login stage).Exclusive := by
  refine ⟨exclusive.tokens_known, fun other login' found holds => ?_,
    fun other login' found past single => ?_, ?_⟩
  · rcases getElem?_move found with ⟨-, rfl⟩ | ⟨-, old⟩
    · exact known holds
    · exact exclusive.logins_known other login' old holds
  · rcases getElem?_move found with ⟨-, rfl⟩ | ⟨-, old⟩
    · exact spent past single
    · exact exclusive.spent other login' old past single
  · intro first second mine yours found found' eq holds holds' single
    rcases getElem?_move found with ⟨here, rfl⟩ | ⟨away, old⟩ <;>
      rcases getElem?_move found' with ⟨here', rfl⟩ | ⟨away', old'⟩
    · exact here.trans here'.symm
    · rw [alone holds single second away' yours old' eq.symm] at holds'
      cases holds'
    · rw [alone holds' (eq ▸ single) first away mine old eq] at holds
      cases holds
    · exact exclusive.unique first second mine yours old old' eq holds holds' single

theorem Exclusive.present (token : Nat) (origin : Origin) :
    Exclusive { state with logins := state.logins ++ [⟨token, origin, .presented⟩] } := by
  refine ⟨exclusive.tokens_known, fun id login found holds => ?_,
    fun id login found past single => ?_, ?_⟩
  · rcases getElem?_append_new found with before | rfl
    · exact exclusive.logins_known id login before holds
    · cases holds
  · rcases getElem?_append_new found with before | rfl
    · exact exclusive.spent id login before past single
    · cases past
  · intro id id' login login' found found' eq holds holds' single
    rcases getElem?_append_new found with before | rfl
    · rcases getElem?_append_new found' with before' | rfl
      · exact exclusive.unique id id' login login' before before' eq holds holds' single
      · cases holds'
    · cases holds

/-- A lookup of a single-use token finds no other login that has found the token and has
neither destroyed it nor failed. -/
def Undisputed (state : TokenLogins Origin) : Label Origin → Prop
  | .lookup id => ∀ login ∈ state.logins[id]?,
      state.manager.isSingleUse login.token = true →
      ∀ login' ∈ state.logins, login'.token = login.token →
        login'.stage ≠ .authenticating ∧ login'.stage ≠ .destroying
  | _ => True

instance (state : TokenLogins Origin) (label : Label Origin) :
    Decidable (state.Undisputed label) := by
  cases label <;> unfold Undisputed <;> infer_instance

omit exclusive in
theorem of_loginAt_map {after : TokenLogin Origin → TokenLogins Origin}
    (taken : (state.loginAt id stage).map after = some next) :
    ∃ login, state.logins[id]? = some login ∧ login.stage = stage ∧ next = after login := by
  obtain ⟨login, found, eq⟩ := map_eq_some_iff.mp taken
  rw [loginAt, filter_eq_some_iff] at found
  exact ⟨login, found.1, of_decide_eq_true found.2, eq.symm⟩

theorem Exclusive.alone (found : state.logins[id]? = some login) (holds : login.stage.holds = true)
    (single : state.manager.isSingleUse login.token = true) :
    ∀ (other : Nat), other ≠ id → ∀ login', state.logins[other]? = some login' →
      login'.token = login.token → login'.stage.holds = false := by
  intro other differs login' found' eq
  by_contra held
  rw [Bool.not_eq_false] at held
  exact differs (exclusive.unique id other login login' found found' eq.symm holds held single).symm

theorem Exclusive.lookup (undisputed : state.Undisputed (.lookup id))
    (taken : state.step sameOrigin (.lookup id) = some next) : next.Exclusive := by
  obtain ⟨login, found, stage, rfl⟩ := of_loginAt_map taken
  have shrinks := state.manager.shrinks_get sameOrigin state.now login.token login.origin
  have smaller := exclusive.shrink shrinks
  dsimp only
  cases object : (state.manager.get sameOrigin state.now login.token login.origin).2 with
  | none =>
    exact smaller.move (fun held => by cases held) (fun past => by cases past)
      (fun held => by cases held)
  | some object =>
    have inside := TokenManager.mem_of_get object
    have known : login.token <
        (state.manager.get sameOrigin state.now login.token login.origin).1.objects.length := by
      rw [shrinks.length]
      exact exclusive.tokens_known login.token inside
    refine smaller.move (fun _ => known) (fun past => ?_)
      fun _ single other _ login' found' eq => ?_
    · simp only [afterLookup] at past
      split_ifs at past <;> cases past
    · have single : state.manager.isSingleUse login.token = true := by
        rw [← shrinks.singleUse]
        exact single
      obtain ⟨first, second⟩ := undisputed login found single login' (mem_of_getElem? found') eq
      have notPast : login'.stage.past = false := by
        by_contra past
        rw [Bool.not_eq_false] at past
        exact exclusive.spent other login' found' past (eq ▸ single) (eq ▸ inside)
      cases stage' : login'.stage <;> simp_all [TokenStage.past, TokenStage.holds]

theorem Exclusive.step {label : Label Origin} (undisputed : state.Undisputed label)
    (taken : state.step sameOrigin label = some next) : next.Exclusive := by
  cases label with
  | advance duration =>
    rw [TokenLogins.step, ite_none_right_eq_some] at taken
    cases taken.2
    exact { exclusive with }
  | create object =>
    cases taken
    exact exclusive.create object
  | consume token =>
    cases taken
    exact exclusive.shrink (state.manager.shrinks_destroy token)
  | destroyBySessionId sessionId =>
    cases taken
    exact exclusive.shrink (state.manager.shrinks_destroyBySessionId sessionId)
  | notifyUsed token =>
    cases taken
    exact exclusive.shrink (state.manager.shrinks_notifyUsed token state.now)
  | present token origin =>
    cases taken
    exact exclusive.present token origin
  | lookup id => exact exclusive.lookup undisputed taken
  | authenticate id success =>
    obtain ⟨login, found, stage, rfl⟩ := of_loginAt_map taken
    have holds : login.stage.holds = true := stage ▸ rfl
    refine exclusive.move (fun _ => exclusive.logins_known id login found holds) ?_
      (fun _ => exclusive.alone found holds)
    intro past single
    rw [single] at past
    cases success <;> cases past
  | destroy id =>
    obtain ⟨login, found, stage, rfl⟩ := of_loginAt_map taken
    have holds : login.stage.holds = true := stage ▸ rfl
    have smaller := exclusive.shrink (state.manager.shrinks_destroy login.token)
    exact smaller.move (fun _ => smaller.logins_known id login found holds)
      (fun _ _ => state.manager.not_mem_destroy login.token) (fun _ => smaller.alone found holds)
  | logIn id success =>
    obtain ⟨login, found, stage, rfl⟩ := of_loginAt_map taken
    have holds : login.stage.holds = true := stage ▸ rfl
    have past : login.stage.past = true := stage ▸ rfl
    exact exclusive.move (fun _ => exclusive.logins_known id login found holds)
      (fun _ => exclusive.spent id login found past) (fun _ => exclusive.alone found holds)

omit exclusive

/-- If no lookup is disputed, at most one login with a single-use token is authenticated. -/
theorem single_use_authenticates_once (sameOrigin : Origin → Origin → Bool)
    (state : TokenLogins Origin) (run : Reach (step sameOrigin) Undisputed {} state)
    (id id' : Nat) (login login' : TokenLogin Origin) (found : state.logins[id]? = some login)
    (found' : state.logins[id']? = some login') (same : login.token = login'.token)
    (single : state.manager.isSingleUse login.token = true)
    (authenticated : login.stage = .authenticated)
    (authenticated' : login'.stage = .authenticated) : id = id' := by
  have start : Exclusive ({} : TokenLogins Origin) := by
    constructor <;> simp
  have exclusive : state.Exclusive := run.invariant start
    fun _ _ _ exclusive undisputed taken => exclusive.step undisputed taken
  exact exclusive.unique id id' login login' found found' same (by rw [authenticated]; rfl)
    (by rw [authenticated']; rfl) single

section Example

def twoPresented : List (Label Unit) :=
  [.create { ttl := 600, singleUse := true, lastUsedAt := 0 }, .present 0 (), .present 0 ()]

theorem single_use_authenticates_twice :
    ∃ state : TokenLogins Unit, Reach (step fun _ _ => true) Always {} state ∧
      state.manager.isSingleUse 0 = true ∧
      state.logins = [⟨0, (), .authenticated⟩, ⟨0, (), .authenticated⟩] := by
  apply exists_reach_of_exec (twoPresented ++ [.lookup 0, .lookup 1, .authenticate 0 true,
    .authenticate 1 true, .destroy 0, .destroy 1, .logIn 0 true, .logIn 1 true])
  decide +kernel

theorem single_use_authenticates_once_sequential :
    ∃ state : TokenLogins Unit, Reach (step fun _ _ => true) Undisputed {} state ∧
      state.logins = [⟨0, (), .failed⟩, ⟨0, (), .authenticated⟩] ∧
      ∀ id : Nat, state.logins[id]? = some ⟨0, (), .authenticated⟩ → id = 1 := by
  refine exists_reach_of_run (P := fun state => state.manager.isSingleUse 0 = true ∧
      state.logins = [⟨0, (), .failed⟩, ⟨0, (), .authenticated⟩])
    (twoPresented ++ [.lookup 1, .authenticate 1 true, .destroy 1, .lookup 0, .logIn 1 true])
    (by decide +kernel) fun state reached ⟨single, logins⟩ => ?_
  have second : state.logins[1]? = some ⟨0, (), .authenticated⟩ := by rw [logins]; rfl
  exact ⟨logins, fun id found => single_use_authenticates_once _ state reached
    id 1 _ _ found second rfl single rfl rfl⟩

end Example

end TokenLogins

end TruenasMiddleware.Auth
